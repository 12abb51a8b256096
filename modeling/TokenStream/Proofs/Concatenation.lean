import TokenStream.Proofs.NumeralData
import TokenStream.Proofs.RemainingText

/-!
# Texts that stand one behind the other

Two texts glue when the last token of the first one stands at its end and is read
on into the second one. If they do not glue, the extents of the two together
are those of the first and, further on, those of the second; if they do, they are
not. Either way the tokens of the first that stand before its end stay as they
are. Main statements: `Lexeme.goesOn_iff` says when a token is read on,
`Decomposition.extents_of_append` and `Decomposition.isPrefix_extents` compare the
decompositions, and `extents_append` compares the texts.
-/

namespace TokenStream

/-! ## Tokens that are read on -/

/-- The kinds of tokens that are runs of letters: names and keywords. -/
def Kind.IsWord (kind : Kind) : Prop := kind = ident ∨ kind ∈ keywords.map Prod.snd

instance (kind : Kind) : Decidable kind.IsWord := inferInstanceAs (Decidable (_ ∨ _))

namespace Token

/-- Is the token a run of digits: a number, or an illegal token that starts with one? -/
def IsNumeral (t : Token) : Prop :=
  t.kind = .int ∨ t.kind = .illegal ∧ ∃ c, t.raw.toList.head? = some c ∧ c.isDigit = true

/-- Is the token read on with the character when that stands right behind it? -/
def GoesOn (t : Token) (c : Char) : Prop :=
  t.kind.IsWord ∧ isLetter c = true ∨ t.IsNumeral ∧ c.isDigit = true ∨
    (t.kind = .assign ∨ t.kind = .bang) ∧ c = '='

end Token

namespace Kind

theorem keywords_kinds : ∀ e ∈ keywords, e.2 ≠ int ∧ e.2 ≠ illegal ∧ e.2 ≠ assign ∧ e.2 ≠ bang := by
  decide

theorem symbols_kinds : ∀ e ∈ symbols,
    ¬ e.2.IsWord ∧ e.2 ≠ int ∧ e.2 ≠ illegal ∧ e.2 ≠ assign ∧ e.2 ≠ bang := by
  decide

theorem operators_kinds : ∀ e ∈ operators,
    ¬ e.2.1.IsWord ∧ e.2.1 ≠ int ∧ e.2.1 ≠ illegal ∧ (e.2.1 = assign ∨ e.2.1 = bang) := by
  decide

theorem operators_kinds_withEquals : ∀ e ∈ operators,
    ¬ e.2.2.IsWord ∧ e.2.2 ≠ int ∧ e.2.2 ≠ illegal ∧ e.2.2 ≠ assign ∧ e.2.2 ≠ bang := by
  decide

theorem not_eq_of_lookup_operators {c : Char} (h : operators.lookup c = none) :
    ¬ (c = '=' ∨ c = '!') := by
  intro hc
  obtain ⟨kinds, hk⟩ := mem_operators_of_eq hc
  simp [lookup_operators.2 hk] at h

end Kind

/-- A token is read on where its lexeme is. -/
theorem Lexeme.goesOn_iff {raw : List Char} {t : Token} (h : Lexeme raw t) {c : Char} :
    t.GoesOn c ↔ Continues raw c := by
  have hint : ¬ Kind.int.IsWord := by decide
  have hillegal : ¬ Kind.illegal.IsWord := by decide
  cases h with
  | keyword hw hl hk =>
    have hword : Kind.IsWord _ := .inr (List.mem_map_of_mem hk)
    obtain ⟨h1, h2, h3, h4⟩ := Kind.keywords_kinds _ hk
    rw [continues_letters hw hl]
    simp [Token.GoesOn, Token.IsNumeral, hword, h1, h2, h3, h4]
  | name hw hl =>
    rw [continues_letters hw hl]
    simp [Token.GoesOn, Token.IsNumeral, Kind.IsWord]
  | number hd hl =>
    rw [continues_digits hd hl]
    simp [Token.GoesOn, Token.IsNumeral, hint]
  | overflow hd hl =>
    obtain ⟨d, ds, rfl⟩ := List.exists_cons_of_ne_nil hd
    rw [continues_digits hd hl]
    simp [Token.GoesOn, Token.IsNumeral, hillegal, hl d (.head _)]
  | operator hc =>
    obtain ⟨-, hl, hd, -⟩ := Kind.operators_apart _ hc
    obtain ⟨h1, h2, h3, h4⟩ := Kind.operators_kinds _ hc
    have ho := Kind.eq_of_mem_operators hc
    rw [continues_single hl hd]
    simp [Token.GoesOn, Token.IsNumeral, h1, h2, h3, h4, ho]
  | operatorEquals hc =>
    obtain ⟨h1, h2, h3, h4, h5⟩ := Kind.operators_kinds_withEquals _ hc
    simp [Token.GoesOn, Token.IsNumeral, h1, h2, h3, h4, h5, not_continues_withEquals]
  | symbol hc =>
    obtain ⟨-, hl, hd, ho⟩ := Kind.symbols_apart _ hc
    obtain ⟨h1, h2, h3, h4, h5⟩ := Kind.symbols_kinds _ hc
    have hne := Kind.not_eq_of_lookup_operators ho
    rw [continues_single hl hd]
    simp [Token.GoesOn, Token.IsNumeral, h1, h2, h3, h4, h5, hne]
  | stray hb hl hd ho hs =>
    have hne := Kind.not_eq_of_lookup_operators (lookup_eq_none_of_forall ho)
    rw [continues_single hl hd]
    simp [Token.GoesOn, Token.IsNumeral, hillegal, hd, hne]

namespace Decomposition

variable {d e m : Decomposition} {lead : List Char} {p : Part} {ps : List Part} {start : Nat}

/-! ## Decompositions that stand one behind the other -/

/-- Is the last lexeme kept apart from a text behind it? -/
def Sealed (d : Decomposition) (tail : List Char) : Prop :=
  ∀ p ∈ d.parts.getLast?, p.gap = [] → ∀ c ∈ tail.head?, ¬ Continues p.raw c

/-- Behind the last lexeme, if anything, stand blanks. -/
theorem IsMunched.eq_nil_of_text (h : IsMunched ⟨lead, ps⟩) (ht : text ⟨lead, ps⟩ = []) :
    lead = [] ∧ ps = [] := by
  obtain ⟨hlead, hps⟩ := List.append_eq_nil_iff.1 ht
  cases ps with
  | nil => exact ⟨hlead, rfl⟩
  | cons p ps => exact absurd hps h.text_parts_ne_nil

theorem add_length_text_cons (start : Nat) (lead : List Char) (p : Part) (ps : List Part) :
    start + (text ⟨lead, p :: ps⟩).length =
      start + lead.length + p.raw.length + (text ⟨p.gap, ps⟩).length := by
  rw [text_cons, List.length_append, List.length_append]
  omega

/-- A lexeme that is not the end of its text is not read on into a longer one. -/
theorem IsMunched.not_continues_append (hd : IsMunched ⟨lead, p :: ps⟩)
    (hne : text ⟨p.gap, ps⟩ ≠ []) (tail : List Char) :
    ∀ c ∈ (text ⟨p.gap, ps⟩ ++ tail).head?, ¬ Continues p.raw c := by
  intro c hc
  rw [List.head?_append_of_ne_nil _ hne] at hc
  exact hd.not_continues c hc

/-- A first lexeme that is not read on is the first one of any longer text. -/
theorem IsMunched.extents_of_cons (hd : IsMunched ⟨lead, p :: ps⟩) (hm : m.IsMunched)
    {tail : List Char} (ht : m.text = text ⟨lead, p :: ps⟩ ++ tail)
    (hc : ∀ c ∈ (text ⟨p.gap, ps⟩ ++ tail).head?, ¬ Continues p.raw c) :
    ∃ m' : Decomposition, m'.IsMunched ∧ m'.text = text ⟨p.gap, ps⟩ ++ tail ∧ ∀ start,
      m.extents start =
        ⟨start + lead.length, start + lead.length + p.raw.length, p.token⟩ ::
          m'.extents (start + lead.length + p.raw.length) := by
  have hlex := hd.head_lexeme
  obtain ⟨⟨gap, qs⟩, hm', ht'⟩ := exists_isMunched (text ⟨p.gap, ps⟩ ++ tail)
  have hcons := hm'.cons hd.lead hlex.shape (ht' ▸ hc)
  obtain rfl : m = ⟨lead, ⟨.ofLexeme p.raw, gap⟩ :: qs⟩ := by
    refine hm.eq_of_text_eq hcons ?_
    rw [ht, text_cons, text_cons, hlex.shape.raw_part, ht', List.append_assoc, List.append_assoc]
  refine ⟨⟨gap, qs⟩, hm', ht', fun start => ?_⟩
  rw [extents_cons, hlex.shape.raw_part, ← hlex.eq_ofLexeme]

namespace Sealed

variable {tail : List Char}

theorem behind (hs : Sealed ⟨lead, p :: ps⟩ tail) : Sealed ⟨p.gap, ps⟩ tail := by
  intro q hq
  refine hs q ?_
  rw [Option.mem_def] at hq ⊢
  simp [List.getLast?_cons, hq]

/-- Nothing behind the first lexeme goes on with it, in this text or in the one behind. -/
theorem not_continues (hs : Sealed ⟨lead, p :: ps⟩ tail) (hd : IsMunched ⟨lead, p :: ps⟩) :
    ∀ c ∈ (text ⟨p.gap, ps⟩ ++ tail).head?, ¬ Continues p.raw c := by
  by_cases ht : text ⟨p.gap, ps⟩ = []
  · obtain ⟨hgap, rfl⟩ := hd.tail.eq_nil_of_text ht
    rw [ht, List.nil_append]
    exact hs p rfl hgap
  · exact hd.not_continues_append ht tail

end Sealed

/-- If the first text is sealed, the extents of two texts together are those of the one and
those of the other behind it: by induction on the parts of the first. -/
theorem extents_of_append (hd : d.IsMunched) (he : e.IsMunched) (hm : m.IsMunched)
    (ht : m.text = d.text ++ e.text) (hs : d.Sealed e.text) (start : Nat) :
    m.extents start = d.extents start ++ e.extents (start + d.text.length) := by
  obtain ⟨lead, ps⟩ := d
  induction ps generalizing m lead start with
  | nil =>
    obtain ⟨lead', qs⟩ := e
    have hblanks : ∀ c ∈ lead ++ lead', isBlank c = true := fun c hc =>
      (List.mem_append.1 hc).elim (hd.lead c) (he.lead c)
    obtain rfl : m = ⟨lead ++ lead', qs⟩ :=
      hm.eq_of_text_eq ⟨hblanks, he.gaps, he.lexemes, he.apart⟩ (ht.trans (by simp [text]))
    simp [extents, partExtents, text, Nat.add_assoc]
  | cons p ps ih =>
    obtain ⟨m', hm', ht', hext⟩ := hd.extents_of_cons hm ht (hs.not_continues hd)
    rw [hext, extents_cons, List.cons_append, ih hm' _ _ hd.tail ht' hs.behind,
      add_length_text_cons]

/-- The extents that stop before the end of a text stay what they are when the text goes
on: by induction on the parts. -/
theorem isPrefix_extents (hd : d.IsMunched) (hm : m.IsMunched) {tail : List Char}
    (ht : m.text = d.text ++ tail) (start : Nat) :
    (d.extents start).filter (fun e : Extent => e.stop < (start + d.text.length : Nat)) <+:
      m.extents start := by
  obtain ⟨lead, ps⟩ := d
  induction ps generalizing m lead start with
  | nil => exact List.nil_prefix
  | cons p ps ih =>
    rw [extents_cons, add_length_text_cons]
    by_cases hbehind : text ⟨p.gap, ps⟩ = []
    · -- The first lexeme is the last one and ends the text.
      obtain ⟨-, rfl⟩ := hd.tail.eq_nil_of_text hbehind
      simp [hbehind, extents, partExtents]
    · obtain ⟨m', hm', ht', hext⟩ := hd.extents_of_cons hm ht (hd.not_continues_append hbehind tail)
      have hlt : start + lead.length + p.raw.length <
          start + lead.length + p.raw.length + (text ⟨p.gap, ps⟩).length := by
        have := List.length_pos_iff.2 hbehind
        omega
      rw [hext, List.filter_cons_of_pos (by simpa using Int.ofNat_lt.2 hlt)]
      exact List.cons_prefix_cons.2 ⟨rfl, ih hm' _ _ hd.tail ht'⟩

/-! ## Their extents -/

theorem extents_add (n start : Nat) (d : Decomposition) :
    d.extents (n + start) = (d.extents start).map (Extent.shift n) := by
  obtain ⟨lead, ps⟩ := d
  induction ps generalizing start lead with
  | nil => rfl
  | cons p ps ih =>
    rw [extents_cons, extents_cons, List.map_cons, ← ih]
    simp only [Extent.shift, Int.natCast_add, Nat.add_assoc, Int.add_assoc]

/-- A last lexeme without blanks behind it stands at the end of the text. -/
theorem getLast?_extents (hp : d.parts.getLast? = some p) (hgap : p.gap = []) (start : Nat) :
    ∃ n, (d.extents start).getLast? = some ⟨n, (start + d.text.length : Nat), p.token⟩ := by
  obtain ⟨ps, hparts⟩ := List.getLast?_eq_some_iff.1 hp
  have hstop : start + d.lead.length + (ps.flatMap Part.text).length + p.raw.length =
      start + d.text.length := by
    simp [text, hparts, Part.text, hgap, Nat.add_assoc]
  rw [extents, hparts, partExtents_append, partExtents, partExtents, List.getLast?_concat,
    ← hstop]
  exact ⟨_, rfl⟩

/-- Nothing behind an extent goes on with its lexeme. -/
theorem not_continues_of_mem_extents {whole : List Char} (hd : d.IsMunched)
    (ht : whole.drop start = d.text) {e : Extent} (he : e ∈ d.extents start) :
    ∀ c ∈ (whole.drop e.stop.toNat).head?, ¬ Continues e.token.raw.toList c := by
  obtain ⟨lead, ps⟩ := d
  induction ps generalizing start lead with
  | nil => simp [extents, partExtents] at he
  | cons p ps ih =>
    rw [extents_cons] at he
    rcases List.mem_cons.1 he with rfl | he
    · show ∀ c ∈ (whole.drop (start + lead.length + p.raw.length)).head?, ¬ Continues p.raw c
      rw [drop_raw ht]
      exact hd.not_continues
    · exact ih _ hd.tail (drop_raw ht) he

end Decomposition

/-! ## Texts that stand one behind the other -/

/-- Is the last token of the first text read on into the second one? Its extents
are given without the one of its end. -/
def TextsGlue (es : List Extent) (a b : String) : Prop :=
  ∃ e c, es.getLast? = some e ∧ e.stop = a.length ∧ b.toList.head? = some c ∧ e.token.GoesOn c

theorem NumeralsFit.front {a b : List Char} (h : NumeralsFit (a ++ b)) : NumeralsFit a := by
  intro before run behind hr
  refine h.length_le ?_ hr.all
  exact ⟨before, behind ++ b, by simp [hr.split]⟩

section Append

variable {a b : String} {d e m : Decomposition}

theorem sealed_of_not_textsGlue (hd : d.IsMunched) (ht : d.text = a.toList)
    (h : ¬ TextsGlue (d.extents 0) a b) : d.Sealed b.toList := by
  intro p hp hgap c hc hcont
  obtain ⟨n, hlast⟩ := Decomposition.getLast?_extents hp hgap 0
  have hlex := hd.lexemes p (List.mem_of_getLast? hp)
  refine h ⟨_, c, hlast, ?_, hc, hlex.goesOn_iff.2 hcont⟩
  show ((0 + d.text.length : Nat) : Int) = a.length
  rw [ht, String.length_toList, Nat.zero_add]

/-- Texts that do not glue are read one after the other. -/
theorem extents_of_sealed (ha : NumeralsFit a.toList) (hb : NumeralsFit b.toList)
    (hd : d.IsMunched) (htd : d.text = a.toList) (he : e.IsMunched) (hte : e.text = b.toList)
    (hs : d.Sealed b.toList) :
    extents (a ++ b) =
      .ok (d.extents 0 ++
        (e.extents 0 ++ [(⟨b.length, b.length, .eof⟩ : Extent)]).map (.shift a.length)) := by
  obtain ⟨m, hm, htm⟩ := Decomposition.exists_isMunched (a ++ b).toList
  have hext := Decomposition.extents_of_append hd he hm
    (by rw [htm, htd, hte, String.toList_append]) (hte ▸ hs) 0
  have htokens : m.parts.map Part.token = d.parts.map Part.token ++ e.parts.map Part.token := by
    have := congrArg (List.map Extent.token) hext
    simpa only [List.map_append, Decomposition.map_token_extents] using this
  have hnone : m.overlong? = none := by
    have had := Decomposition.overlong?_eq_none_iff.1 (Decomposition.overlong?_eq_none (htd ▸ ha))
    have hbe := Decomposition.overlong?_eq_none_iff.1 (Decomposition.overlong?_eq_none (hte ▸ hb))
    rw [Decomposition.overlong?_eq_none_iff, htokens]
    exact fun t ht => (List.mem_append.1 ht).elim (had t) (hbe t)
  rw [extents_of_isMunched hm htm, hnone, hext, htd, String.length_toList, Nat.zero_add,
    String.length_append, List.map_append, ← Decomposition.extents_add, Nat.add_zero,
    List.append_assoc]
  rfl

/-- Texts that glue are not: the last token of the first one is no token of the two together. -/
theorem not_textsGlue_of_extents (hd : d.IsMunched) {es : List Extent}
    (h : extents (a ++ b) = .ok (d.extents 0 ++ es)) : ¬ TextsGlue (d.extents 0) a b := by
  rintro ⟨x, c, hlast, hstop, hc, hgo⟩
  have hx : x ∈ d.extents 0 := List.mem_of_getLast? hlast
  have hlex := Decomposition.lexeme_of_mem_extents hd hx
  obtain ⟨m, hm, htm⟩ := Decomposition.exists_isMunched (a ++ b).toList
  have hxm : x ∈ m.extents 0 := by
    rw [extents_of_isMunched hm htm] at h
    cases ho : m.overlong? with
    | some q => simp [ho] at h
    | none =>
      simp only [ho, Except.ok.injEq] at h
      have hmem : x ∈ m.extents 0 ++ [⟨(a ++ b).length, (a ++ b).length, .eof⟩] :=
        h ▸ List.mem_append_left es hx
      refine (List.mem_append.1 hmem).resolve_right fun hend => ?_
      rw [List.mem_singleton.1 hend] at hlex
      exact hlex.kind_ne_eof rfl
  have hdrop : (a ++ b).toList.drop 0 = m.text := htm.symm
  refine Decomposition.not_continues_of_mem_extents hm hdrop hxm c ?_ (hlex.goesOn_iff.1 hgo)
  rw [hstop, Int.toNat_natCast, String.toList_append, ← String.length_toList, List.drop_left]
  exact hc

end Append

/-- Two texts are read one after the other exactly when they do not glue. Glued or not,
the tokens of the first that stand before its end are the first ones of the two together. -/
theorem extents_append (a b : String) :
    (NumeralsFit a.toList → NumeralsFit b.toList →
      ∃ as bs, extents a = .ok (as ++ [⟨a.length, a.length, .eof⟩]) ∧
        (∀ e ∈ as, e.token.kind ≠ .eof) ∧ extents b = .ok bs ∧
        (extents (a ++ b) = .ok (as ++ bs.map (.shift a.length)) ↔ ¬ TextsGlue as a b)) ∧
    (NumeralsFit (a ++ b).toList →
      ∃ as cs, extents a = .ok (as ++ [⟨a.length, a.length, .eof⟩]) ∧
        (∀ e ∈ as, e.token.kind ≠ .eof) ∧ extents (a ++ b) = .ok cs ∧
        as.filter (fun e => e.stop < a.length) <+: cs) := by
  obtain ⟨d, hd, htd⟩ := Decomposition.exists_isMunched a.toList
  have hkind : ∀ e ∈ d.extents 0, e.token.kind ≠ .eof := fun e he =>
    ((Decomposition.tiles_extents hd).marks e he).kind_ne_eof
  refine ⟨fun ha hb => ?_, fun hab => ?_⟩
  · obtain ⟨e, he, hte⟩ := Decomposition.exists_isMunched b.toList
    refine ⟨_, _, extents_of_numeralsFit ha hd htd, hkind, extents_of_numeralsFit hb he hte,
      not_textsGlue_of_extents hd, fun h => ?_⟩
    exact extents_of_sealed ha hb hd htd he hte (sealed_of_not_textsGlue hd htd h)
  · have ha : NumeralsFit a.toList := (String.toList_append ▸ hab).front
    obtain ⟨m, hm, htm⟩ := Decomposition.exists_isMunched (a ++ b).toList
    have hprefix := Decomposition.isPrefix_extents hd hm
      (by rw [htm, htd, String.toList_append]) 0
    rw [htd, String.length_toList, Nat.zero_add] at hprefix
    refine ⟨_, _, extents_of_numeralsFit ha hd htd, hkind, extents_of_numeralsFit hab hm htm, ?_⟩
    exact hprefix.trans (List.prefix_append _ _)

/-- Behind two equals signs, which are read together, a third one is not read on. -/
theorem extents_append_equals :
    NumeralsFit "a==".toList ∧ NumeralsFit "=1".toList ∧ NumeralsFit ("a==" ++ "=1").toList ∧
      (∃ as, extents "a==" = .ok (as ++ [⟨3, 3, .eof⟩]) ∧ ¬ TextsGlue as "a==" "=1") ∧
      ∃ as cs, extents "a==" = .ok (as ++ [⟨3, 3, .eof⟩]) ∧ extents ("a==" ++ "=1") = .ok cs ∧
        as.filter (fun e => e.stop < 3) <+: cs := by
  have ha : NumeralsFit "a==".toList := .of_length_le (by decide)
  have hb : NumeralsFit "=1".toList := .of_length_le (by decide)
  have hab : NumeralsFit ("a==" ++ "=1").toList := .of_length_le (by decide)
  obtain ⟨happend, hprefix⟩ := extents_append "a==" "=1"
  obtain ⟨as, bs, has, -, hbs, hiff⟩ := happend ha hb
  obtain ⟨as', cs, has', -, hcs, hfirst⟩ := hprefix hab
  refine ⟨ha, hb, hab, ⟨as, has, hiff.1 ?_⟩, as', cs, has', hcs, hfirst⟩
  have hreada : extents "a==" =
      .ok ([⟨0, 1, ⟨.ident, .name "a", "a"⟩⟩, ⟨1, 3, ⟨.eq, .absent, "=="⟩⟩] ++ [⟨3, 3, .eof⟩]) := by
    decide +kernel
  have hreadb : extents "=1" =
      .ok [⟨0, 1, ⟨.assign, .absent, "="⟩⟩, ⟨1, 2, ⟨.int, .number 1, "1"⟩⟩, ⟨2, 2, .eof⟩] := by
    decide +kernel
  obtain rfl := List.append_cancel_right (Except.ok.inj (has.symm.trans hreada))
  obtain rfl := Except.ok.inj (hbs.symm.trans hreadb)
  decide +kernel

end TokenStream
