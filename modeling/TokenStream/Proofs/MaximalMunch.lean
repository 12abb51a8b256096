import TokenStream.Proofs.Cursor
import TokenStream.Proofs.DigitRuns

/-!
# Lexing is the unique maximal munch

What is read of a text is its munched decomposition: one token for each part,
whose extent is the place of the part's lexeme, up to the first run of digits
that is too long to be converted. Main statements: `Cursor.extents_atOffset` says
this for the text behind any offset, `tokenize_eq_unique_munch` for a whole text
without such runs.
-/

namespace TokenStream

/-- The end of the text is no lexeme. -/
theorem Lexeme.kind_ne_eof {raw : List Char} {t : Token} (h : Lexeme raw t) : t.kind ≠ .eof := by
  cases h with
  | keyword _ _ hk =>
    have : ∀ e ∈ Kind.keywords, e.2 ≠ .eof := by decide
    exact this _ hk
  | name | number | overflow | stray => simp
  | operator hc =>
    have : ∀ e ∈ Kind.operators, e.2.1 ≠ .eof := by decide
    exact this _ hc
  | operatorEquals hc =>
    have : ∀ e ∈ Kind.operators, e.2.2 ≠ .eof := by decide
    exact this _ hc
  | symbol hc =>
    have : ∀ e ∈ Kind.symbols, e.2 ≠ .eof := by decide
    exact this _ hc

/-- The extents of parts, of which the first one starts at an offset. -/
def partExtents (start : Nat) : List Part → List Extent
  | [] => []
  | p :: ps => ⟨start, start + p.raw.length, p.token⟩ :: partExtents (start + p.text.length) ps

namespace Decomposition

/-- The extents of a decomposition of the text behind an offset. -/
def extents (start : Nat) (d : Decomposition) : List Extent :=
  partExtents (start + d.lead.length) d.parts

/-- The first part whose lexeme is too long to be converted. -/
def overlong? (d : Decomposition) : Option Part := d.parts.find? fun p => isOverlong p.raw

theorem extents_cons (start : Nat) (lead : List Char) (p : Part) (ps : List Part) :
    extents start ⟨lead, p :: ps⟩ =
      ⟨start + lead.length, start + lead.length + p.raw.length, p.token⟩ ::
        extents (start + lead.length + p.raw.length) ⟨p.gap, ps⟩ := by
  simp [extents, partExtents, Part.text, Nat.add_assoc]

theorem map_token_extents (start : Nat) (d : Decomposition) :
    (d.extents start).map Extent.token = d.parts.map Part.token := by
  obtain ⟨lead, ps⟩ := d
  induction ps generalizing start lead with
  | nil => rfl
  | cons p ps ih => rw [extents_cons, List.map_cons, List.map_cons, ih]

theorem lexeme_of_mem_extents {d : Decomposition} (hd : d.IsMunched) {start : Nat} {e : Extent}
    (he : e ∈ d.extents start) : Lexeme e.token.raw.toList e.token := by
  have htoken : e.token ∈ d.parts.map Part.token :=
    d.map_token_extents start ▸ List.mem_map_of_mem he
  obtain ⟨p, hp, heq⟩ := List.mem_map.1 htoken
  exact heq ▸ hd.lexemes p hp

end Decomposition

namespace Cursor

variable {source : Array Char} {p : Nat} {lead : List Char}

/-- Reading on at a decomposition without parts finds the end of the text. -/
theorem pull_of_no_parts (hd : Decomposition.IsMunched ⟨lead, []⟩)
    (ht : source.toList.drop p = Decomposition.text ⟨lead, []⟩) :
    (atOffset source p).pull = ⟨.ok .eof, atOffset source (p + lead.length), none⟩ := by
  rw [pull_atOffset, ht, hd.takeWhile_text, hd.dropWhile_text]
  rfl

/-- Reading on at a decomposition reads the lexeme of its first part. -/
theorem pull_of_parts {q : Part} {qs : List Part} (hd : Decomposition.IsMunched ⟨lead, q :: qs⟩)
    (ht : source.toList.drop p = Decomposition.text ⟨lead, q :: qs⟩) :
    (atOffset source p).pull =
      ⟨outcomeOf q.raw, atOffset source (p + lead.length + q.raw.length),
        overflowOf? (p + lead.length) q.raw⟩ := by
  rw [pull_atOffset, ht, hd.takeWhile_text, hd.dropWhile_text, hd.munch_text]

/-- The extent of a token that ends at the cursor starts where its raw text does. -/
theorem extent_of_token (source : Array Char) (t : Token) (start : Nat)
    (overflow? : Option Overflow) :
    (⟨.ok t, atOffset source (start + t.raw.toList.length), overflow?⟩ : Pull).extent =
      .ok ⟨start, start + t.raw.toList.length, t⟩ := by
  have hlen : t.raw.length = t.raw.toList.length := String.length_toList.symm
  simp only [Pull.extent, Except.map, position_atOffset, hlen, Int.natCast_add, Int.add_sub_cancel]

theorem extent_of_part (q : Part) (start : Nat) (overflow? : Option Overflow) :
    (⟨.ok q.token, atOffset source (start + q.raw.length), overflow?⟩ : Pull).extent =
      .ok ⟨start, start + q.raw.length, q.token⟩ :=
  extent_of_token source q.token start overflow?

/-- The extents from an offset are those of the decomposition of the text behind
it and that of the end, unless a lexeme is too long: by induction on the parts,
one of which is read at a time. -/
theorem extents_atOffset {d : Decomposition} (hd : d.IsMunched)
    (ht : source.toList.drop p = d.text) (hp : p ≤ source.size) :
    (atOffset source p).extents =
      match d.overlong? with
      | some q => .error (.tooLongToRead q.raw.length)
      | none => .ok (d.extents p ++ [⟨source.size, source.size, .eof⟩]) := by
  obtain ⟨lead, qs⟩ := d
  induction qs generalizing p lead with
  | nil =>
    have hsize : p + lead.length = source.size := by
      have := congrArg List.length ht
      simp [Decomposition.text] at this
      omega
    rw [extents_eq, pull_of_no_parts hd ht]
    simp only [Pull.extent, Except.map, position_atOffset, hsize]
    rfl
  | cons q qs ih =>
    have hlex := hd.head_lexeme
    rw [extents_eq, pull_of_parts hd ht]
    cases ho : isOverlong q.raw with
    | true =>
      have hq : Decomposition.overlong? ⟨lead, q :: qs⟩ = some q := List.find?_cons_of_pos ho
      rw [hq, outcomeOf, if_pos ho]
      rfl
    | false =>
      have hq : Decomposition.overlong? ⟨lead, q :: qs⟩ = Decomposition.overlong? ⟨q.gap, qs⟩ :=
        List.find?_cons_of_neg (by simp [ho])
      have hlast : ∀ c o, (⟨.ok q.token, c, o⟩ : Pull).isLast = false := fun c o => by
        simp [Pull.isLast, hlex.kind_ne_eof]
      have hle : p + lead.length + q.raw.length ≤ source.size := by
        have := congrArg List.length ht
        simp only [List.length_drop, Array.length_toList, Decomposition.text_cons,
          List.length_append] at this
        omega
      have hbehind := ih hle q.gap hd.tail (Decomposition.drop_raw ht)
      rw [hq, outcomeOf, if_neg (by simp [ho]), ← hlex.eq_ofLexeme, hlast, hbehind]
      cases Decomposition.overlong? ⟨q.gap, qs⟩ with
      | some q' => rfl
      | none =>
        rw [Decomposition.extents_cons, extent_of_part]
        rfl

end Cursor

namespace Decomposition

theorem raw_isInfix {d : Decomposition} {p : Part} (hp : p ∈ d.parts) : p.raw <:+: d.text := by
  have hraw : p.raw <+: p.text := ⟨p.gap, rfl⟩
  have hparts : p.text <:+: d.parts.flatMap Part.text :=
    List.infix_of_mem_flatten (List.mem_map_of_mem hp)
  exact hraw.isInfix.trans (hparts.trans (List.suffix_append _ _).isInfix)

theorem overlong?_eq_none_iff {d : Decomposition} :
    d.overlong? = none ↔ ∀ t ∈ d.parts.map Part.token, isOverlong t.raw.toList = false := by
  simp only [overlong?, List.find?_eq_none, List.forall_mem_map, Bool.not_eq_true, Part.raw]

/-- No lexeme of a text whose numerals fit is too long. -/
theorem overlong?_eq_none {d : Decomposition} (h : NumeralsFit d.text) : d.overlong? = none := by
  refine List.find?_eq_none.2 fun p hp ho => ?_
  rw [isOverlong, Bool.and_eq_true, decide_eq_true_eq] at ho
  have := h.length_le (raw_isInfix hp) (List.all_eq_true.1 ho.1)
  omega

end Decomposition

/-- The extents of a text are those of its munched decomposition and that of its
end, unless a lexeme is too long. -/
theorem extents_of_isMunched {text : String} {d : Decomposition} (hd : d.IsMunched)
    (ht : d.text = text.toList) :
    extents text =
      match d.overlong? with
      | some q => .error (.tooLongToRead q.raw.length)
      | none => .ok (d.extents 0 ++ [⟨text.length, text.length, .eof⟩]) := by
  have hdrop : text.toList.toArray.toList.drop 0 = d.text := ht.symm
  rw [extents, Cursor.ofText_eq, Cursor.extents_atOffset hd hdrop (Nat.zero_le _),
    List.size_toArray, String.length_toList]

theorem extents_of_numeralsFit {text : String} (h : NumeralsFit text.toList) {d : Decomposition}
    (hd : d.IsMunched) (ht : d.text = text.toList) :
    extents text = .ok (d.extents 0 ++ [⟨text.length, text.length, .eof⟩]) := by
  rw [extents_of_isMunched hd ht, Decomposition.overlong?_eq_none (ht ▸ h)]

/-- A text that is not refused has the extents of a munched decomposition. -/
theorem exists_isMunched_of_extents {text : String} {es : List Extent} (h : extents text = .ok es) :
    ∃ d : Decomposition, d.IsMunched ∧ d.text = text.toList ∧ d.overlong? = none ∧
      es = d.extents 0 ++ [⟨text.length, text.length, .eof⟩] := by
  obtain ⟨d, hd, ht⟩ := Decomposition.exists_isMunched text.toList
  rw [extents_of_isMunched hd ht] at h
  split at h
  · contradiction
  · exact ⟨d, hd, ht, ‹_›, (Except.ok.inj h).symm⟩

/-- The tokens of a text are its lexemes and the end. -/
theorem eof_or_lexeme {text : String} {es : List Extent} (h : extents text = .ok es)
    {e : Extent} (he : e ∈ es) : e.token = .eof ∨ Lexeme e.token.raw.toList e.token := by
  obtain ⟨d, hd, -, -, rfl⟩ := exists_isMunched_of_extents h
  rcases List.mem_append.1 he with he | he
  · exact .inr (Decomposition.lexeme_of_mem_extents hd he)
  · exact .inl (by rw [List.mem_singleton.1 he])

theorem tokenize_eq_map_extents (text : String) :
    tokenize text = (extents text).map (List.map Extent.token) :=
  Cursor.tokens_eq_map_extents _

/-- The tokens of a text none of whose lexemes is too long. -/
theorem tokenize_of_isMunched {text : String} {d : Decomposition} (hd : d.IsMunched)
    (ht : d.text = text.toList) (hnone : d.overlong? = none) :
    tokenize text = .ok (d.parts.map Part.token ++ [.eof]) := by
  rw [tokenize_eq_map_extents, extents_of_isMunched hd ht, hnone]
  simp only [Except.map, List.map_append, Decomposition.map_token_extents, List.map_singleton]

/-- A text without runs of digits that are too long has exactly one munched
decomposition, and its tokens are those of the decomposition and the end. -/
theorem tokenize_eq_unique_munch (text : String) (h : NumeralsFit text.toList) :
    ∃ d : Decomposition, d.IsMunched ∧ d.text = text.toList ∧
      tokenize text = .ok (d.parts.map Part.token ++ [.eof]) ∧
      ∀ e : Decomposition, e.IsMunched → e.text = text.toList → e = d := by
  obtain ⟨d, hd, ht⟩ := Decomposition.exists_isMunched text.toList
  refine ⟨d, hd, ht, ?_, fun e he het => he.eq_of_text_eq hd (het.trans ht.symm)⟩
  rw [tokenize_eq_map_extents, extents_of_isMunched hd ht,
    Decomposition.overlong?_eq_none (ht ▸ h)]
  simp only [Except.map, List.map_append, Decomposition.map_token_extents, List.map_singleton]

/-- Lexemes of every sort, of which three equals signs are read as two lexemes. -/
theorem unique_munch_every_sort :
    let text := "===let x+@07 9223372036854775808"
    NumeralsFit text.toList ∧
      ∃ d : Decomposition, d.IsMunched ∧ d.text = text.toList ∧
        d.parts.map Part.token ++ [.eof] =
          [⟨.eq, .absent, "=="⟩, ⟨.assign, .absent, "="⟩, ⟨.letKeyword, .absent, "let"⟩,
            ⟨.ident, .name "x", "x"⟩, ⟨.plus, .absent, "+"⟩, ⟨.illegal, .absent, "@"⟩,
            ⟨.int, .number 7, "07"⟩, ⟨.illegal, .absent, "9223372036854775808"⟩, .eof] ∧
        ∀ e : Decomposition, e.IsMunched → e.text = text.toList → e = d := by
  intro text
  have hfit : NumeralsFit text.toList := .of_length_le (by decide)
  obtain ⟨d, hd, ht, htokens, hunique⟩ := tokenize_eq_unique_munch text hfit
  have hread : tokenize text =
      .ok [⟨.eq, .absent, "=="⟩, ⟨.assign, .absent, "="⟩, ⟨.letKeyword, .absent, "let"⟩,
        ⟨.ident, .name "x", "x"⟩, ⟨.plus, .absent, "+"⟩, ⟨.illegal, .absent, "@"⟩,
        ⟨.int, .number 7, "07"⟩, ⟨.illegal, .absent, "9223372036854775808"⟩, .eof] := by
    decide +kernel
  exact ⟨hfit, d, hd, ht, Except.ok.inj (htokens.symm.trans hread), hunique⟩

/-- In any text, a token has one of the kinds with one lexeme each exactly when its raw text is
this lexeme. -/
theorem kind_eq_iff_of_tokenize {text : String} {ts : List Token} (h : tokenize text = .ok ts)
    {t : Token} (ht : t ∈ ts) : ∀ e ∈ fixedLexemes, t.kind = e.2 ↔ t.raw = e.1 := by
  rw [tokenize_eq_map_extents] at h
  cases hes : extents text with
  | error error =>
    rw [hes] at h
    contradiction
  | ok es =>
    rw [hes] at h
    obtain rfl := Except.ok.inj h
    obtain ⟨e, he, rfl⟩ := List.mem_map.1 ht
    intro l hl
    rcases eof_or_lexeme hes he with heof | hlexeme
    · have hnone : ∀ l ∈ fixedLexemes, Kind.eof ≠ l.2 ∧ "" ≠ l.1 := by decide
      rw [heof]
      exact iff_of_false (hnone l hl).1 (hnone l hl).2
    · rw [hlexeme.kind_eq_iff l hl, String.toList_inj]

end TokenStream
