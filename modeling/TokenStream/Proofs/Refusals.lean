import TokenStream.Proofs.NumeralData
import TokenStream.Proofs.RemainingText

/-!
# When reading is refused

A reading is refused exactly when a run of digits that is too long to be converted
comes next behind the blanks. It records nothing then, and its cursor is left
behind the run, so that reading goes on with the text there. A whole text is
refused exactly when a maximal run of its digits is too long, and its cursor is
left behind the first one, whatever stands in front of it. Main statements:
`Cursor.pull_of_overlongAhead` for one reading, `Cursor.drained_of_parts` for all
readings of a text, and `refused_at_overlong` for both.
-/

namespace TokenStream

/-- A text that goes on with blanks, then with a run of digits that is too long to be
converted, then with anything that starts with no digit. -/
structure OverlongAhead (text blanks run behind : List Char) : Prop where
  split : text = blanks ++ (run ++ behind)
  blanks : ∀ c ∈ blanks, isBlank c = true
  digits : ∀ c ∈ run, c.isDigit = true
  overlong : Numeral.maxDigits < run.length
  stop : ∀ c ∈ behind.head?, c.isDigit = false

namespace OverlongAhead

variable {text blanks run behind : List Char}

theorem ne_nil (h : OverlongAhead text blanks run behind) : run ≠ [] :=
  List.ne_nil_of_length_pos (Nat.zero_lt_of_lt h.overlong)

theorem isOverlong (h : OverlongAhead text blanks run behind) : isOverlong run = true := by
  rw [TokenStream.isOverlong, List.all_eq_true.2 h.digits, decide_eq_true h.overlong]
  rfl

/-- The run is no blank. -/
theorem head_not_isBlank (h : OverlongAhead text blanks run behind) :
    ∀ c ∈ (run ++ behind).head?, isBlank c = false := by
  obtain ⟨d, ds, rfl⟩ := List.exists_cons_of_ne_nil h.ne_nil
  rintro c ⟨⟩
  exact not_isBlank_of_isDigit (h.digits d (.head _))

theorem takeWhile_eq (h : OverlongAhead text blanks run behind) :
    text.takeWhile isBlank = blanks := by
  rw [h.split, takeWhile_append_stop h.blanks h.head_not_isBlank]

/-- The run is the lexeme behind the blanks. -/
theorem munch_eq (h : OverlongAhead text blanks run behind) :
    munch (text.dropWhile isBlank) = run := by
  rw [h.split, dropWhile_append_stop h.blanks h.head_not_isBlank]
  refine munch_append (.digits h.ne_nil h.digits) fun c hc => ?_
  simp [continues_digits h.ne_nil h.digits, h.stop c hc]

/-- A lexeme behind the blanks that is too long is a run of digits. -/
theorem of_isOverlong (h : TokenStream.isOverlong (munch (text.dropWhile isBlank)) = true) :
    ∃ blanks run behind, OverlongAhead text blanks run behind := by
  have hblanks := List.takeWhile_append_dropWhile (p := isBlank) (l := text)
  obtain ⟨behind, hbehind⟩ := munch_isPrefix (text.dropWhile isBlank)
  rw [TokenStream.isOverlong, Bool.and_eq_true, List.all_eq_true, decide_eq_true_eq] at h
  obtain ⟨hdigits, hlong⟩ := h
  refine ⟨text.takeWhile isBlank, munch (text.dropWhile isBlank), behind,
    ⟨?_, fun _ => of_mem_takeWhile, hdigits, hlong, fun c hc => ?_⟩⟩
  · rw [hbehind, hblanks]
  · refine Bool.eq_false_iff.2 fun hd => not_continues_munch hbehind.symm hc ?_
    exact .inr (.inl ⟨hdigits, hd⟩)

end OverlongAhead

namespace Cursor

/-- The offset that is read next and the character under the cursor belong to its place. -/
structure IsConsistent (c : Cursor) : Prop where
  ahead_eq : c.ahead = c.position + 1
  current_eq : c.current? = c.source[c.position]?

theorem IsConsistent.eq_atOffset {c : Cursor} (h : c.IsConsistent) :
    c = atOffset c.source c.position := by
  obtain ⟨source, position, ahead, current?⟩ := c
  obtain ⟨hahead, hcurrent⟩ := h
  simp only at hahead hcurrent
  rw [atOffset, hahead, hcurrent]

theorem isConsistent_atOffset (source : Array Char) (p : Nat) :
    (atOffset source p).IsConsistent := ⟨rfl, rfl⟩

/-! ## One reading -/

section Pull

variable {source : Array Char} {p : Nat} {blanks run behind : List Char}

/-- A run of digits that is too long is passed over and refused. -/
theorem pull_of_overlongAhead (h : OverlongAhead (source.toList.drop p) blanks run behind) :
    (atOffset source p).pull =
      ⟨.error (.tooLongToRead run.length), atOffset source (p + blanks.length + run.length),
        none⟩ := by
  rw [pull_atOffset, h.takeWhile_eq, h.munch_eq]
  simp [outcomeOf, overflowOf?, h.isOverlong]

/-- Nothing else is refused. -/
theorem exists_overlongAhead {e : Numeral.Error}
    (h : (atOffset source p).pull.outcome = .error e) :
    ∃ blanks run behind, OverlongAhead (source.toList.drop p) blanks run behind := by
  refine OverlongAhead.of_isOverlong ?_
  rw [pull_atOffset] at h
  by_contra hshort
  simp [outcomeOf, hshort] at h

/-- Behind the run, the text goes on. -/
theorem drop_of_overlongAhead (h : OverlongAhead (source.toList.drop p) blanks run behind) :
    source.toList.drop (p + blanks.length + run.length) = behind := by
  rw [← List.drop_drop, ← List.drop_drop, h.split, List.drop_left, List.drop_left]

/-- A cursor goes on like a lexer of the text that is left. -/
theorem outcome_nthPull_atOffset (source : Array Char) (p n : Nat) :
    ((atOffset source p).nthPull n).outcome =
      ((ofText (source.toList.drop p)).nthPull n).outcome := by
  have hwithin := atOffset_within source p 0
  rw [Nat.add_zero] at hwithin
  rw [← hwithin, nthPull_within ⟨0, rfl⟩]
  rfl

end Pull

/-! ## All readings -/

/-- Reading on to the end is one reading, and reading on from there. -/
theorem drained_eq_pull (c : Cursor) :
    c.drained = if c.pull.isLast then c.pull.cursor else c.pull.cursor.drained := by
  rw [drained_eq, pulls_eq, List.length_cons, afterPulls]
  split
  · rfl
  · rw [drained_eq]

/-- Reading a text up to a lexeme that is too long leaves the cursor behind it: by induction on
the parts in front of it, one of which is read at a time. -/
theorem drained_of_parts {source : Array Char} {p : Nat} {lead : List Char} {ps : List Part}
    {q : Part} {qs : List Part} (hd : Decomposition.IsMunched ⟨lead, ps ++ q :: qs⟩)
    (ht : source.toList.drop p = Decomposition.text ⟨lead, ps ++ q :: qs⟩)
    (hps : ∀ r ∈ ps, isOverlong r.raw = false) (hq : isOverlong q.raw = true) :
    (atOffset source p).drained =
      atOffset source (p + (lead ++ ps.flatMap Part.text).length + q.raw.length) := by
  induction ps generalizing p lead with
  | nil =>
    rw [List.nil_append] at hd ht
    rw [drained_eq_pull, pull_of_parts hd ht, outcomeOf, if_pos hq]
    simp [Pull.isLast]
  | cons r ps ih =>
    rw [List.cons_append] at hd ht
    obtain ⟨hr, hps⟩ := List.forall_mem_cons.1 hps
    have hlex := hd.head_lexeme
    have hlast : ∀ c o, (⟨.ok r.token, c, o⟩ : Pull).isLast = false := fun c o => by
      simp [Pull.isLast, hlex.kind_ne_eof]
    have hlen : p + (lead ++ (r :: ps).flatMap Part.text).length =
        p + lead.length + r.raw.length + (r.gap ++ ps.flatMap Part.text).length := by
      simp only [List.flatMap_cons, Part.text, List.length_append]
      omega
    have hok : outcomeOf r.raw = .ok r.token := by
      rw [outcomeOf, if_neg (by simp [hr]), ← hlex.eq_ofLexeme]
    rw [drained_eq_pull, pull_of_parts hd ht, hok, hlast, if_neg Bool.false_ne_true,
      ih hd.tail (Decomposition.drop_raw ht) hps, hlen]

end Cursor

/-! ## The first run that is too long -/

/-- A maximal run of digits that is too long to be converted. -/
structure IsOverlongRun (text before run behind : List Char) : Prop
    extends IsRun Char.isDigit text before run behind where
  overlong : Numeral.maxDigits < run.length

/-- The first such run: no run in front of it is too long. -/
structure IsFirstOverlongRun (text before run behind : List Char) : Prop
    extends IsOverlongRun text before run behind where
  front : NumeralsFit before

theorem exists_isFirstOverlongRun_iff (text : String) :
    (∃ e, tokenize text = .error e) ↔
      ∃ before run behind, IsFirstOverlongRun text.toList before run behind := by
  constructor
  · rintro ⟨e, he⟩
    obtain ⟨before, run, behind, hrun, hfront, hlong, -⟩ :=
      extents_eq_error_iff.1 (tokenize_eq_error_iff.1 he)
    exact ⟨before, run, behind, ⟨⟨hrun, hlong⟩, hfront⟩⟩
  · rintro ⟨before, run, behind, h⟩
    exact ⟨_, tokenize_eq_error_iff.2 (extents_eq_error_iff.2
      ⟨before, run, behind, h.toIsRun, h.front, h.overlong, rfl⟩)⟩

/-- A text with a run that is too long has a first one. -/
theorem exists_isOverlongRun_iff (text : String) :
    (∃ e, tokenize text = .error e) ↔
      ∃ before run behind, IsOverlongRun text.toList before run behind := by
  constructor
  · intro h
    obtain ⟨before, run, behind, hfirst⟩ := (exists_isFirstOverlongRun_iff text).1 h
    exact ⟨before, run, behind, hfirst.toIsOverlongRun⟩
  · rintro ⟨before, run, behind, hlong⟩
    by_contra hok
    obtain ⟨es, hes⟩ : ∃ es, extents text = .ok es := by
      cases hes : extents text with
      | ok es => exact ⟨es, rfl⟩
      | error e => exact absurd ⟨e, tokenize_eq_error_iff.2 hes⟩ hok
    obtain ⟨d, hd, ht, hnone, -⟩ := exists_isMunched_of_extents hes
    have hfit : NumeralsFit text.toList := ht ▸ Decomposition.numeralsFit_of_overlong? hd hnone
    have hle := hfit before run behind hlong.toIsRun
    have hlt := hlong.overlong
    omega

/-- Reading a text is refused at its first run that is too long, and ends behind it. -/
theorem IsFirstOverlongRun.drained {text : String} {before run behind : List Char}
    (h : IsFirstOverlongRun text.toList before run behind) :
    (Cursor.ofText text.toList).drained =
      .atOffset text.toList.toArray (before.length + run.length) := by
  obtain ⟨⟨lead, parts⟩, hd, ht⟩ := Decomposition.exists_isMunched text.toList
  obtain ⟨ps, p, qs, hparts, hraw, hbefore⟩ := hd.exists_part_of_isRun (ht ▸ h.toIsRun)
  obtain rfl : parts = ps ++ p :: qs := hparts
  obtain rfl : before = lead ++ ps.flatMap Part.text := hbefore
  have hfront : Decomposition.overlong? ⟨lead, ps⟩ = none :=
    Decomposition.overlong?_eq_none h.front
  have hps : ∀ r ∈ ps, isOverlong r.raw = false := fun r hr => by
    simpa using List.find?_eq_none.1 hfront r hr
  have hp : isOverlong p.raw = true := by
    rw [hraw, isOverlong, List.all_eq_true.2 h.all, decide_eq_true h.overlong]
    rfl
  have hdrop : text.toList.toArray.toList.drop 0 = Decomposition.text ⟨lead, ps ++ p :: qs⟩ :=
    ht.symm
  rw [Cursor.ofText_eq, Cursor.drained_of_parts hd hdrop hps hp, hraw, Nat.zero_add]

/-- The refusal of a run of digits. Nothing is recorded, and the cursor is left at the offset
behind the run, where reading goes on with the text there. -/
structure Pull.Refuses (q : Pull) (source : Array Char) (run : List Char) (stop : Nat)
    (behind : List Char) : Prop where
  outcome_eq : q.outcome = .error (.tooLongToRead run.length)
  overflow_eq : q.overflow? = none
  source_eq : q.cursor.source = source
  position_eq : q.cursor.position = stop
  consistent : q.cursor.IsConsistent
  drop_eq : source.toList.drop stop = behind
  resumes : ∀ n, (q.cursor.nthPull n).outcome = ((Cursor.ofText behind).nthPull n).outcome

theorem Cursor.pull_refuses {c : Cursor} (hc : c.IsConsistent) {blanks run behind : List Char}
    (h : OverlongAhead (c.source.toList.drop c.position) blanks run behind) :
    c.pull.Refuses c.source run (c.position + blanks.length + run.length) behind := by
  have hpull := pull_of_overlongAhead h
  have hdrop := drop_of_overlongAhead h
  rw [← hc.eq_atOffset] at hpull
  constructor
  · rw [hpull]
  · rw [hpull]
  · rw [hpull]
    rfl
  · rw [hpull]
    rfl
  · rw [hpull]
    exact isConsistent_atOffset _ _
  · exact hdrop
  · intro n
    rw [hpull, outcome_nthPull_atOffset, hdrop]

/-- A reading is refused exactly when a run of digits that is too long comes next behind the
blanks, and goes on behind it. A text is refused exactly when one of its maximal runs of digits
is too long, and the cursor is then behind the first of them. -/
theorem refused_at_overlong :
    (∀ c : Cursor, c.IsConsistent →
      ((∃ e, c.pull.outcome = .error e) ↔ ∃ blanks run behind,
        OverlongAhead (c.source.toList.drop c.position) blanks run behind) ∧
      ∀ blanks run behind, OverlongAhead (c.source.toList.drop c.position) blanks run behind →
        c.pull.Refuses c.source run (c.position + blanks.length + run.length) behind) ∧
    ∀ text : String,
      let reply := (Session.ofText text).reply .tokenize
      ((∃ e, reply.answer = .refused e) ↔
        ∃ before run behind, IsOverlongRun text.toList before run behind) ∧
      ((∃ e, reply.answer = .refused e) ↔
        ∃ before run behind, IsFirstOverlongRun text.toList before run behind) ∧
      ∀ before run behind, IsFirstOverlongRun text.toList before run behind →
        reply.answer = .refused (.tooLongToRead run.length) ∧
        reply.session.cursor = .atOffset text.toList.toArray (before.length + run.length) := by
  refine ⟨fun c hc => ⟨⟨fun ⟨e, he⟩ => ?_, fun ⟨blanks, run, behind, h⟩ => ?_⟩,
    fun blanks run behind h => Cursor.pull_refuses hc h⟩, fun text => ?_⟩
  · rw [hc.eq_atOffset] at he
    exact Cursor.exists_overlongAhead he
  · exact ⟨_, (Cursor.pull_refuses hc h).outcome_eq⟩
  · intro reply
    have hanswer : reply.answer = .ofExcept .tokens (tokenize text) := rfl
    have hrefused : ∀ e, reply.answer = .refused e ↔ tokenize text = .error e := fun e => by
      rw [hanswer]
      cases tokenize text <;> simp [Answer.ofExcept]
    simp only [hrefused]
    refine ⟨exists_isOverlongRun_iff text, exists_isFirstOverlongRun_iff text,
      fun before run behind h => ⟨?_, h.drained⟩⟩
    exact tokenize_eq_error_iff.2 (extents_eq_error_iff.2
      ⟨before, run, behind, h.toIsRun, h.front, h.overlong, rfl⟩)

/-- Of a name, a zero with 4301 digits and a semicolon, the zero is refused. The cursor is then
in front of the semicolon, which is read next. -/
theorem refused_at_overlong_zero :
    let zeros := List.replicate 4301 '0'
    let text := 'x' :: ' ' :: (zeros ++ [';'])
    let c := Cursor.atOffset text.toArray 1
    let reply := (Session.ofText (.ofList text)).reply .tokenize
    c.IsConsistent ∧ OverlongAhead (c.source.toList.drop c.position) [' '] zeros [';'] ∧
      c.pull.outcome = .error (.tooLongToRead 4301) ∧ c.pull.cursor.position = 4303 ∧
      c.pull.cursor.pull.outcome = .ok ⟨.semicolon, .absent, ";"⟩ ∧
      IsFirstOverlongRun text ['x', ' '] zeros [';'] ∧
      reply.answer = .refused (.tooLongToRead 4301) ∧ reply.session.cursor.position = 4303 := by
  intro zeros
  have hlen : zeros.length = 4301 := List.length_replicate
  have hdigits : ∀ d ∈ zeros, d.isDigit = true := fun d hd => by
    rw [List.eq_of_mem_replicate hd]
    rfl
  clear_value zeros
  intro text c reply
  obtain ⟨hcursor, htext⟩ := refused_at_overlong
  have hlong : Numeral.maxDigits < zeros.length := by
    rw [hlen]
    decide
  have hstop : ∀ d ∈ [';'].head?, d.isDigit = false := by simp
  have hc : c.IsConsistent := Cursor.isConsistent_atOffset _ _
  have hahead : OverlongAhead (c.source.toList.drop c.position) [' '] zeros [';'] :=
    ⟨rfl, by simp [isBlank_iff, blanks], hdigits, hlong, hstop⟩
  have hfirst : IsFirstOverlongRun text ['x', ' '] zeros [';'] :=
    ⟨⟨⟨rfl, List.ne_nil_of_length_pos (by omega), hdigits, by simp, hstop⟩, hlong⟩,
      .of_length_le (by decide)⟩
  have hrefuses := (hcursor c hc).2 _ _ _ hahead
  obtain ⟨-, -, hreply⟩ := htext (.ofList text)
  rw [String.toList_ofList] at hreply
  obtain ⟨hanswer, hdrained⟩ := hreply _ _ _ hfirst
  rw [hlen] at hanswer hdrained
  refine ⟨hc, hahead, ?_, ?_, ?_, hfirst, hanswer, ?_⟩
  · rw [hrefuses.outcome_eq, hlen]
  · rw [hrefuses.position_eq, hlen]
    rfl
  · have hnext := hrefuses.resumes 0
    rw [Cursor.nthPull_zero, Cursor.nthPull_zero] at hnext
    rw [hnext]
    decide +kernel
  · exact congrArg Cursor.position hdrained

end TokenStream
