import TokenStream.Proofs.Tiling

/-!
# When numerals are data

A numeral is data when reading makes one token of it, whatever its value: a
number, or an illegal token if the value is too large. All numerals of a text are
data exactly when none of them has too many digits to be converted; otherwise the
first one that has refuses the whole text. Main statement:
`numeralsAreData_iff_numeralsFit`.
-/

namespace TokenStream

/-- One extent is the place of a run of digits, with the token that the run calls
for, whatever its value. All others lie before it or behind it. -/
def MarksRun (es : List Extent) (before run : List Char) : Prop :=
  ∃ es₁ e es₂, es = es₁ ++ e :: es₂ ∧
    e = ⟨before.length, before.length + run.length, .ofDigits run⟩ ∧
    (∀ f ∈ es₁, f.stop ≤ e.start) ∧ ∀ f ∈ es₂, e.stop ≤ f.start

/-- Nothing is refused, and every maximal run of digits gives one token. -/
def NumeralsAreData (text : String) : Prop :=
  ∃ es, extents text = .ok (es ++ [⟨text.length, text.length, .eof⟩]) ∧
    tokenize text = .ok (es.map Extent.token ++ [.eof]) ∧
    (∀ e ∈ es, e.token.kind ≠ .eof) ∧
    ∀ before run behind, IsRun Char.isDigit text.toList before run behind →
      MarksRun es before run

theorem partExtents_append (start : Nat) (ps qs : List Part) :
    partExtents start (ps ++ qs) =
      partExtents start ps ++ partExtents (start + (ps.flatMap Part.text).length) qs := by
  induction ps generalizing start with
  | nil => rfl
  | cons p ps ih =>
    rw [List.cons_append, partExtents, partExtents, ih, List.flatMap_cons, List.length_append,
      Nat.add_assoc, List.cons_append]

namespace Decomposition

/-- Among the extents of a decomposition is one for each maximal run of digits. -/
theorem marksRun_extents {d : Decomposition} (hd : d.IsMunched) {before run behind : List Char}
    (hr : IsRun Char.isDigit d.text before run behind) : MarksRun (d.extents 0) before run := by
  obtain ⟨ps, p, qs, hparts, hraw, hbefore⟩ := hd.exists_part_of_isRun hr
  have htoken : p.token = .ofDigits run := by
    have hp := hd.lexemes p (by simp [hparts])
    rw [hp.eq_ofLexeme, hraw, Token.ofLexeme_of_digits hr.ne_nil hr.all]
  have hstart : 0 + d.lead.length + (ps.flatMap Part.text).length = before.length := by
    rw [hbefore, List.length_append, Nat.zero_add]
  have hes : d.extents 0 =
      partExtents (0 + d.lead.length) ps ++
        ⟨before.length, before.length + run.length, .ofDigits run⟩ ::
          partExtents (before.length + p.text.length) qs := by
    rw [extents, hparts, partExtents_append, partExtents, hstart, htoken, hraw]
  have hordered := pairwise_extents 0 d
  rw [hes] at hordered
  obtain ⟨-, hbehind, hbefore⟩ := List.pairwise_append.1 hordered
  exact ⟨_, _, _, hes, rfl, fun f hf => hbefore f hf _ (.head _), (List.pairwise_cons.1 hbehind).1⟩

theorem numeralsFit_of_overlong? {d : Decomposition} (hd : d.IsMunched) (h : d.overlong? = none) :
    NumeralsFit d.text := by
  intro before run behind hr
  obtain ⟨ps, p, qs, hparts, rfl, -⟩ := hd.exists_part_of_isRun hr
  have hshort := List.find?_eq_none.1 h p (by simp [hparts])
  simpa [isOverlong, List.all_eq_true.2 hr.all] using hshort

/-- The first lexeme that is too long is a run of digits, and the numerals in
front of it fit. -/
theorem isRun_of_overlong {d : Decomposition} (hd : d.IsMunched) {p : Part}
    (hp : d.overlong? = some p) :
    ∃ before behind, IsRun Char.isDigit d.text before p.raw behind ∧ NumeralsFit before ∧
      Numeral.maxDigits < p.raw.length := by
  obtain ⟨hlong, ps, qs, hparts, hfirst⟩ := List.find?_eq_some_iff_append.1 hp
  rw [isOverlong, Bool.and_eq_true, List.all_eq_true, decide_eq_true_eq] at hlong
  obtain ⟨lead, parts⟩ := d
  obtain rfl : parts = ps ++ p :: qs := hparts
  have hfront : (⟨lead, ps⟩ : Decomposition).overlong? = none :=
    List.find?_eq_none.2 fun q hq => by simpa using hfirst q hq
  exact ⟨_, _, hd.isRun_of_part hlong.1, numeralsFit_of_overlong? hd.front hfront, hlong.2⟩

/-- A run that is too long is the lexeme of the first such part when the numerals
in front of it fit. -/
theorem overlong?_of_isRun {d : Decomposition} (hd : d.IsMunched) {before run behind : List Char}
    (hr : IsRun Char.isDigit d.text before run behind) (hfit : NumeralsFit before)
    (hl : Numeral.maxDigits < run.length) : ∃ p, d.overlong? = some p ∧ p.raw = run := by
  obtain ⟨ps, p, qs, hparts, hraw, rfl⟩ := hd.exists_part_of_isRun hr
  have hfront : (⟨d.lead, ps⟩ : Decomposition).overlong? = none := overlong?_eq_none hfit
  have hp : isOverlong p.raw = true := by
    simpa [isOverlong, hraw, hl] using hr.all
  refine ⟨p, ?_, hraw⟩
  rw [overlong?] at hfront ⊢
  rw [hparts, List.find?_append, hfront, Option.none_or]
  exact List.find?_cons_of_pos hp

end Decomposition

/-- A text is refused at the first numeral that is too long, and for no other
reason. -/
theorem extents_eq_error_iff {text : String} {error : Numeral.Error} :
    extents text = .error error ↔
      ∃ before run behind, IsRun Char.isDigit text.toList before run behind ∧
        NumeralsFit before ∧ Numeral.maxDigits < run.length ∧
        error = .tooLongToRead run.length := by
  obtain ⟨d, hd, ht⟩ := Decomposition.exists_isMunched text.toList
  rw [extents_of_isMunched hd ht, ← ht]
  constructor
  · intro h
    cases ho : d.overlong? with
    | none => simp [ho] at h
    | some p =>
      obtain ⟨before, behind, hr, hfit, hl⟩ := Decomposition.isRun_of_overlong hd ho
      refine ⟨before, p.raw, behind, hr, hfit, hl, ?_⟩
      simpa [ho] using h.symm
  · rintro ⟨before, run, behind, hr, hfit, hl, rfl⟩
    obtain ⟨p, ho, rfl⟩ := Decomposition.overlong?_of_isRun hd hr hfit hl
    rw [ho]

/-- A text is refused only for a run of digits that is too long. -/
theorem exists_extents_iff {text : List Char} :
    (∃ es, extents (.ofList text) = .ok es) ↔ NumeralsFit text := by
  constructor
  · rintro ⟨es, hes⟩
    obtain ⟨d, hd, ht, hnone, -⟩ := exists_isMunched_of_extents hes
    rw [String.toList_ofList] at ht
    exact ht ▸ Decomposition.numeralsFit_of_overlong? hd hnone
  · intro h
    obtain ⟨d, hd, ht⟩ := Decomposition.exists_isMunched (String.ofList text).toList
    exact ⟨_, extents_of_numeralsFit (String.toList_ofList.symm ▸ h) hd ht⟩

theorem tokenize_eq_error_iff {text : String} {error : Numeral.Error} :
    tokenize text = .error error ↔ extents text = .error error := by
  rw [tokenize_eq_map_extents]
  cases extents text <;> simp [Except.map]

theorem NumeralsAreData.numeralsFit {text : String} (h : NumeralsAreData text) :
    NumeralsFit text.toList := by
  obtain ⟨es, hes, -⟩ := h
  obtain ⟨d, hd, ht⟩ := Decomposition.exists_isMunched text.toList
  rw [extents_of_isMunched hd ht] at hes
  cases ho : d.overlong? with
  | none => exact ht ▸ Decomposition.numeralsFit_of_overlong? hd ho
  | some p => simp [ho] at hes

theorem NumeralsFit.numeralsAreData {text : String} (h : NumeralsFit text.toList) :
    NumeralsAreData text := by
  obtain ⟨d, hd, ht⟩ := Decomposition.exists_isMunched text.toList
  have hes := extents_of_isMunched hd ht
  rw [Decomposition.overlong?_eq_none (ht ▸ h)] at hes
  refine ⟨d.extents 0, hes, ?_, ?_, ?_⟩
  · rw [tokenize_eq_map_extents, hes]
    simp only [Except.map, List.map_append, List.map_singleton]
  · exact fun e he => ((Decomposition.tiles_extents hd).marks e he).kind_ne_eof
  · intro before run behind hr
    exact Decomposition.marksRun_extents hd (ht ▸ hr)

/-- The numerals of a text are data exactly when none of them is too long to be
converted. A text is refused exactly when one is, at the first of them. -/
theorem numeralsAreData_iff_numeralsFit (text : String) :
    (NumeralsAreData text ↔ NumeralsFit text.toList) ∧
      ∀ error, tokenize text = .error error ↔
        ∃ before run behind, IsRun Char.isDigit text.toList before run behind ∧
          NumeralsFit before ∧ Numeral.maxDigits < run.length ∧
          error = .tooLongToRead run.length :=
  ⟨⟨NumeralsAreData.numeralsFit, NumeralsFit.numeralsAreData⟩, fun _ =>
    tokenize_eq_error_iff.trans extents_eq_error_iff⟩

/-- A text that is one numeral that is too long is refused. -/
theorem extents_of_overlong {ds : List Char} (hd : ∀ c ∈ ds, c.isDigit = true)
    (hl : Numeral.maxDigits < ds.length) :
    extents (.ofList ds) = .error (.tooLongToRead ds.length) := by
  have hne : ds ≠ [] := List.ne_nil_of_length_pos (Nat.zero_lt_of_lt hl)
  have hr : IsRun Char.isDigit (String.ofList ds).toList [] ds [] :=
    ⟨by simp, hne, hd, by simp, by simp⟩
  exact extents_eq_error_iff.2 ⟨[], ds, [], hr, .of_length_le (Nat.zero_le _), hl, rfl⟩

/-- Leading zeros leave the value of a numeral alone. -/
theorem value_zeros (n : Nat) (ds : List Char) :
    Numeral.value (List.replicate n '0' ++ ds) = Numeral.value ds := by
  induction n with
  | zero => rfl
  | succ n ih =>
    rw [List.replicate_succ, List.cons_append, Numeral.value, Nat.ofDigitChars_cons, ← ih]
    rfl

/-- The number seven behind 4300 zeros fits, but its numeral is refused. -/
theorem not_numeralsAreData_of_zeros :
    let ds := List.replicate 4300 '0' ++ ['7']
    Numeral.value ds ≤ maxInt ∧ tokenize (.ofList ds) = .error (.tooLongToRead 4301) ∧
      ¬ NumeralsAreData (.ofList ds) := by
  intro ds
  have hd : ∀ c ∈ ds, c.isDigit = true := by
    intro c hc
    rcases List.mem_append.1 hc with hc | hc
    · rw [List.eq_of_mem_replicate hc]
      rfl
    · rw [List.mem_singleton.1 hc]
      rfl
  have hlen : ds.length = 4301 := by
    rw [List.length_append, List.length_replicate]
    rfl
  have hes := extents_of_overlong hd (by rw [hlen]; decide)
  rw [hlen] at hes
  refine ⟨?_, tokenize_eq_error_iff.2 hes, ?_⟩
  · rw [value_zeros]
    decide
  · rintro ⟨es, hok, -⟩
    rw [hes] at hok
    cases hok

end TokenStream
