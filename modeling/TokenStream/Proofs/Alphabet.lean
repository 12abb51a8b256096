import TokenStream.Text.CharClass
import TokenStream.Token

/-!
# The classes of characters exclude one another

A character is a blank, a letter, a digit, an operator, a symbol, or none of
these, and never two of them at once: `not_isBlank_of_isLetter`,
`not_isLetter_of_isDigit`, `not_isBlank_of_isDigit` for the three classes, and
`operators_apart`, `symbols_apart` for the two tables. Asked about a word of one
character, each class answers for the character (`isLetterWord_singleton`,
`isDigitWord_singleton`, `isBlankWord_iff`); of longer words, the pieces of the
row of digits are taken for digits (`isDigitWord_iff`).
-/

namespace TokenStream

/-- No letter comes before `A`. -/
theorem le_toNat_of_isLetter {c : Char} (h : isLetter c = true) : 0x41 ≤ c.toNat := by
  obtain ⟨r, hr, hle, -⟩ := (isLetter_iff c).1 h
  have hasc : Intervals.ascendsFrom 0x41 letterIntervals = true := by decide +kernel
  have := Intervals.le_of_ascendsFrom hasc r hr
  omega

theorem toNat_of_isDigit {c : Char} (h : c.isDigit = true) : 48 ≤ c.toNat ∧ c.toNat ≤ 57 := by
  simp only [Char.isDigit, Bool.and_eq_true, decide_eq_true_eq, ge_iff_le,
    UInt32.le_iff_toNat_le] at h
  exact h

theorem blanks_apart {c : Char} (h : c ∈ blanks) : isLetter c = false ∧ c.isDigit = false := by
  have hall : blanks.all (fun c => !isLetter c && !c.isDigit) = true := by decide +kernel
  simpa using List.all_eq_true.1 hall c h

theorem not_isLetter_of_isBlank {c : Char} (h : isBlank c = true) : isLetter c = false :=
  (blanks_apart (isBlank_iff.1 h)).1

theorem not_isDigit_of_isBlank {c : Char} (h : isBlank c = true) : c.isDigit = false :=
  (blanks_apart (isBlank_iff.1 h)).2

theorem not_isBlank_of_isLetter {c : Char} (h : isLetter c = true) : isBlank c = false :=
  Bool.eq_false_iff.2 fun hb => by simp [not_isLetter_of_isBlank hb] at h

theorem not_isBlank_of_isDigit {c : Char} (h : c.isDigit = true) : isBlank c = false :=
  Bool.eq_false_iff.2 fun hb => by simp [not_isDigit_of_isBlank hb] at h

theorem not_isLetter_of_isDigit {c : Char} (h : c.isDigit = true) : isLetter c = false :=
  Bool.eq_false_iff.2 fun hl => by
    have := le_toNat_of_isLetter hl
    have := (toNat_of_isDigit h).2
    omega

/-! ## Words -/

theorem isLetterWord_singleton (c : Char) :
    isLetterWord (.singleton c) = .ok (CharClass.ofChar c).letter := by
  simp only [isLetterWord, String.toList_singleton, CharClass.ofChar]

/-- A word is taken for digits when it is a piece of the row of all ten. -/
theorem isDigitWord_iff {word : String} :
    isDigitWord word = true ↔ word.toList <:+: "0123456789".toList := by
  simp only [isDigitWord, List.any_eq_true, List.mem_range, List.isPrefixOf_iff_prefix]
  constructor
  · rintro ⟨n, -, h⟩
    exact h.isInfix.trans (List.drop_suffix n _).isInfix
  · rintro ⟨front, back, h⟩
    refine ⟨front.length, ?_, ?_⟩
    · have hlen := congrArg List.length h
      have hten : "0123456789".toList.length = 10 := by decide
      rw [hten, List.length_append, List.length_append] at hlen
      omega
    · rw [← h, List.append_assoc, List.drop_left]
      exact List.prefix_append _ _

/-- Of the words of one character, the digits are taken for digits. -/
theorem isDigitWord_singleton (c : Char) :
    isDigitWord (.singleton c) = (CharClass.ofChar c).digit := by
  have hrow : ∀ n < 58, 48 ≤ n → Char.ofNat n ∈ "0123456789".toList := by decide
  have hall : "0123456789".toList.all Char.isDigit = true := by decide
  rw [Bool.eq_iff_iff, isDigitWord_iff, String.toList_singleton]
  constructor
  · intro h
    exact List.all_eq_true.1 hall c (h.subset (.head _))
  · intro h
    have hc := toNat_of_isDigit h
    obtain ⟨front, back, hsplit⟩ := List.append_of_mem (hrow c.toNat (by omega) hc.1)
    rw [Char.ofNat_toNat] at hsplit
    exact ⟨front, back, by rw [hsplit, List.append_assoc, List.singleton_append]⟩

theorem isBlankWord_iff {word : String} :
    isBlankWord word = true ↔ ∃ c, word = .singleton c ∧ (CharClass.ofChar c).blank = true := by
  rw [isBlankWord]
  constructor
  · intro h
    split at h
    · rename_i c hword
      exact ⟨c, String.toList_inj.1 (hword.trans (String.toList_singleton c).symm), h⟩
    · contradiction
  · rintro ⟨c, rfl, h⟩
    rw [String.toList_singleton]
    exact h

/-! ## Operators and symbols -/

namespace Kind

theorem operators_apart : ∀ e ∈ operators,
    isBlank e.1 = false ∧ isLetter e.1 = false ∧ e.1.isDigit = false ∧
      symbols.lookup e.1 = none := by
  decide +kernel

theorem symbols_apart : ∀ e ∈ symbols,
    isBlank e.1 = false ∧ isLetter e.1 = false ∧ e.1.isDigit = false ∧
      operators.lookup e.1 = none := by
  decide +kernel

end Kind

end TokenStream
