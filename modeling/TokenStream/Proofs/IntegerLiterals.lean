import Mathlib.Data.List.Lex
import Mathlib.Data.Nat.Digits.Defs
import TokenStream.Proofs.JsonReader
import TokenStream.Proofs.MaximalMunch
import TokenStream.Proofs.NumeralData

/-!
# Integer literals

Numerals without needless zeros in front are in the order of their lengths, those of one
length in that of their digits. So no two of them have the same value, and each is what its
value is written as. A text of digits is therefore read as a number exactly when what is left
of it without the zeros in front comes no later in this order than the largest value.
Main statements: `Numeral.IsReduced.value_le_value_iff`, `Numeral.IsReduced.toDigits_value`
and `tokenize_digits`.
-/

namespace TokenStream

namespace Numeral

/-- The number of a digit. -/
def digit (c : Char) : Nat := c.toNat - '0'.toNat

theorem digit_lt {c : Char} (h : c.isDigit = true) : digit c < 10 := by
  have := toNat_of_isDigit h
  show c.toNat - 48 < 10
  omega

theorem digit_pos {c : Char} (h : c.isDigit = true) (hne : c ≠ '0') : 0 < digit c := by
  have := toNat_of_isDigit h
  have : c.toNat ≠ '0'.toNat := fun he => hne (Char.toNat_inj.1 he)
  show 0 < c.toNat - 48
  change c.toNat ≠ 48 at this
  omega

/-- Digits are in the order of their numbers. -/
theorem digit_lt_digit_iff {c d : Char} (hc : c.isDigit = true) (hd : d.isDigit = true) :
    digit c < digit d ↔ c < d := by
  have := toNat_of_isDigit hc
  have := toNat_of_isDigit hd
  show c.toNat - 48 < d.toNat - 48 ↔ c.toNat < d.toNat
  omega

theorem eq_of_digit_eq {c d : Char} (hc : c.isDigit = true) (hd : d.isDigit = true)
    (h : digit c = digit d) : c = d := by
  have := toNat_of_isDigit hc
  have := toNat_of_isDigit hd
  change c.toNat - 48 = d.toNat - 48 at h
  exact Char.toNat_inj.1 (by omega)

/-! ## The value of a run of digits -/

theorem value_cons (c : Char) (cs : List Char) :
    value (c :: cs) = digit c * 10 ^ cs.length + value cs := by
  rw [value, Nat.ofDigitChars_cons, Nat.ofDigitChars_eq_ofDigitChars_zero, Nat.mul_zero,
    Nat.zero_add, Nat.mul_comm]
  rfl

/-- The value of a run of digits is the sum of its digits, each with its power of ten. -/
theorem value_eq_ofDigits (ds : List Char) : value ds = Nat.ofDigits 10 (ds.map digit).reverse := by
  induction ds with
  | nil => rfl
  | cons c cs ih =>
    rw [value_cons, ih, List.map_cons, Nat.ofDigits_reverse_cons, List.length_map]
    ring

variable {ds a b : List Char}

theorem value_lt_pow (h : ∀ c ∈ ds, c.isDigit = true) : value ds < 10 ^ ds.length := by
  induction ds with
  | nil => exact Nat.one_pos
  | cons c cs ih =>
    obtain ⟨hc, hcs⟩ := List.forall_mem_cons.1 h
    have hdigit := digit_lt hc
    have hle : digit c * 10 ^ cs.length ≤ 9 * 10 ^ cs.length := Nat.mul_le_mul_right _ (by omega)
    have hlt := ih hcs
    rw [value_cons, List.length_cons, Nat.pow_succ]
    omega

/-- A first digit decides before all those behind it. -/
theorem add_lt_add_iff_lex {m n x y p : Nat} (hx : x < p) (hy : y < p) :
    m * p + x < n * p + y ↔ m < n ∨ m = n ∧ x < y := by
  rcases Nat.lt_trichotomy m n with hlt | rfl | hgt
  · have : (m + 1) * p ≤ n * p := Nat.mul_le_mul_right p hlt
    rw [Nat.succ_mul] at this
    omega
  · omega
  · have : (n + 1) * p ≤ m * p := Nat.mul_le_mul_right p hgt
    rw [Nat.succ_mul] at this
    omega

/-- Runs of one length are in the order of their digits: by induction on the digits, of which the
first that differ decide. -/
theorem value_lt_value_of_length_eq (ha : ∀ c ∈ a, c.isDigit = true)
    (hb : ∀ c ∈ b, c.isDigit = true) (hlen : a.length = b.length) :
    value a < value b ↔ a < b := by
  induction a generalizing b with
  | nil =>
    obtain rfl : b = [] := List.eq_nil_of_length_eq_zero hlen.symm
    simp
  | cons c a ih =>
    obtain ⟨d, b, rfl⟩ := List.exists_cons_of_length_eq_add_one hlen.symm
    obtain ⟨hc, ha⟩ := List.forall_mem_cons.1 ha
    obtain ⟨hd, hb⟩ := List.forall_mem_cons.1 hb
    rw [List.length_cons, List.length_cons, Nat.add_right_cancel_iff] at hlen
    -- the first digits decide unless they are equal, and then the rest does
    have heq : digit c = digit d ↔ c = d := ⟨eq_of_digit_eq hc hd, congrArg digit⟩
    rw [value_cons, value_cons, ← hlen, add_lt_add_iff_lex (value_lt_pow ha)
      (hlen ▸ value_lt_pow hb), List.cons_lt_cons_iff, ← ih ha hb hlen, ← digit_lt_digit_iff hc hd,
      heq]

/-! ## Numerals without needless zeros -/

/-- A numeral that has no zeros in front, unless it is zero. -/
structure IsReduced (ds : List Char) : Prop where
  ne_nil : ds ≠ []
  digits : ∀ c ∈ ds, c.isDigit = true
  no_zero : ds.head? = some '0' → ds = ['0']

theorem isReduced_toDigits (n : Nat) : IsReduced (Nat.toDigits 10 n) where
  ne_nil := Nat.toDigits_ne_nil
  digits := Json.isDigit_of_mem_toDigits
  no_zero h := by
    obtain ⟨ds, hds⟩ := List.head?_eq_some_iff.1 h
    rw [hds, Json.eq_nil_of_toDigits hds]

namespace IsReduced

/-- More than one digit, the first of which is no zero, is at least the power of ten of its
length. -/
theorem pow_le_value (h : IsReduced ds) (hlen : 1 < ds.length) :
    10 ^ (ds.length - 1) ≤ value ds := by
  obtain ⟨c, cs, rfl⟩ := List.exists_cons_of_ne_nil h.ne_nil
  have hne : c ≠ '0' := by
    rintro rfl
    rw [h.no_zero rfl] at hlen
    exact absurd hlen (by decide)
  have hpos := digit_pos (h.digits c (.head _)) hne
  rw [value_cons]
  exact Nat.le_add_right_of_le (Nat.le_mul_of_pos_left _ hpos)

theorem value_lt_of_length_lt (ha : IsReduced a) (hb : IsReduced b)
    (hlen : a.length < b.length) : value a < value b := by
  have hpos := List.length_pos_iff.2 ha.ne_nil
  calc value a < 10 ^ a.length := value_lt_pow ha.digits
    _ ≤ 10 ^ (b.length - 1) := Nat.pow_le_pow_right (by decide) (by omega)
    _ ≤ value b := hb.pow_le_value (by omega)

/-- Reduced numerals are in the order of their lengths, those of one length in that of their
digits. -/
theorem value_lt_value_iff (ha : IsReduced a) (hb : IsReduced b) :
    value a < value b ↔ a.length < b.length ∨ a.length = b.length ∧ a < b := by
  rcases Nat.lt_trichotomy a.length b.length with hlt | heq | hgt
  · simp [ha.value_lt_of_length_lt hb hlt, hlt]
  · simp [value_lt_value_of_length_eq ha.digits hb.digits heq, heq]
  · have hvalue := hb.value_lt_of_length_lt ha hgt
    simp [hvalue.not_gt, hgt.not_gt, hgt.ne']

theorem value_le_value_iff (ha : IsReduced a) (hb : IsReduced b) :
    value a ≤ value b ↔ a.length < b.length ∨ a.length = b.length ∧ ¬ b < a := by
  rw [← Nat.not_lt, hb.value_lt_value_iff ha]
  by_cases hlt : b < a
  · simp only [hlt, and_true, not_true, and_false, or_false]
    omega
  · simp only [hlt, and_false, or_false, not_false_iff, and_true]
    omega

/-- No two reduced numerals have the same value. -/
theorem eq_of_value_eq (ha : IsReduced a) (hb : IsReduced b) (h : value a = value b) : a = b := by
  rcases Nat.lt_trichotomy a.length b.length with hlt | heq | hgt
  · exact absurd h (ha.value_lt_of_length_lt hb hlt).ne
  · have hab : ¬ a < b := fun hlt =>
      ((value_lt_value_of_length_eq ha.digits hb.digits heq).2 hlt).ne h
    have hba : ¬ b < a := fun hlt =>
      ((value_lt_value_of_length_eq hb.digits ha.digits heq.symm).2 hlt).ne' h
    exact List.le_antisymm hba hab
  · exact absurd h (hb.value_lt_of_length_lt ha hgt).ne'

/-- A reduced numeral is what its value is written as. -/
theorem toDigits_value (h : IsReduced ds) : Nat.toDigits 10 (value ds) = ds :=
  (isReduced_toDigits _).eq_of_value_eq h (value_toDigits _)

end IsReduced

/-- A run of digits without the zeros in front, of which one stays if nothing else is left. -/
def significant (ds : List Char) : List Char :=
  match ds.dropWhile (· == '0') with
  | [] => ['0']
  | c :: cs => c :: cs

theorem exists_zeros_append (ds : List Char) :
    ∃ k, ds = List.replicate k '0' ++ ds.dropWhile (· == '0') := by
  refine ⟨(ds.takeWhile (· == '0')).length, ?_⟩
  have hzeros : ds.takeWhile (· == '0') = List.replicate (ds.takeWhile (· == '0')).length '0' :=
    List.eq_replicate_iff.2 ⟨rfl, fun c hc => by simpa using List.mem_takeWhile_imp hc⟩
  rw [← hzeros, List.takeWhile_append_dropWhile]

theorem value_significant (ds : List Char) : value (significant ds) = value ds := by
  obtain ⟨k, hk⟩ := exists_zeros_append ds
  have hdrop : value ds = value (ds.dropWhile (· == '0')) := by
    rw [hk, value_zeros, ← hk]
  rw [hdrop, significant]
  split <;> rename_i h <;> rw [h]
  rfl

theorem isReduced_significant (h : ∀ c ∈ ds, c.isDigit = true) : IsReduced (significant ds) := by
  rw [significant]
  split
  · exact ⟨by simp, by simp, fun _ => rfl⟩
  · rename_i c cs hdrop
    have hmem : ∀ x ∈ c :: cs, x ∈ ds := fun x hx =>
      (List.dropWhile_suffix _).subset (hdrop ▸ hx)
    refine ⟨by simp, fun x hx => h x (hmem x hx), fun hc => ?_⟩
    have := List.head?_dropWhile_not (· == '0') ds
    rw [hdrop] at this
    simp_all

theorem isDigit_of_mem_zeros {k n : Nat} :
    ∀ c ∈ List.replicate k '0' ++ Nat.toDigits 10 n, c.isDigit = true := by
  intro c hc
  rcases List.mem_append.1 hc with hc | hc
  · rw [List.eq_of_mem_replicate hc]
    rfl
  · exact Json.isDigit_of_mem_toDigits c hc

/-! ## The largest value -/

/-- Does a reduced numeral come no later than that of the largest value? -/
def IsInRange (s : List Char) : Prop :=
  s.length < 19 ∨ s.length = 19 ∧ String.ofList s ≤ "9223372036854775807"

instance (s : List Char) : Decidable (IsInRange s) :=
  inferInstanceAs (Decidable (s.length < 19 ∨ s.length = 19 ∧ _))

theorem toDigits_maxInt : Nat.toDigits 10 maxInt = "9223372036854775807".toList := by
  decide +kernel

theorem IsReduced.value_le_maxInt_iff (h : IsReduced ds) : value ds ≤ maxInt ↔ IsInRange ds := by
  have hle : String.ofList ds ≤ "9223372036854775807" ↔
      ¬ "9223372036854775807".toList < (String.ofList ds).toList := Iff.rfl
  rw [← value_toDigits maxInt, h.value_le_value_iff (isReduced_toDigits _), toDigits_maxInt,
    IsInRange, hle, @String.toList_ofList ds]
  rfl

end Numeral

/-! ## A text that is a numeral -/

/-- A text of digits that can be converted is read as one token. -/
theorem tokenize_ofList_digits {ds : List Char} (hne : ds ≠ [])
    (hd : ∀ c ∈ ds, c.isDigit = true) (hlen : ds.length ≤ Numeral.maxDigits) :
    tokenize (.ofList ds) = .ok [.ofDigits ds, .eof] := by
  have hmunched : Decomposition.IsMunched ⟨[], [⟨.ofLexeme ds, []⟩]⟩ :=
    Decomposition.IsMunched.cons ⟨by simp, by simp, by simp, .nil⟩ (by simp) (.digits hne hd)
      (by simp [Decomposition.text])
  have htext : Decomposition.text ⟨[], [⟨.ofLexeme ds, []⟩]⟩ = (String.ofList ds).toList := by
    simp [Decomposition.text, Part.text, Part.raw, Token.raw_ofLexeme]
  have hfit : NumeralsFit (String.ofList ds).toList := .of_length_le (by simpa using hlen)
  rw [tokenize_of_isMunched hmunched htext (Decomposition.overlong?_eq_none (htext ▸ hfit)),
    ← Token.ofLexeme_of_digits hne hd]
  rfl

/-- A text of digits is one token, whose raw text it is: a number if its digits without the zeros
in front are in range, which is then what they denote and is written as they are, and otherwise
an illegal token. So every number in range is read back from its digits, however many zeros
stand in front of them. -/
theorem tokenize_digits :
    (∀ ds : List Char, ds ≠ [] → (∀ c ∈ ds, c.isDigit = true) → ds.length ≤ Numeral.maxDigits →
      (Numeral.IsInRange (Numeral.significant ds) →
        ∃ v : Int, tokenize (.ofList ds) = .ok [⟨.int, .number v, .ofList ds⟩, .eof] ∧
          v = Nat.ofDigits 10 (ds.map Numeral.digit).reverse ∧ 0 ≤ v ∧ v ≤ 2 ^ 63 - 1 ∧
          Numeral.decimal v = Numeral.significant ds) ∧
      (¬ Numeral.IsInRange (Numeral.significant ds) →
        tokenize (.ofList ds) = .ok [⟨.illegal, .absent, .ofList ds⟩, .eof])) ∧
    ∀ (n : Int) (k : Nat), 0 ≤ n → n ≤ 2 ^ 63 - 1 →
      let ds := List.replicate k '0' ++ Numeral.decimal n
      ds.length ≤ Numeral.maxDigits →
      tokenize (.ofList ds) = .ok [⟨.int, .number n, .ofList ds⟩, .eof] := by
  refine ⟨fun ds hne hd hlen => ?_, fun n k hn hle => ?_⟩
  · have hreduced := Numeral.isReduced_significant hd
    have hrange : Numeral.IsInRange (Numeral.significant ds) ↔ Numeral.value ds ≤ maxInt := by
      rw [← hreduced.value_le_maxInt_iff, Numeral.value_significant]
    rw [tokenize_ofList_digits hne hd hlen, Token.ofDigits, hrange]
    refine ⟨fun hv => ⟨Numeral.value ds, ?_, ?_, ?_, ?_, ?_⟩, fun hv => ?_⟩
    · rw [if_neg (by omega)]
    · rw [Numeral.value_eq_ofDigits, Nat.coe_ofDigits, Nat.cast_ofNat]
    · exact Int.natCast_nonneg _
    · exact Int.ofNat_le.2 hv
    · show Nat.toDigits 10 (Numeral.value ds) = Numeral.significant ds
      rw [← Numeral.value_significant, hreduced.toDigits_value]
    · rw [if_pos (by omega)]
  · obtain ⟨n, rfl⟩ := Int.eq_ofNat_of_zero_le hn
    intro ds hlen
    have hds : ds = List.replicate k '0' ++ Nat.toDigits 10 n := rfl
    have hvalue : Numeral.value ds = n := by rw [hds, value_zeros, Numeral.value_toDigits]
    have hmax : n ≤ maxInt := Int.ofNat_le.1 hle
    have hne : ds ≠ [] := by simp [hds, Nat.toDigits_ne_nil]
    rw [tokenize_ofList_digits hne Numeral.isDigit_of_mem_zeros hlen, Token.ofDigits, hvalue,
      if_neg (by omega)]

/-- Between the largest value and the next number the reading changes, zeros in front or not. -/
theorem tokenize_digits_largest :
    (∃ v : Int, tokenize "009223372036854775807" =
        .ok [⟨.int, .number v, "009223372036854775807"⟩, .eof] ∧
      Numeral.decimal v = "9223372036854775807".toList) ∧
    tokenize "9223372036854775808" = .ok [⟨.illegal, .absent, "9223372036854775808"⟩, .eof] ∧
    tokenize "009223372036854775807" =
      .ok [⟨.int, .number 9223372036854775807, "009223372036854775807"⟩, .eof] := by
  obtain ⟨hread, hwritten⟩ := tokenize_digits
  refine ⟨?_, ?_, ?_⟩
  · obtain ⟨v, hv, -, -, -, hs⟩ := (hread "009223372036854775807".toList (by decide)
      (by simp) (by decide)).1 (by decide)
    exact ⟨v, hv, hs⟩
  · exact (hread "9223372036854775808".toList (by decide) (by simp) (by decide)).2 (by decide)
  · exact hwritten 9223372036854775807 2 (by decide) (by decide) (by decide +kernel)

end TokenStream
