/-!
# Binary floating-point numbers

The 64-bit binary numbers, as exact values: a finite one is an integer of at
most 53 bits times a power of two. A decimal is rounded to the nearest of them,
and of two equally near ones to the one with the even significand.
-/

namespace TokenStream

inductive Binary64 where
  /-- The number `significand * 2 ^ exponent`, negated if `negative` holds. -/
  | finite (negative : Bool) (significand : Nat) (exponent : Int)
  | infinite (negative : Bool)
  | nan
deriving DecidableEq, Repr

namespace Binary64

/-- The nearest integer to a fraction; a half goes to the even neighbour. -/
def roundDiv (num den : Nat) : Nat :=
  let q := num / den
  let r := num % den
  if 2 * r < den then q
  else if den < 2 * r then q + 1
  else q + q % 2

/-- The least exponent of a finite number. -/
def minExponent : Int := -1074

/-- The greatest exponent of a finite number. -/
def maxExponent : Int := 971

/-- The positive number nearest to a positive fraction. -/
def ofFraction (negative : Bool) (num den : Nat) : Binary64 :=
  -- the exponent of the leading binary digit, or one more
  let lead : Int := num.log2 - den.log2
  let below :=
    if 0 ≤ lead then num < den <<< lead.toNat else num <<< (-lead).toNat < den
  let exponent := max minExponent ((if below then lead - 1 else lead) - 52)
  let significand :=
    if 0 ≤ exponent then roundDiv num (den <<< exponent.toNat)
    else roundDiv (num <<< (-exponent).toNat) den
  let (significand, exponent) :=
    if significand = 1 <<< 53 then (1 <<< 52, exponent + 1) else (significand, exponent)
  if maxExponent < exponent then infinite negative else finite negative significand exponent

/-- The number nearest to `n * 10 ^ scale`. Beyond the 310th place before the
point everything is infinite, and beyond the 330th behind it everything is zero. -/
def ofDecimal (negative : Bool) (n : Nat) (scale : Int) : Binary64 :=
  let places : Int := (Nat.toDigits 10 n).length + scale
  if n = 0 ∨ places < -330 then finite negative 0 minExponent
  else if 310 < places then infinite negative
  else if 0 ≤ scale then ofFraction negative (n * Nat.pow 10 scale.toNat) 1
  else ofFraction negative n (Nat.pow 10 (-scale).toNat)

end Binary64

end TokenStream
