import TokenStream.Decimal.Shortest
import TokenStream.Numeral

/-!
# Layouts of decimals

How a number is written once its digits are chosen: with a point among the
digits, or with an exponent if the point lies too far out.
-/

namespace TokenStream

/-- The decisions of a format for numbers. The place of the point is counted
from before the first digit. -/
structure Layout where
  /-- The point is written if its place is above this one ... -/
  above : Int
  /-- ... and at most this one. -/
  upTo : Int
  /-- The least number of digits of an exponent. -/
  exponentDigits : Nat
  /-- What follows the digits of a number without fraction. -/
  wholeSuffix : List Char
  infinity : List Char
  nan : List Char

namespace Layout

/-- The digits with their point before the given place. -/
def positional (l : Layout) (digits : List Char) (point : Int) : List Char :=
  if point ≤ 0 then '0' :: '.' :: (List.replicate (-point).toNat '0' ++ digits)
  else if digits.length ≤ point then
    digits ++ List.replicate (point.toNat - digits.length) '0' ++ l.wholeSuffix
  else digits.take point.toNat ++ '.' :: digits.drop point.toNat

/-- The digits with a point behind the first one, and an exponent. -/
def scientific (l : Layout) (digits : List Char) (point : Int) : List Char :=
  let exponent := point - 1
  let places := (Nat.toDigits 10 exponent.natAbs).leftpad l.exponentDigits '0'
  digits.take 1 ++ (if digits.length ≤ 1 then [] else '.' :: digits.drop 1) ++
    'e' :: (if exponent < 0 then '-' else '+') :: places

/-- Writes a number with the shortest digits that stand for it. -/
def write (l : Layout) : Binary64 → List Char
  | .nan => l.nan
  | .infinite negative => (if negative then ['-'] else []) ++ l.infinity
  | .finite negative significand exponent =>
    let d := if significand = 0 then ⟨0, 0⟩ else Shortest.decimal significand exponent
    let digits := Nat.toDigits 10 d.digits
    let point := digits.length + d.scale
    (if negative then ['-'] else []) ++
      if l.above < point ∧ point ≤ l.upTo then l.positional digits point
      else l.scientific digits point

end Layout

end TokenStream
