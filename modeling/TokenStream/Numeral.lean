/-!
# Decimal numerals

Numbers are read from and written as base-ten digits. Both directions have a
limit of 4300 digits, leading zeros included: a longer numeral is refused
rather than converted.
-/

namespace TokenStream.Numeral

/-- The largest number of digits that is converted. -/
def maxDigits : Nat := 4300

/-- A conversion that was refused. -/
inductive Error where
  /-- A numeral of this many digits was to be read. -/
  | tooLongToRead (digits : Nat)
  /-- A number was to be written that has too many digits. -/
  | tooLongToWrite
deriving DecidableEq, Repr

def Error.message : Error → String
  | tooLongToRead digits =>
    "Exceeds the limit (4300 digits) for integer string conversion: value has " ++
      toString digits ++ " digits; use sys.set_int_max_str_digits() to increase the limit"
  | tooLongToWrite =>
    "Exceeds the limit (4300 digits) for integer string conversion; " ++
      "use sys.set_int_max_str_digits() to increase the limit"

/-- The number that a run of digits denotes. -/
def value (digits : List Char) : Nat := Nat.ofDigitChars 10 digits 0

/-- Reads a run of digits. -/
def read (digits : List Char) : Except Error Nat :=
  if maxDigits < digits.length then .error (.tooLongToRead digits.length)
  else .ok (value digits)

/-- The digits of an integer, behind a minus sign if it is negative. -/
def decimal : Int → List Char
  | .ofNat n => Nat.toDigits 10 n
  | .negSucc n => '-' :: Nat.toDigits 10 (n + 1)

/-- Has the integer few enough digits to be written? -/
def isWritable (i : Int) : Bool := i.natAbs < Nat.pow 10 maxDigits

theorem value_toDigits (n : Nat) : value (Nat.toDigits 10 n) = n :=
  Nat.ofDigitChars_toDigits (by decide) (by decide)

end TokenStream.Numeral
