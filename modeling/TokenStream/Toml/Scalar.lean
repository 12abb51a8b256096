import TokenStream.Toml.Text
import TokenStream.Toml.Value

/-!
# Numbers, dates and times in a TOML document

Each reader takes the longest item of its form at the start of a text, if there
is one. Digits are ASCII digits, and in numbers single underscores may stand
between them.
-/

namespace TokenStream.Toml

/-! ## Dates and times -/

/-- Exactly `count` digits as a number. -/
def digits? (count : Nat) (cs : List Char) : Option (Nat × List Char) :=
  let ds := cs.take count
  if ds.length = count ∧ ds.all Char.isDigit then some (Numeral.value ds, cs.drop count) else none

/-- Two digits whose number lies within the bounds. -/
def twoDigits? (low high : Nat) (cs : List Char) : Option (Nat × List Char) := do
  let (n, rest) ← digits? 2 cs
  if low ≤ n ∧ n ≤ high then some (n, rest) else none

/-- A single given character. -/
def char? (c : Char) (cs : List Char) : Option (List Char) :=
  match cs with
  | d :: rest => if d = c then some rest else none
  | [] => none

/-- The parts of a date, whether or not the month has that day. -/
def dateParts? (cs : List Char) : Option ((Nat × Nat × Nat) × List Char) := do
  let (year, cs) ← digits? 4 cs
  let (month, cs) ← twoDigits? 1 12 (← char? '-' cs)
  let (day, cs) ← twoDigits? 1 31 (← char? '-' cs)
  return ((year, month, day), cs)

/-- A fraction of a second in microseconds, of which only six digits count. -/
def fraction (cs : List Char) : Nat × List Char :=
  match cs with
  | '.' :: rest =>
    let ds := rest.takeWhile Char.isDigit
    if ds.isEmpty then (0, cs)
    else (Numeral.value ((ds.take 6).rightpad 6 '0'), rest.drop ds.length)
  | _ => (0, cs)

def time? (cs : List Char) : Option (Time × List Char) := do
  let (hour, cs) ← twoDigits? 0 23 cs
  let (minute, cs) ← twoDigits? 0 59 (← char? ':' cs)
  let (second, cs) ← twoDigits? 0 59 (← char? ':' cs)
  let (microsecond, cs) := fraction cs
  return (⟨hour, minute, second, microsecond⟩, cs)

/-- A numeric offset from universal time in minutes, behind its sign. -/
def offsetParts? (cs : List Char) : Option (Int × List Char) := do
  let (hours, cs) ← twoDigits? 0 23 cs
  let (minutes, cs) ← twoDigits? 0 59 (← char? ':' cs)
  return (60 * hours + minutes, cs)

/-- An offset from universal time, if one follows. -/
def offset (cs : List Char) : Option Int × List Char :=
  match cs with
  | 'Z' :: rest => (some 0, rest)
  | 'z' :: rest => (some 0, rest)
  | '+' :: rest =>
    match offsetParts? rest with
    | some (minutes, rest) => (some minutes, rest)
    | none => (none, cs)
  | '-' :: rest =>
    match offsetParts? rest with
    | some (minutes, rest) => (some (-minutes), rest)
    | none => (none, cs)
  | _ => (none, cs)

/-- A time of day behind a date. -/
def timeOfDate? (cs : List Char) : Option ((Time × Option Int) × List Char) :=
  match cs with
  | c :: rest =>
    if c = 'T' ∨ c = 't' ∨ c = ' ' then
      (time? rest).map fun (time, rest) =>
        let (offset?, rest) := offset rest
        ((time, offset?), rest)
    else none
  | [] => none

/-- A date, with a time of day if one follows. -/
def dateOrDateTime? (cs : List Char) : Option (Except Stop (Value × List Char)) :=
  (dateParts? cs).map fun ((year, month, day), rest) =>
    match Date.ofParts? year month day with
    | none => fault .invalidDate cs
    | some date =>
      match timeOfDate? rest with
      | none => .ok (.date date, rest)
      | some ((time, offset?), rest) => .ok (.dateTime ⟨date, time, offset?⟩, rest)

/-! ## Numbers -/

/-- The digits that follow a digit, without the underscores between them. -/
def moreDigits (isDigit : Char → Bool) : List Char → List Char × List Char
  | '_' :: c :: cs =>
    if isDigit c then
      let (ds, rest) := moreDigits isDigit cs
      (c :: ds, rest)
    else ([], '_' :: c :: cs)
  | c :: cs =>
    if isDigit c then
      let (ds, rest) := moreDigits isDigit cs
      (c :: ds, rest)
    else ([], c :: cs)
  | [] => ([], [])

/-- A run of at least one digit. -/
def someDigits? (isDigit : Char → Bool) (cs : List Char) : Option (List Char × List Char) :=
  match cs with
  | c :: cs =>
    if isDigit c then
      let (ds, rest) := moreDigits isDigit cs
      some (c :: ds, rest)
    else none
  | [] => none

/-- A number written in a base of its own: sixteen, two or eight. -/
def basedNumber? (cs : List Char) : Option (Value × List Char) :=
  let number (isDigit : Char → Bool) (base : Nat) (cs : List Char) : Option (Value × List Char) :=
    (someDigits? isDigit cs).map fun (ds, rest) =>
      (.integer (ds.foldl (fun n c => base * n + (hexValue? c).getD 0) 0 : Nat), rest)
  match cs with
  | '0' :: 'x' :: cs => number (fun c => (hexValue? c).isSome) 16 cs
  | '0' :: 'b' :: cs => number (fun c => c = '0' || c = '1') 2 cs
  | '0' :: 'o' :: cs => number (fun c => '0' ≤ c && c ≤ '7') 8 cs
  | _ => none

/-- The digits before the point: a zero alone, or digits that start with none. -/
def wholeDigits? (cs : List Char) : Option (List Char × List Char) :=
  match cs with
  | '0' :: rest => some (['0'], rest)
  | cs => someDigits? Char.isDigit cs

/-- The digits behind a point, if there are any. -/
def fractionDigits (cs : List Char) : List Char × List Char :=
  match cs with
  | '.' :: rest => (someDigits? Char.isDigit rest).getD ([], cs)
  | _ => ([], cs)

/-- A sign, if there is one. -/
def sign (cs : List Char) : Bool × List Char :=
  match cs with
  | '-' :: rest => (true, rest)
  | '+' :: rest => (false, rest)
  | _ => (false, cs)

/-- An exponent, if there is one. -/
def exponent? (cs : List Char) : Option (Int × List Char) :=
  match cs with
  | c :: rest =>
    if c = 'e' ∨ c = 'E' then
      let (negative, rest) := sign rest
      (someDigits? Char.isDigit rest).map fun (ds, rest) =>
        let n : Int := Numeral.value ds
        (if negative then -n else n, rest)
    else none
  | [] => none

/-- A decimal number, an integer unless it has a fraction or an exponent. -/
def decimalNumber? (cs : List Char) : Option (Except Stop (Value × List Char)) :=
  let (negative, cs) := sign cs
  (wholeDigits? cs).map fun (whole, rest) =>
    let (fraction, rest) := fractionDigits rest
    match fraction, exponent? rest with
    | [], none =>
      match Numeral.read whole with
      | .ok n => .ok (.integer (if negative then -(n : Int) else n), rest)
      | .error e => .error (.numeral e)
    | fraction, exponent =>
      let (scale, rest) := exponent.getD (0, rest)
      .ok (.float (.ofDecimal negative (Numeral.value (whole ++ fraction))
        (scale - fraction.length)), rest)

/-- An infinite number or no number, with or without a sign. -/
def specialNumber? (cs : List Char) : Option (Value × List Char) :=
  let (negative, cs) := sign cs
  match cs with
  | 'i' :: 'n' :: 'f' :: rest => some (.float (.infinite negative), rest)
  | 'n' :: 'a' :: 'n' :: rest => some (.float .nan, rest)
  | _ => none

def boolean? (cs : List Char) : Option (Value × List Char) :=
  match cs with
  | 't' :: 'r' :: 'u' :: 'e' :: rest => some (.boolean true, rest)
  | 'f' :: 'a' :: 'l' :: 's' :: 'e' :: rest => some (.boolean false, rest)
  | _ => none

/-- A value that is no text, array or table. -/
def scalar : Reader Value := fun cs =>
  match boolean? cs with
  | some r => .ok r
  | none =>
  match dateOrDateTime? cs with
  | some r => r
  | none =>
  match time? cs with
  | some (t, rest) => .ok (.time t, rest)
  | none =>
  match basedNumber? cs with
  | some r => .ok r
  | none =>
  match decimalNumber? cs with
  | some r => r
  | none =>
  match specialNumber? cs with
  | some r => .ok r
  | none => fault .invalidValue cs

end TokenStream.Toml
