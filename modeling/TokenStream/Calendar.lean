import TokenStream.Numeral

/-!
# Dates and times

Calendar dates of the years 1 to 9999, times of day to the microsecond, and
both together with an offset from universal time. Each has a plain form, and a
form inside lists and tables that spells out its parts.
-/

namespace TokenStream

/-- The days of a month in a year of the Gregorian calendar. -/
def daysInMonth (year month : Nat) : Nat :=
  if month = 2 then
    if year % 4 = 0 ∧ (year % 100 ≠ 0 ∨ year % 400 = 0) then 29 else 28
  else if month = 4 ∨ month = 6 ∨ month = 9 ∨ month = 11 then 30
  else 31

/-- A decimal number with zeros in front up to the given width. -/
def zeroPadded (width n : Nat) : List Char := (Nat.toDigits 10 n).leftpad width '0'

/-- Parts of a date or time, separated and in parentheses behind a name. -/
def constructorText (name : String) (parts : List String) : String :=
  name ++ "(" ++ ", ".intercalate parts ++ ")"

structure Date where
  year : Nat
  month : Nat
  day : Nat
deriving DecidableEq, Repr

namespace Date

/-- The date with the given parts, if there is one. -/
def ofParts? (year month day : Nat) : Option Date :=
  if 1 ≤ year ∧ year ≤ 9999 ∧ 1 ≤ month ∧ month ≤ 12 ∧ 1 ≤ day ∧ day ≤ daysInMonth year month
  then some ⟨year, month, day⟩
  else none

def plain (d : Date) : String :=
  .ofList (zeroPadded 4 d.year ++ '-' :: (zeroPadded 2 d.month ++ '-' :: zeroPadded 2 d.day))

def parts (d : Date) : List String := [d.year, d.month, d.day].map toString

def nested (d : Date) : String := constructorText "datetime.date" d.parts

end Date

structure Time where
  hour : Nat
  minute : Nat
  second : Nat
  microsecond : Nat
deriving DecidableEq, Repr

namespace Time

/-- Hours, minutes and seconds, and the microseconds unless they are zero. -/
def plain (t : Time) : String :=
  .ofList (zeroPadded 2 t.hour ++ ':' :: (zeroPadded 2 t.minute ++ ':' :: zeroPadded 2 t.second) ++
    if t.microsecond = 0 then [] else '.' :: zeroPadded 6 t.microsecond)

/-- The parts without trailing zeros, but with hour and minute. -/
def parts (t : Time) : List String :=
  ([t.hour, t.minute] ++
    (if t.microsecond ≠ 0 then [t.second, t.microsecond]
    else if t.second ≠ 0 then [t.second]
    else [])).map toString

def nested (t : Time) : String := constructorText "datetime.time" t.parts

end Time

/-- A date and a time of day, with an offset from universal time in minutes if
it is no local time. -/
structure DateTime where
  date : Date
  time : Time
  offset? : Option Int
deriving DecidableEq, Repr

namespace DateTime

def offsetText (minutes : Int) : List Char :=
  let n := minutes.natAbs
  (if minutes < 0 then '-' else '+') :: (zeroPadded 2 (n / 60) ++ ':' :: zeroPadded 2 (n % 60))

def plain (d : DateTime) : String :=
  d.date.plain ++ " " ++ d.time.plain ++ .ofList ((d.offset?.map offsetText).getD [])

/-- An offset as a number of days and of seconds from zero to a day. -/
def offsetNested (minutes : Int) : String :=
  let seconds := 60 * minutes
  let days := Int.fdiv seconds 86400
  let parts :=
    (if days = 0 then [] else ["days=" ++ .ofList (Numeral.decimal days)]) ++
      if Int.fmod seconds 86400 = 0 then []
      else ["seconds=" ++ .ofList (Numeral.decimal (Int.fmod seconds 86400))]
  if minutes = 0 then "datetime.timezone.utc"
  else constructorText "datetime.timezone" [constructorText "datetime.timedelta" parts]

def nested (d : DateTime) : String :=
  constructorText "datetime.datetime"
    (d.date.parts ++ d.time.parts ++
      (d.offset?.map fun minutes => "tzinfo=" ++ offsetNested minutes).toList)

end DateTime

end TokenStream
