import TokenStream.Calendar
import TokenStream.Decimal.Layout
import TokenStream.Text.Quoted

/-!
# Values of a TOML document

The values that a document can hold, and the text under which a value is shown
in a message. A text is shown as it is, unless it stands in a list or table:
there it is quoted, and dates and times spell out their parts.
-/

namespace TokenStream.Toml

/-- The members of a table are kept in the order in which they were defined. -/
inductive Value where
  | text (s : String)
  | integer (i : Int)
  | float (x : Binary64)
  | boolean (b : Bool)
  | date (d : Date)
  | time (t : Time)
  | dateTime (d : DateTime)
  | array (items : List Value)
  | table (members : List (String × Value))
deriving Repr

/-- The members of a table. -/
abbrev Members := List (String × Value)

namespace Value

/-- Numbers with a fraction have a point up to sixteen places before it and
down to three zeros behind it, an exponent of two digits otherwise, and at
least one digit behind the point. -/
def floatLayout : Layout where
  above := -4
  upTo := 16
  exponentDigits := 2
  wholeSuffix := ['.', '0']
  infinity := ['i', 'n', 'f']
  nan := ['n', 'a', 'n']

def showBool (b : Bool) : String := if b then "True" else "False"

mutual

/-- Has every integer in the value few enough digits to be written? -/
def isWritable : Value → Bool
  | integer i => Numeral.isWritable i
  | array items => areWritable items
  | table members => areWritableMembers members
  | _ => true

def areWritable : List Value → Bool
  | [] => true
  | v :: vs => v.isWritable && areWritable vs

def areWritableMembers : List (String × Value) → Bool
  | [] => true
  | (_, v) :: ms => v.isWritable && areWritableMembers ms

end

mutual

/-- The text of a value inside a list or table. -/
def nested : Value → String
  | text s => quoted s
  | integer i => .ofList (Numeral.decimal i)
  | float x => .ofList (floatLayout.write x)
  | boolean b => showBool b
  | date d => d.nested
  | time t => t.nested
  | dateTime d => d.nested
  | array items => "[" ++ nestedItems items ++ "]"
  | table members => "\x7b" ++ nestedMembers members ++ "\x7d"

def nestedItems : List Value → String
  | [] => ""
  | [v] => v.nested
  | v :: vs => v.nested ++ ", " ++ nestedItems vs

def nestedMembers : List (String × Value) → String
  | [] => ""
  | [(k, v)] => quoted k ++ ": " ++ v.nested
  | (k, v) :: ms => quoted k ++ ": " ++ v.nested ++ ", " ++ nestedMembers ms

end

/-- The text of a value, whether or not its integers can be written. -/
def plain : Value → String
  | text s => s
  | date d => d.plain
  | time t => t.plain
  | dateTime d => d.plain
  | v => v.nested

/-- The text under which a value is shown. -/
def display (v : Value) : Except Numeral.Error String :=
  if v.isWritable then .ok v.plain else .error .tooLongToWrite

end Value

end TokenStream.Toml
