import TokenStream.Numeral
import TokenStream.Text.Hex
import TokenStream.Text.Utf16

/-!
# JSON values and their indented form

The writer uses ASCII only. Inside a string, quotation mark and backslash stand
behind a backslash, five control characters have letters, and every other
character outside the printable ASCII range is written as its UTF-16 units,
four lower-case hexadecimal digits each. Every item of a list or table stands on a
line of its own, two blanks deeper than the brackets around it.
-/

namespace TokenStream

/-- A JSON value with integers for numbers; the members of a table are kept in
their order. -/
inductive Json where
  | null
  | integer (i : Int)
  | text (s : List Char)
  | list (items : List Json)
  | table (members : List (List Char × Json))

namespace Json

/-- A unit as an escape. -/
def unitEscape (unit : Nat) : List Char := '\\' :: 'u' :: hexDigits 4 unit

/-- One character inside a string. -/
def escape (c : Char) : List Char :=
  if c = '\x22' then ['\\', '\x22']
  else if c = '\\' then ['\\', '\\']
  else if c = '\n' then ['\\', 'n']
  else if c = '\r' then ['\\', 'r']
  else if c = '\t' then ['\\', 't']
  else if c = '\x0C' then ['\\', 'f']
  else if c = '\x08' then ['\\', 'b']
  else if 0x20 ≤ c.toNat ∧ c.toNat < 0x7F then [c]
  else (Utf16.encodeChar c).flatMap unitEscape

/-- A string with its quotation marks. -/
def quote (s : List Char) : List Char := '\x22' :: s.flatMap escape ++ ['\x22']

/-- A new line, indented to the given depth. -/
def newline (depth : Nat) : List Char := '\n' :: List.replicate (2 * depth) ' '

mutual

/-- The indented form of a value that starts at the given depth. -/
def chars (depth : Nat) : Json → List Char
  | null => ['n', 'u', 'l', 'l']
  | integer i => Numeral.decimal i
  | text s => quote s
  | list [] => ['[', ']']
  | list (item :: items) =>
    '[' :: (newline (depth + 1) ++ chars (depth + 1) item ++
      (itemsChars (depth + 1) items ++ newline depth ++ [']']))
  | table [] => ['\x7b', '\x7d']
  | table ((key, value) :: members) =>
    '\x7b' :: (newline (depth + 1) ++ quote key ++ [':', ' '] ++ chars (depth + 1) value ++
      (membersChars (depth + 1) members ++ newline depth ++ ['\x7d']))

/-- The items of a list behind the first one. -/
def itemsChars (depth : Nat) : List Json → List Char
  | [] => []
  | item :: items => ',' :: (newline depth ++ chars depth item ++ itemsChars depth items)

/-- The members of a table behind the first one. -/
def membersChars (depth : Nat) : List (List Char × Json) → List Char
  | [] => []
  | (key, value) :: members =>
    ',' :: (newline depth ++ quote key ++ [':', ' '] ++ chars depth value ++
      membersChars depth members)

end

/-- The indented form of a document. -/
def pretty (value : Json) : List Char := chars 0 value

end Json

end TokenStream
