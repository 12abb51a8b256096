import TokenStream.Text.Hex
import TokenStream.Text.Printable

/-!
# Quoted texts

The one-line form of an arbitrary text in listings, traces and messages. The
text stands between two marks, apostrophes unless it holds an apostrophe and
no quotation mark. A backslash and the mark are written behind a backslash,
and so are line feed, carriage return and tab as `n`, `r` and `t`; any other
character that is not printable becomes `x`, `u` or `U` with two, four or eight
hexadecimal digits.
-/

namespace TokenStream.Quoted

/-- The mark that a text is quoted with. -/
def mark (s : List Char) : Char :=
  if s.contains '\x27' && !s.contains '\x22' then '\x22' else '\x27'

/-- One character between the marks `m`. -/
def escape (m c : Char) : List Char :=
  if c = '\\' ∨ c = m then ['\\', c]
  else if c = '\n' then ['\\', 'n']
  else if c = '\r' then ['\\', 'r']
  else if c = '\t' then ['\\', 't']
  else if isPrintable c then [c]
  else if c.toNat < 0x100 then '\\' :: 'x' :: hexDigits 2 c.toNat
  else if c.toNat < 0x10000 then '\\' :: 'u' :: hexDigits 4 c.toNat
  else '\\' :: 'U' :: hexDigits 8 c.toNat

/-- The quoted form of a text. -/
def encode (s : List Char) : List Char :=
  mark s :: s.flatMap (escape (mark s)) ++ [mark s]

end TokenStream.Quoted

namespace TokenStream

/-- The quoted form of a string. -/
def quoted (s : String) : String := .ofList (Quoted.encode s.toList)

end TokenStream
