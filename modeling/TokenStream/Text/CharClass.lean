import TokenStream.Text.Blank
import TokenStream.Text.Letter

/-!
# Classes of characters

The lexer tells letters, ASCII digits and blanks apart. It asks about a word of one
character; a word of any other length is refused, may be a run of successive
digits, and is no blank.
-/

namespace TokenStream

/-- Which classes a character is in. -/
structure CharClass where
  letter : Bool
  digit : Bool
  blank : Bool
deriving DecidableEq, Repr

namespace CharClass

def none : CharClass := ⟨false, false, false⟩

def ofChar (c : Char) : CharClass := ⟨isLetter c, c.isDigit, isBlank c⟩

end CharClass

/-- A word of any other length was given where a single character is classified. -/
inductive NotACharacter where
  | word
deriving DecidableEq, Repr

def NotACharacter.message : NotACharacter → String
  | word => "category() argument must be a unicode character, not str"

/-- Is the word a single letter? Only a single character can be asked about. -/
def isLetterWord (word : String) : Except NotACharacter Bool :=
  match word.toList with
  | [c] => .ok (isLetter c)
  | _ => .error .word

/-- Is the word a run of successive digits, the empty one included? -/
def isDigitWord (word : String) : Bool :=
  (List.range 11).any fun n => word.toList.isPrefixOf ("0123456789".toList.drop n)

/-- Is the word a single blank? -/
def isBlankWord (word : String) : Bool :=
  match word.toList with
  | [c] => isBlank c
  | _ => false

end TokenStream
