import TokenStream.Numeral
import TokenStream.Text.Position
import TokenStream.Text.Quoted

/-!
# Faults of a TOML document

What can be wrong with a document, and where. A place is the line and column of
a character, both counted from one, or the end of the document.
-/

namespace TokenStream.Toml

/-- The parts of a dotted key. -/
abbrev Key := List String

/-- A key in a message: its quoted parts in parentheses, a single one with a
comma behind it. -/
def Key.display (key : Key) : String :=
  match key with
  | [part] => "(" ++ quoted part ++ ",)"
  | parts => "(" ++ ", ".intercalate (parts.map quoted) ++ ")"

inductive Cause where
  | invalidStatement
  | missingNewline
  | missingEquals
  | invalidKey
  | invalidValue
  | invalidDate
  | unclosedArray
  | unclosedInlineTable
  | unclosedTableHeader
  | unclosedArrayHeader
  | unterminatedText
  | missingDelimiter (delimiter : String)
  | strayBackslash
  | invalidHex
  | notAScalar
  | illegalCharacter (c : Char)
  | invalidCharacter (c : Char)
  /-- A table is opened twice. -/
  | declaredTwice (key : Key)
  /-- An inline value is changed. -/
  | immutable (key : Key)
  /-- A dotted key reaches into a table that was opened by a header. -/
  | redefined (key : Key)
  | duplicate (part : String)
  | overwritten
deriving DecidableEq, Repr

def Cause.message : Cause → String
  | invalidStatement => "Invalid statement"
  | missingNewline => "Expected newline or end of document after a statement"
  | missingEquals => "Expected '=' after a key in a key/value pair"
  | invalidKey => "Invalid initial character for a key part"
  | invalidValue => "Invalid value"
  | invalidDate => "Invalid date or datetime"
  | unclosedArray => "Unclosed array"
  | unclosedInlineTable => "Unclosed inline table"
  | unclosedTableHeader => "Expected ']' at the end of a table declaration"
  | unclosedArrayHeader => "Expected ']]' at the end of an array declaration"
  | unterminatedText => "Unterminated string"
  | missingDelimiter delimiter => "Expected " ++ quoted delimiter
  | strayBackslash => "Unescaped '\\' in a string"
  | invalidHex => "Invalid hex value"
  | notAScalar => "Escaped character is not a Unicode scalar value"
  | illegalCharacter c => "Illegal character " ++ quoted (.singleton c)
  | invalidCharacter c => "Found invalid character " ++ quoted (.singleton c)
  | declaredTwice key => "Cannot declare " ++ key.display ++ " twice"
  | immutable key => "Cannot mutate immutable namespace " ++ key.display
  | redefined key => "Cannot redefine namespace " ++ key.display
  | duplicate part => "Duplicate inline table key " ++ quoted part
  | overwritten => "Cannot overwrite a value"

/-- Why reading stops: a cause with the text from where it was found, or a
numeral that is refused. -/
inductive Stop where
  | fault (cause : Cause) (rest : List Char)
  | numeral (error : Numeral.Error)
deriving DecidableEq, Repr

/-- A place in a document. -/
inductive Place where
  | character (line column : Nat)
  | endOfDocument
deriving DecidableEq, Repr

def Place.display : Place → String
  | character line column => "line " ++ toString line ++ ", column " ++ toString column
  | endOfDocument => "end of document"

/-- The place of the given rest of a document. -/
def Place.ofRest (document rest : List Char) : Place :=
  match rest with
  | [] => endOfDocument
  | _ =>
    let before := document.take (document.length - rest.length)
    character (before.count '\n' + 1) ((Position.lastLine before).length + 1)

/-- Why a document has no value. -/
inductive Error where
  | malformed (cause : Cause) (place : Place)
  | numeral (error : Numeral.Error)
deriving DecidableEq, Repr

def Error.ofStop (document : List Char) : Stop → Error
  | .fault cause rest => malformed cause (.ofRest document rest)
  | .numeral error => numeral error

/-- The report of a fault and its place. -/
def faultMessage (cause : Cause) (place : Place) : String :=
  cause.message ++ " (at " ++ place.display ++ ")"

end TokenStream.Toml
