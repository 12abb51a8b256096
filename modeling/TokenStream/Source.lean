import TokenStream.Lexer.Extent
import TokenStream.SystemError
import TokenStream.Text.Utf8

/-!
# Sources

Where the text of a lexer comes from. A stream is read to its end, what it
gives must be bytes, and the bytes must be UTF-8; each failure is one
`Source.Error`, reported with the name of the source. A stream may also break
off for a reason that is not the system's, and that reason is handed on as it
is.
-/

namespace TokenStream.Source

/-- The kind of a value that is not a byte string. -/
inductive ValueKind where
  | text | nothing | boolean | integer | float | list | table
deriving DecidableEq, Repr

def ValueKind.name : ValueKind → String
  | text => "str"
  | nothing => "NoneType"
  | boolean => "bool"
  | integer => "int"
  | float => "float"
  | list => "list"
  | table => "dict"

/-- Why there is no text. -/
inductive Error where
  /-- A value of another kind was given in place of bytes. -/
  | notBytes (kind : ValueKind)
  | notUtf8 (fault : Utf8.Fault)
  | unreadable (error : SystemError)
deriving DecidableEq, Repr

def Error.message : Error → String
  | notBytes kind => "expected bytes from source, got " ++ kind.name
  | notUtf8 fault =>
    "source is not valid UTF-8: " ++ fault.reason.message ++ " at byte " ++ toString fault.offset
  | unreadable error => "could not read source: " ++ error.message

/-- The name of a source that has none. -/
def anonymous : String := "<input>"

/-- The report of a failure in the named source. -/
def report (message : String) (name : String := anonymous) : String :=
  "error: " ++ message ++ "\n  --> " ++ name

/-- A value given in place of source bytes: bytes of either kind, or something else. -/
inductive Value where
  | bytes (bytes : List UInt8)
  | byteArray (bytes : List UInt8)
  | other (kind : ValueKind)
deriving DecidableEq, Repr

/-- The text of a source value. -/
def decode : Value → Except Error (List Char)
  | .bytes bytes | .byteArray bytes => (Utf8.decode bytes).mapError .notUtf8
  | .other kind => .error (.notBytes kind)

/-- What reading a stream to its end gives. -/
inductive Stream where
  | gives (value : Value)
  | fails (error : SystemError)
  /-- The stream breaks off for a reason of its own. -/
  | breaksOff (reason : String)
deriving DecidableEq, Repr

/-- Why there are no tokens: there is no text, a numeral was refused, or
something else broke the reading off. -/
inductive Failure where
  | source (error : Error)
  | numeral (error : Numeral.Error)
  | other (reason : String)
deriving DecidableEq, Repr

/-- The text of a stream. -/
def textOfStream : Stream → Except Failure (List Char)
  | .gives value => (decode value).mapError .source
  | .fails error => .error (.source (.unreadable error))
  | .breaksOff reason => .error (.other reason)

/-- The tokens of a text, with its refusals among the failures. -/
def tokensOfText (text : List Char) : Except Failure (List Token) :=
  (Cursor.ofText text).tokens.mapError .numeral

/-- The tokens of a byte string. -/
def tokensOfBytes (bytes : List UInt8) : Except Failure (List Token) := do
  tokensOfText (← (decode (.bytes bytes)).mapError .source)

end TokenStream.Source
