import TokenStream.File.Tree
import TokenStream.Source

/-!
# Feeds

The ways to a lexer: a text, bytes, a stream that is read to its end, and a file that is opened
and read. On each of them an error may be raised, and some errors are handed on as refusals of
the source: a fault of the bytes where they are decoded, and an error of the system both where
a stream is read and where a file is opened. What is raised in reading an opened file passes
both of these places.
-/

namespace TokenStream.Source

/-- What is raised on the way to the tokens. A refusal of the source may be raised from another
error, which it has as its cause then. -/
inductive Raised where
  | system (error : SystemError)
  | undecodable (fault : Utf8.Fault)
  | refused (message : String)
  | refusedFrom (message : String) (cause : Raised)
  | numeral (error : Numeral.Error)
  | other (reason : String)
deriving DecidableEq, Repr

/-- The message of the refusal for an error of the system. -/
def unreadable? : Raised → Option String
  | .system error => some (Error.unreadable error).message
  | _ => none

/-- The message of the refusal for a fault of the bytes. -/
def notUtf8? : Raised → Option String
  | .undecodable fault => some (Error.notUtf8 fault).message
  | _ => none

/-- Hands the errors that there is a message for on as refusals raised from them. -/
def refusing {α : Type} (message? : Raised → Option String) (x : Except Raised α) :
    Except Raised α :=
  tryCatch x fun error =>
    match message? error with
    | some message => throw (.refusedFrom message error)
    | none => throw error

/-- The text of a value that must be bytes. -/
def textOf : Value → Except Raised (List Char)
  | .bytes bytes | .byteArray bytes =>
    refusing notUtf8? ((Utf8.decode bytes).mapError .undecodable)
  | .other kind => throw (.refused (Error.notBytes kind).message)

/-- Reads a stream to its end. -/
def Stream.read : Stream → Except Raised Value
  | gives value => return value
  | fails error => throw (.system error)
  | breaksOff reason => throw (.other reason)

/-- The lexer of a stream. -/
def lexerOfStream (stream : Stream) : Except Raised Cursor := do
  let value ← refusing unreadable? stream.read
  return .ofText (← textOf value)

/-- Opens a file of a tree. -/
def openFile (t : FileTree) (path : String) : Except Raised Stream :=
  match t.read path with
  | .ok bytes => return .gives (.bytes bytes)
  | .error (.system error) => throw (.system error)
  | .error .nullInPath => throw (.other FileError.nullInPath.message)

/-- The lexer of what opening a file gives. -/
def lexerOfOpened (opened : Except Raised Stream) : Except Raised Cursor :=
  refusing unreadable? do lexerOfStream (← opened)

/-- The lexer of a file. -/
def lexerOfFile (t : FileTree) (path : String) : Except Raised Cursor :=
  lexerOfOpened (openFile t path)

/-- What tokens are asked of directly. -/
inductive Given where
  | text (text : List Char)
  | bytes (bytes : List UInt8)
  | byteArray (bytes : List UInt8)
deriving DecidableEq, Repr

/-- The lexer of what is given: bytes are decoded first. -/
def lexerOf : Given → Except Raised Cursor
  | .text text => return .ofText text
  | .bytes bytes => return .ofText (← textOf (.bytes bytes))
  | .byteArray bytes => return .ofText (← textOf (.byteArray bytes))

/-- All tokens of a lexer, however it was made. -/
def tokensFrom (lexer : Except Raised Cursor) : Except Raised (List Token) := do
  (← lexer).tokens.mapError .numeral

/-- The tokens of what is given. -/
def tokensOf (given : Given) : Except Raised (List Token) := tokensFrom (lexerOf given)

/-- The tokens of a stream. -/
def tokensOfStream (stream : Stream) : Except Raised (List Token) :=
  tokensFrom (lexerOfStream stream)

/-- The tokens of a file. -/
def tokensOfFile (t : FileTree) (path : String) : Except Raised (List Token) :=
  tokensFrom (lexerOfFile t path)

end TokenStream.Source
