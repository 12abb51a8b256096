import TokenStream.Json
import TokenStream.Lexer.Passage
import TokenStream.Text.Quoted

/-!
# Listings of tokens

The two formats of a token dump, and the lines that trace the tokens and report
the illegal ones. A text dump has one line for each token, its kind and its raw
text in quoted form with a tab between them. A JSON dump is one list of tables
with the members `type`, `value` and `raw`.
-/

namespace TokenStream

/-- The format of a dump. -/
inductive Format where
  | text
  | json
deriving DecidableEq, Repr

namespace Format

def all : List Format := [text, json]

def name : Format → String
  | text => "text"
  | json => "json"

/-- The format of the given name. -/
def ofName? (s : String) : Option Format := all.find? (·.name = s)

theorem ofName?_eq_some_iff {s : String} {f : Format} : ofName? s = some f ↔ s = f.name := by
  constructor
  · intro h
    have hname := List.find?_some h
    exact (of_decide_eq_true hname).symm
  · rintro rfl
    cases f <;> decide

theorem name_injective {f g : Format} (h : f.name = g.name) : f = g :=
  Option.some.inj ((ofName?_eq_some_iff.2 rfl).symm.trans (ofName?_eq_some_iff.2 h))

end Format

namespace Payload

def toJson : Payload → Json
  | absent => .null
  | name text => .text text.toList
  | number value => .integer value

/-- Can the payload be written: is it no number of too many digits? -/
def isWritable : Payload → Bool
  | number value => Numeral.isWritable value
  | _ => true

end Payload

namespace Token

def toJson (t : Token) : Json :=
  .table [("type".toList, .text t.kind.name.toList), ("value".toList, t.payload.toJson),
    ("raw".toList, .text t.raw.toList)]

/-- The line of a token in a text dump. -/
def line (t : Token) : List Char :=
  t.kind.name.toList ++ '\t' :: (Quoted.encode t.raw.toList ++ ['\n'])

end Token

namespace Dump

/-- The text dump of tokens. -/
def text (tokens : List Token) : String := .ofList (tokens.flatMap Token.line)

/-- The JSON dump of tokens, whether or not their numbers can be written. -/
def jsonChars (tokens : List Token) : List Char :=
  (Json.list (tokens.map Token.toJson)).pretty ++ ['\n']

/-- The JSON dump of tokens. It writes their numbers out, which is refused for
those of too many digits. -/
def json (tokens : List Token) : Except Numeral.Error String :=
  if tokens.all (·.payload.isWritable) then .ok (.ofList (jsonChars tokens))
  else .error .tooLongToWrite

end Dump

/-- The dump of tokens in a format. -/
def Format.dump : Format → List Token → Except Numeral.Error String
  | text, tokens => .ok (Dump.text tokens)
  | json, tokens => Dump.json tokens

namespace Extent

/-- The line of a token in a trace: both offsets right-aligned in columns of
six, the kind left-aligned in a column of ten, and the quoted raw text. Longer
offsets widen their column. -/
def traceLine (e : Extent) : List Char :=
  (Numeral.decimal e.start).leftpad 6 ' ' ++ ' ' ::
    ((Numeral.decimal e.stop).leftpad 6 ' ' ++ ' ' :: ' ' ::
      (e.token.kind.name.toList.rightpad 10 ' ' ++ ' ' ::
        (Quoted.encode e.token.raw.toList ++ ['\n'])))

end Extent

/-- The line that reports an illegal token, by its quoted raw text and its start. -/
def reportLine (quotedRaw : List Char) (start : Int) : List Char :=
  "error: illegal token ".toList ++ quotedRaw ++ " at offset ".toList ++
    Numeral.decimal start ++ ['\n']

namespace Extent

def illegalLine (e : Extent) : List Char :=
  reportLine (Quoted.encode e.token.raw.toList) e.start

def isIllegal (e : Extent) : Bool := e.token.kind = .illegal

end Extent

def Passage.illegalLine (p : Passage) : List Char := reportLine p.raw.quoted p.start

/-- The trace of a list of tokens. -/
def trace (extents : List Extent) : String := .ofList (extents.flatMap Extent.traceLine)

/-- The report of the illegal tokens in a list, by their lines, and how many there are. -/
def reportWith {α : Type} (isIllegal : α → Bool) (line : α → List Char) (tokens : List α) :
    String × Nat :=
  let illegal := tokens.filter isIllegal
  (.ofList (illegal.flatMap line), illegal.length)

def reportIllegal (extents : List Extent) : String × Nat :=
  reportWith Extent.isIllegal Extent.illegalLine extents

def Passage.reportIllegal (passages : List Passage) : String × Nat :=
  reportWith isIllegal illegalLine passages

end TokenStream
