import TokenStream.Lexer.Passage

/-!
# Diagnostics

What an editor shows for a document: one diagnostic for each illegal token, at
the positions of its first character and of the one behind it. The tokens are
read one at a time, and a document has no diagnostics at all once a numeral is
refused, or once an illegal token stands at or behind a surrogate of its line and
has no position there.
-/

namespace TokenStream

structure Diagnostic where
  start : Position
  stop : Position
  message : String
  /-- Every diagnostic is an error. -/
  severity : Nat := 1
  /-- The name under which diagnostics are published. -/
  origin : String := "monkeylex"
deriving DecidableEq, Repr

/-- Why a document has no diagnostics. -/
inductive Refusal where
  | numeral (error : Numeral.Error)
  | unencodable (error : Unencodable)
deriving DecidableEq, Repr

def Refusal.message : Refusal → String
  | numeral error => error.message
  | unencodable error => error.message

/-- What is wrong with an illegal token: it is a number that is too large, or a
character that starts no token. A number holds no surrogates. -/
def Passage.complaint (p : Passage) : String :=
  if p.startsWithDigit then
    "integer literal " ++ String.ofList p.raw.scrubbed ++ " does not fit in 64 bits"
  else "illegal character " ++ String.ofList p.raw.quoted

/-- The diagnostic of an illegal token of a document. -/
def Diagnostic.ofPassage (d : Document) (p : Passage) : Except Unencodable Diagnostic := do
  let start ← Position.ofDocument d p.start
  let stop ← Position.ofDocument d p.stop
  return { start, stop, message := p.complaint }

/-- The diagnostics of one reading of a document: one of an illegal token, none of
any other. -/
def Pull.diagnostics (d : Document) (pull : Pull) : Except Refusal (List Diagnostic) := do
  let p ← (pull.passage d).mapError .numeral
  if p.isIllegal then
    let diagnostic ← (Diagnostic.ofPassage d p).mapError .unencodable
    return [diagnostic]
  else return []

/-- The diagnostics of a document. -/
def diagnose (d : Document) : Except Refusal (List Diagnostic) :=
  (d.cursor.pulls.mapM (Pull.diagnostics d)).map List.flatten

end TokenStream
