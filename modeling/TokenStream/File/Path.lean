/-!
# Paths

A path in normal form: where it starts, and its parts without empty ones and
single dots. Two dots are kept, since only the file system knows what they lead
to. A path that starts with exactly two slashes keeps both.
-/

namespace TokenStream

/-- Where a path starts. -/
inductive Anchor where
  | relative
  | root
  | doubleRoot
deriving DecidableEq, Repr

def Anchor.prefixText : Anchor → String
  | relative => ""
  | root => "/"
  | doubleRoot => "//"

structure Path where
  anchor : Anchor
  parts : List String
deriving DecidableEq, Repr

namespace Path

/-- The pieces of a text between its slashes, the empty ones included. -/
def pieces (text : String) : List String := (text.toList.splitOn '/').map String.ofList

/-- Is the piece a part of a path in normal form? -/
def isPart (piece : String) : Bool := piece != "" && piece != "."

/-- The path that a text stands for. -/
def ofString (text : String) : Path :=
  let slashes := (text.toList.takeWhile (· = '/')).length
  let anchor := if slashes = 0 then .relative else if slashes = 2 then .doubleRoot else .root
  ⟨anchor, (pieces text).filter isPart⟩

/-- The text of a path; the empty relative path is a single dot. -/
def toString (p : Path) : String :=
  if p.anchor = .relative ∧ p.parts = [] then "."
  else p.anchor.prefixText ++ "/".intercalate p.parts

/-- The path without its last part. -/
def parent (p : Path) : Path := ⟨p.anchor, p.parts.dropLast⟩

/-- A file directly in the directory of the path. -/
def child (p : Path) (name : String) : Path := ⟨p.anchor, p.parts ++ [name]⟩

end Path

end TokenStream
