import TokenStream.Lexer.Extent
import TokenStream.Text.Position

/-!
# Tokens of documents

The lexer asks for the classes of a code point and looks it up among the operators
and the symbols. A surrogate is in no class and in no table, and so is the
replacement that is read in its place. The raw texts of the tokens are then cut out
of the document itself.
-/

namespace TokenStream

/-- A token of a document, with its offsets and its raw text. -/
structure Passage where
  start : Int
  stop : Int
  kind : Kind
  raw : Document
deriving DecidableEq, Repr

namespace Passage

/-- The token of a document that an extent marks. -/
def ofExtent (d : Document) (e : Extent) : Passage :=
  ⟨e.start, e.stop, e.token.kind, Position.slice d e.start e.stop⟩

def isIllegal (p : Passage) : Bool := p.kind = .illegal

def startsWithDigit (p : Passage) : Bool := p.raw.head?.any (·.classes.digit)

end Passage

/-- The token of a document that was read. -/
def Pull.passage (d : Document) (p : Pull) : Except Numeral.Error Passage :=
  p.extent.map (.ofExtent d)

namespace Document

/-- The cursor at the start of a document. -/
def cursor (d : Document) : Cursor := .ofText d.scrubbed

theorem cursor_ofString (text : String) : (ofString text).cursor = .ofText text.toList := by
  rw [cursor, ofString, scrubbed_ofChars]

/-- The tokens of a document. -/
def passages (d : Document) : Except Numeral.Error (List Passage) :=
  d.cursor.pulls.mapM (Pull.passage d)

end Document

end TokenStream
