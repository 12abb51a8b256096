import TokenStream.Lexer.Cursor

/-!
# Token lists and extents

What a run of readings gives: the tokens, the tokens with the offsets at which
they start and stop, and the overflows recorded on the way. One refused numeral
makes the whole list unavailable.
-/

namespace TokenStream

/-- A token with the offsets of its first character and of the one behind it. -/
structure Extent where
  start : Int
  stop : Int
  token : Token
deriving DecidableEq, Repr

/-- The extent of the token that was read: it stops at the cursor, and its
raw text tells how far before that it starts. -/
def Pull.extent (p : Pull) : Except Numeral.Error Extent :=
  p.outcome.map fun token =>
    ⟨p.cursor.position - token.raw.length, p.cursor.position, token⟩

namespace Cursor

/-- The tokens from the cursor to the end of the text. -/
def tokens (c : Cursor) : Except Numeral.Error (List Token) := c.pulls.mapM Pull.outcome

/-- The same tokens with their extents. -/
def extents (c : Cursor) : Except Numeral.Error (List Extent) := c.pulls.mapM Pull.extent

/-- The overflows that the readings record. -/
def overflows (c : Cursor) : List Overflow := c.pulls.filterMap Pull.overflow?

/-- Where the readings end. -/
def drained (c : Cursor) : Cursor := (c.pulls.getLast?.map Pull.cursor).getD c

/-- The extents from a cursor are that of the next token, and those behind it. -/
theorem extents_eq (c : Cursor) :
    c.extents = do
      let e ← c.pull.extent
      let es ← if c.pull.isLast then pure [] else c.pull.cursor.extents
      return e :: es := by
  rw [extents, pulls_eq, List.mapM_cons]
  split <;> rfl

theorem tokens_eq_map_extents (c : Cursor) : c.tokens = c.extents.map (List.map Extent.token) := by
  unfold tokens extents
  induction c.pulls with
  | nil => rfl
  | cons p ps ih =>
    rw [List.mapM_cons, List.mapM_cons, ih]
    cases hp : p.outcome <;> cases ps.mapM Pull.extent <;> simp [Pull.extent, hp] <;> rfl

end Cursor

/-- The tokens of a text. -/
def tokenize (text : String) : Except Numeral.Error (List Token) :=
  (Cursor.ofText text.toList).tokens

/-- The tokens of a text with their extents. -/
def extents (text : String) : Except Numeral.Error (List Extent) :=
  (Cursor.ofText text.toList).extents

end TokenStream
