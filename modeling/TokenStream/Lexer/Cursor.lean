import TokenStream.Numeral
import TokenStream.Text.Blank
import TokenStream.Text.Letter
import TokenStream.Token

/-!
# The lexer's cursor

A cursor stands at an offset into a text, holds the character there, and knows
the offset of the one behind it. It moves on by one character at a time, also
past the end of the text. `pull` reads the next token: runs of letters and of
digits are followed to their end, an operator may take an equals sign along,
and any other character stands alone. `pulls` reads up to the end of the text or
the first refusal. Offsets count characters. Main statements: a reading that
is not the last one leaves less to read (`remaining_pull_lt`), so the readings
come to an end, and `pulls` is one reading after the other (`pulls_eq`).
-/

namespace TokenStream

/-- A place in a text. -/
structure Cursor where
  source : Array Char
  /-- The offset of the character under the cursor. -/
  position : Nat
  /-- The offset of the character that is read next. -/
  ahead : Nat
  /-- The character under the cursor, or nothing past the end of the text. -/
  current? : Option Char
deriving DecidableEq, Repr

/-- A number that was found to be above the largest value. -/
structure Overflow where
  digits : String
  offset : Nat
deriving DecidableEq, Repr

def Overflow.message (o : Overflow) : String :=
  "integer literal " ++ o.digits ++ " at offset " ++ toString o.offset ++ " overflows int64"

/-- What one reading gives: the token or the refusal, the cursor behind it, and
the overflow that it records. Where the token starts is not kept. -/
structure Pull where
  outcome : Except Numeral.Error Token
  cursor : Cursor
  overflow? : Option Overflow

/-- Does the reading end a run of readings: the end of the text, or a refusal? -/
def Pull.isLast (p : Pull) : Bool :=
  match p.outcome with
  | .ok token => token.kind = .eof
  | .error _ => true

namespace Cursor

/-! ## Moving -/

/-- Moves on by one character, also past the end of the text. -/
def advance (c : Cursor) : Cursor :=
  { c with position := c.ahead, ahead := c.ahead + 1, current? := c.source[c.ahead]? }

/-- The start of a text: in front of its first character, and on by one. -/
def ofText (text : List Char) : Cursor := advance ⟨text.toArray, 0, 0, none⟩

/-- The character behind the one under the cursor. -/
def peek? (c : Cursor) : Option Char := c.source[c.ahead]?

/-- How many characters are left to read, the one under the cursor included. -/
def remaining (c : Cursor) : Nat := c.current?.toList.length + (c.source.size - c.ahead)

theorem remaining_advance_le (c : Cursor) : c.advance.remaining ≤ c.source.size - c.ahead := by
  unfold remaining advance
  by_cases h : c.ahead < c.source.size
  · simp only [Array.getElem?_eq_getElem h, Option.toList_some, List.length_singleton]
    omega
  · simp only [Array.getElem?_eq_none (Nat.not_lt.1 h), Option.toList_none, List.length_nil]
    omega

theorem remaining_advance_lt {c : Cursor} {ch : Char} (h : c.current? = some ch) :
    c.advance.remaining < c.remaining := by
  have := remaining_advance_le c
  simp only [remaining, h, Option.toList_some, List.length_singleton] at this ⊢
  omega

/-- Moves on while the character under the cursor has a property. -/
def advanceWhile (p : Char → Bool) (c : Cursor) : Cursor :=
  match _h : c.current? with
  | some ch => if p ch then c.advance.advanceWhile p else c
  | none => c
termination_by c.remaining
decreasing_by exact remaining_advance_lt _h

/-- Moves to the next character that is no blank. -/
def skipBlanks (c : Cursor) : Cursor := c.advanceWhile isBlank

/-- The text from an offset up to the cursor. -/
def textFrom (c : Cursor) (start : Nat) : List Char := (c.source.extract start c.position).toList

/-! ## Reading -/

/-- Reads a token whose last character is under the cursor. -/
def emit (c : Cursor) (token : Token) : Pull := ⟨.ok token, c.advance, none⟩

/-- Reads an operator, with an equals sign that follows it. -/
def readOperator (c : Cursor) (ch : Char) (alone withEquals : Kind) : Pull :=
  if c.peek? = some '=' then c.advance.emit ⟨withEquals, .absent, .ofList [ch, '=']⟩
  else c.emit ⟨alone, .absent, .ofList [ch]⟩

/-- Reads a run of letters. It ends with the cursor behind itself. -/
def readWord (c : Cursor) : Pull :=
  let behind := c.advanceWhile isLetter
  ⟨.ok (.ofWord (.ofList (behind.textFrom c.position))), behind, none⟩

/-- Reads a run of digits. It ends with the cursor behind itself, also when its
number is above the largest value or when it is too long to be converted. -/
def readNumber (c : Cursor) : Pull :=
  let behind := c.advanceWhile Char.isDigit
  let digits := behind.textFrom c.position
  match Numeral.read digits with
  | .error e => ⟨.error e, behind, none⟩
  | .ok value =>
    if maxInt < value then
      ⟨.ok ⟨.illegal, .absent, .ofList digits⟩, behind, some ⟨.ofList digits, c.position⟩⟩
    else ⟨.ok ⟨.int, .number value, .ofList digits⟩, behind, none⟩

/-- Reads the token under the cursor, which stands on no blank. At the end of
the text it stays there. -/
def read (c : Cursor) : Pull :=
  match c.current? with
  | none => ⟨.ok .eof, c, none⟩
  | some ch =>
    match Kind.operators.lookup ch with
    | some (alone, withEquals) => c.readOperator ch alone withEquals
    | none =>
      match Kind.symbols.lookup ch with
      | some kind => c.emit ⟨kind, .absent, .ofList [ch]⟩
      | none =>
        if isLetter ch then c.readWord
        else if ch.isDigit then c.readNumber
        else c.emit ⟨.illegal, .absent, .ofList [ch]⟩

/-- Reads the next token. -/
def pull (c : Cursor) : Pull := c.skipBlanks.read

/-! ## Progress -/

theorem remaining_advanceWhile_le (p : Char → Bool) (c : Cursor) :
    (c.advanceWhile p).remaining ≤ c.remaining := by
  fun_induction advanceWhile p c with
  | case1 c ch h _ ih => exact Nat.le_trans ih (Nat.le_of_lt (remaining_advance_lt h))
  | case2 | case3 => exact Nat.le_refl _

theorem remaining_advanceWhile_lt {p : Char → Bool} {c : Cursor} {ch : Char}
    (h : c.current? = some ch) (hp : p ch = true) : (c.advanceWhile p).remaining < c.remaining := by
  rw [advanceWhile]
  split
  · rename_i h'
    obtain rfl : _ = ch := by simpa [h'] using h
    rw [if_pos hp]
    exact Nat.lt_of_le_of_lt (remaining_advanceWhile_le p _) (remaining_advance_lt h)
  · simp_all

theorem remaining_emit_le (c : Cursor) (token : Token) :
    (c.emit token).cursor.remaining ≤ c.remaining := by
  have := remaining_advance_le c
  simp only [emit, remaining] at this ⊢
  omega

theorem remaining_readOperator_lt {c : Cursor} {ch : Char} (h : c.current? = some ch) (ch' : Char)
    (alone withEquals : Kind) :
    (c.readOperator ch' alone withEquals).cursor.remaining < c.remaining := by
  unfold readOperator
  split
  · exact Nat.lt_of_le_of_lt (remaining_emit_le _ _) (remaining_advance_lt h)
  · exact remaining_advance_lt h

/-- A run of digits is passed over whatever becomes of it. -/
theorem cursor_readNumber (c : Cursor) : c.readNumber.cursor = c.advanceWhile Char.isDigit := by
  simp only [readNumber]
  split
  · rfl
  · split <;> rfl

/-- Reading at a character leaves less to read. -/
theorem remaining_read_lt {c : Cursor} {ch : Char} (h : c.current? = some ch) :
    c.read.cursor.remaining < c.remaining := by
  simp only [read, h]
  split
  · exact remaining_readOperator_lt h _ _ _
  · split
    · exact remaining_advance_lt h
    · split
      · exact remaining_advanceWhile_lt h ‹_›
      · split
        · rw [cursor_readNumber]
          exact remaining_advanceWhile_lt h ‹_›
        · exact remaining_advance_lt h

/-- A reading that is not the last one leaves less to read. -/
theorem remaining_pull_lt {c : Cursor} (h : c.pull.isLast = false) :
    c.pull.cursor.remaining < c.remaining := by
  cases hc : c.skipBlanks.current? with
  | none => simp [pull, read, hc, Pull.isLast, Token.eof] at h
  | some ch => exact Nat.lt_of_lt_of_le (remaining_read_lt hc) (remaining_advanceWhile_le _ _)

/-! ## One reading after the other -/

/-- The readings behind those already done (the last one first). -/
def pullsFrom (done : List Pull) (c : Cursor) : List Pull :=
  let p := c.pull
  if _h : p.isLast = true then (p :: done).reverse else pullsFrom (p :: done) p.cursor
termination_by c.remaining
decreasing_by exact remaining_pull_lt (by simpa using _h)

/-- All readings up to the first one that ends the run. -/
def pulls (c : Cursor) : List Pull := pullsFrom [] c

theorem pullsFrom_eq (done : List Pull) (c : Cursor) :
    pullsFrom done c = done.reverse ++ pulls c := by
  unfold pulls
  by_cases h : c.pull.isLast = true
  · rw [pullsFrom.eq_1 done, pullsFrom.eq_1 []]
    simp [h]
  · have := remaining_pull_lt (by simpa using h)
    rw [pullsFrom.eq_1 done, pullsFrom.eq_1 [], dif_neg h, dif_neg h,
      pullsFrom_eq (c.pull :: done), pullsFrom_eq [c.pull]]
    simp
termination_by c.remaining

theorem pulls_eq (c : Cursor) :
    c.pulls = c.pull :: if c.pull.isLast then [] else c.pull.cursor.pulls := by
  rw [pulls, pullsFrom]
  split
  · simp_all
  · rw [pullsFrom_eq]
    simp_all

end Cursor

end TokenStream
