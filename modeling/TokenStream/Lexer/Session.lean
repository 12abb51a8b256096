import TokenStream.Lexer.Extent

/-!
# Sessions with one lexer

A session is one cursor and any number of readers that share it. A reader hands
out tokens, or tokens with their extents, one at a time; it is finished once it
has handed out the token at the end of the text or met a refusal, and then
leaves the cursor alone. Opening a reader reads nothing. Requests made one after
the other are answered one after the other (`replies_append`, `after_append`).
-/

namespace TokenStream

/-- What a reader hands out. -/
inductive Yield where
  | tokens
  | extents
deriving DecidableEq, Repr

structure Reader where
  yield : Yield
  finished : Bool
deriving DecidableEq, Repr

structure Session where
  cursor : Cursor
  readers : List Reader
deriving DecidableEq, Repr

/-- What can be asked of a session. Readers are numbered from zero in the order
in which they were opened. -/
inductive Request where
  /-- Read one token. -/
  | next
  /-- Read all remaining tokens. -/
  | tokenize
  /-- Look at the character behind the one under the cursor. -/
  | peek
  /-- Move the cursor on by one character. -/
  | advance
  /-- Move the cursor past blanks. -/
  | skipBlanks
  /-- Open a reader. -/
  | openReader (yield : Yield)
  /-- Ask a reader for one item. -/
  | step (reader : Nat)
  /-- Ask a reader for all its remaining items. -/
  | drain (reader : Nat)
deriving DecidableEq, Repr

inductive Answer where
  | nothing
  | char (c : Option Char)
  | opened (reader : Nat)
  | token (t : Token)
  | tokens (ts : List Token)
  | extent (e : Extent)
  | extents (es : List Extent)
  /-- The reader is finished. -/
  | stopped
  | refused (error : Numeral.Error)
deriving DecidableEq, Repr

/-- An answer, the readings made for it, and the session afterwards. -/
structure Reply where
  answer : Answer
  pulls : List Pull
  session : Session

/-- The overflows recorded for an answer. -/
def Reply.overflows (r : Reply) : List Overflow := r.pulls.filterMap Pull.overflow?

namespace Answer

/-- The first refusal, or what is made of the values. -/
def ofExcept {α : Type} (wrap : α → Answer) : Except Numeral.Error α → Answer
  | .ok a => wrap a
  | .error e => .refused e

/-- One reading, in the form that a reader hands out. -/
def ofPull (yield : Yield) (p : Pull) : Answer :=
  match yield with
  | .tokens => ofExcept .token p.outcome
  | .extents => ofExcept .extent p.extent

/-- A list of readings, in the form that a reader hands out. -/
def ofPulls (yield : Yield) (ps : List Pull) : Answer :=
  match yield with
  | .tokens => ofExcept .tokens (ps.mapM Pull.outcome)
  | .extents => ofExcept .extents (ps.mapM Pull.extent)

end Answer

namespace Session

/-- A session with the lexer of a text. -/
def ofText (text : String) : Session := ⟨.ofText text.toList, []⟩

/-- The readers once one of them has made its last reading. -/
def finishReader (s : Session) (reader : Nat) (finished : Bool) : List Reader :=
  s.readers.modify reader ({ · with finished })

/-- Answers a request. -/
def reply (s : Session) : Request → Reply
  | .next =>
    let p := s.cursor.pull
    ⟨.ofPull .tokens p, [p], { s with cursor := p.cursor }⟩
  | .tokenize =>
    ⟨.ofPulls .tokens s.cursor.pulls, s.cursor.pulls, { s with cursor := s.cursor.drained }⟩
  | .peek => ⟨.char s.cursor.peek?, [], s⟩
  | .advance => ⟨.nothing, [], { s with cursor := s.cursor.advance }⟩
  | .skipBlanks => ⟨.nothing, [], { s with cursor := s.cursor.skipBlanks }⟩
  | .openReader yield =>
    ⟨.opened s.readers.length, [], { s with readers := s.readers ++ [⟨yield, false⟩] }⟩
  | .step i =>
    match s.readers[i]? with
    | some ⟨yield, false⟩ =>
      let p := s.cursor.pull
      ⟨.ofPull yield p, [p], ⟨p.cursor, s.finishReader i p.isLast⟩⟩
    | _ => ⟨.stopped, [], s⟩
  | .drain i =>
    match s.readers[i]? with
    | some ⟨yield, false⟩ =>
      ⟨.ofPulls yield s.cursor.pulls, s.cursor.pulls, ⟨s.cursor.drained, s.finishReader i true⟩⟩
    | some ⟨yield, true⟩ => ⟨.ofPulls yield [], [], s⟩
    | none => ⟨.stopped, [], s⟩

/-- The replies to requests made one after the other. -/
def replies (s : Session) : List Request → List Reply
  | [] => []
  | r :: rs => s.reply r :: (s.reply r).session.replies rs

/-- The session after requests made one after the other. -/
def after (s : Session) : List Request → Session
  | [] => s
  | r :: rs => (s.reply r).session.after rs

theorem length_replies (s : Session) (rs : List Request) : (s.replies rs).length = rs.length := by
  induction rs generalizing s with
  | nil => rfl
  | cons r rs ih => rw [replies, List.length_cons, List.length_cons, ih]

theorem replies_append (s : Session) (rs qs : List Request) :
    s.replies (rs ++ qs) = s.replies rs ++ (s.after rs).replies qs := by
  induction rs generalizing s with
  | nil => rfl
  | cons r rs ih => rw [List.cons_append, replies, ih, replies, after, List.cons_append]

theorem after_append (s : Session) (rs qs : List Request) :
    s.after (rs ++ qs) = (s.after rs).after qs := by
  induction rs generalizing s with
  | nil => rfl
  | cons r rs ih => rw [List.cons_append, after, ih, after]

end Session

end TokenStream
