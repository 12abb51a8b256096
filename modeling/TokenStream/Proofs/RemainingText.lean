import TokenStream.Lexer.Session
import TokenStream.Proofs.Reference

/-!
# Only the text that is left matters

A cursor of the rest of a text can be seen as a cursor of the whole text: it
stands further on by the characters in front of the rest (`Cursor.within`). It
reads the same tokens, at places that are further on as well. So whatever a
session was asked before, also where that left its cursor within a token or past
the end, it goes on like a new session with the text that is left. Main
statements: `Cursor.pull_within` for one reading, `Session.reply_within` for one
request, and `future_of_remaining_text` for all that can follow.
-/

namespace TokenStream

/-- The same token in a text that has more characters in front. -/
def Extent.shift (n : Nat) (e : Extent) : Extent := ⟨n + e.start, n + e.stop, e.token⟩

def Overflow.shift (n : Nat) (o : Overflow) : Overflow := ⟨o.digits, n + o.offset⟩

/-- A cursor of the text behind an offset, as a cursor of the whole text. -/
def Cursor.within (source : Array Char) (p : Nat) (c : Cursor) : Cursor :=
  ⟨source, p + c.position, p + c.ahead, c.current?⟩

def Pull.within (source : Array Char) (p : Nat) (q : Pull) : Pull :=
  ⟨q.outcome, q.cursor.within source p, q.overflow?.map (Overflow.shift p)⟩

@[simp] theorem Pull.isLast_within (source : Array Char) (p : Nat) (q : Pull) :
    (q.within source p).isLast = q.isLast := rfl

theorem Pull.extent_within (source : Array Char) (p : Nat) (q : Pull) :
    (q.within source p).extent = q.extent.map (Extent.shift p) := by
  cases h : q.outcome with
  | error e => simp only [Pull.extent, Pull.within, h, Except.map]
  | ok t =>
    simp only [Pull.extent, Pull.within, h, Except.map, Extent.shift, Cursor.within,
      Except.ok.injEq, Extent.mk.injEq, Int.natCast_add, and_self, and_true]
    omega

/-- The overflow of a lexeme is recorded further on when its text is. -/
theorem overflowOf?_add (p start : Nat) (raw : List Char) :
    overflowOf? (p + start) raw = (overflowOf? start raw).map (Overflow.shift p) := by
  unfold overflowOf?
  split <;> rfl

namespace Cursor

/-! ## Cursors of a text -/

/-- Does the cursor stand at an offset of the text, within it or past its end? -/
def IsIn (c : Cursor) (source : Array Char) : Prop := ∃ p, c = atOffset source p

variable {source : Array Char} {c : Cursor}

theorem isIn_ofText (text : List Char) : (ofText text).IsIn text.toArray := ⟨0, rfl⟩

theorem IsIn.eq_atOffset (h : c.IsIn source) : c = atOffset source c.position := by
  obtain ⟨p, rfl⟩ := h
  rfl

theorem IsIn.advance (h : c.IsIn source) : c.advance.IsIn source := by
  obtain ⟨p, rfl⟩ := h
  exact ⟨p + 1, rfl⟩

theorem IsIn.skipBlanks (h : c.IsIn source) : c.skipBlanks.IsIn source := by
  obtain ⟨p, rfl⟩ := h
  exact ⟨_, advanceWhile_atOffset isBlank source p⟩

theorem IsIn.pull (h : c.IsIn source) : c.pull.cursor.IsIn source := by
  obtain ⟨p, rfl⟩ := h
  rw [pull_atOffset]
  exact ⟨_, rfl⟩

theorem IsIn.afterPulls (h : c.IsIn source) (n : Nat) : (c.afterPulls n).IsIn source := by
  induction n generalizing c with
  | zero => exact h
  | succ n ih => exact ih h.pull

theorem IsIn.drained (h : c.IsIn source) : c.drained.IsIn source := by
  rw [drained_eq]
  exact h.afterPulls _

/-! ## Reading the rest of a text -/

section Within

variable {p : Nat}

theorem atOffset_within (source : Array Char) (p q : Nat) :
    (atOffset (source.toList.drop p).toArray q).within source p = atOffset source (p + q) := by
  have hcurrent : (source.toList.drop p).toArray[q]? = source[p + q]? := by simp
  simp only [atOffset, within, hcurrent, Nat.add_assoc]

theorem peek?_within (h : c.IsIn (source.toList.drop p).toArray) :
    (c.within source p).peek? = c.peek? := by
  obtain ⟨q, rfl⟩ := h
  rw [atOffset_within, peek?_atOffset, peek?_atOffset, List.toList_toArray, List.drop_drop]

theorem advance_within (h : c.IsIn (source.toList.drop p).toArray) :
    (c.within source p).advance = c.advance.within source p := by
  obtain ⟨q, rfl⟩ := h
  rw [atOffset_within, advance_atOffset, advance_atOffset, atOffset_within, Nat.add_assoc]

theorem skipBlanks_within (h : c.IsIn (source.toList.drop p).toArray) :
    (c.within source p).skipBlanks = c.skipBlanks.within source p := by
  obtain ⟨q, rfl⟩ := h
  rw [skipBlanks, skipBlanks, atOffset_within, advanceWhile_atOffset, advanceWhile_atOffset,
    atOffset_within, List.toList_toArray, List.drop_drop, Nat.add_assoc]

/-- What is read next depends on the text that is left and not on what is in
front of it: no more than the place moves. -/
theorem pull_within (h : c.IsIn (source.toList.drop p).toArray) :
    (c.within source p).pull = c.pull.within source p := by
  obtain ⟨q, rfl⟩ := h
  rw [atOffset_within, pull_atOffset, pull_atOffset]
  simp only [List.drop_drop, Pull.within, atOffset_within, Nat.add_assoc,
    overflowOf?_add]

theorem afterPulls_within (h : c.IsIn (source.toList.drop p).toArray) (n : Nat) :
    (c.within source p).afterPulls n = (c.afterPulls n).within source p := by
  induction n generalizing c with
  | zero => rfl
  | succ n ih =>
    rw [afterPulls, pull_within h]
    exact ih h.pull

theorem nthPull_within (h : c.IsIn (source.toList.drop p).toArray) (n : Nat) :
    (c.within source p).nthPull n = (c.nthPull n).within source p := by
  rw [nthPull, afterPulls_within h, pull_within (h.afterPulls n)]
  rfl

/-- By induction on what is left to read. -/
theorem pulls_within {c : Cursor} (h : c.IsIn (source.toList.drop p).toArray) :
    (c.within source p).pulls = c.pulls.map (Pull.within source p) := by
  rw [pulls_eq, pulls_eq c, pull_within h, Pull.isLast_within]
  cases hlast : c.pull.isLast with
  | true => rfl
  | false =>
    have := remaining_pull_lt hlast
    exact congrArg _ (pulls_within h.pull)
termination_by c.remaining

theorem drained_within (h : c.IsIn (source.toList.drop p).toArray) :
    (c.within source p).drained = c.drained.within source p := by
  rw [drained_eq, drained_eq, pulls_within h, List.length_map, afterPulls_within h]

end Within

end Cursor

/-! ## Sessions with the rest of a text -/

/-- The same request where other readers were opened before. -/
def Request.renumber (k : Nat) : Request → Request
  | step i => step (k + i)
  | drain i => drain (k + i)
  | r => r

namespace Answer

/-- The same answer where other readers were opened before, and other characters
are in front of the text. -/
def within (k p : Nat) : Answer → Answer
  | opened i => opened (k + i)
  | extent e => extent (e.shift p)
  | extents es => extents (es.map (Extent.shift p))
  | a => a

theorem ofPull_within (source : Array Char) (k p : Nat) (yield : Yield) (q : Pull) :
    ofPull yield (q.within source p) = (ofPull yield q).within k p := by
  cases yield with
  | tokens =>
    show ofExcept token q.outcome = (ofExcept token q.outcome).within k p
    cases q.outcome <;> rfl
  | extents =>
    show ofExcept extent (q.within source p).extent = (ofExcept extent q.extent).within k p
    rw [Pull.extent_within]
    cases q.extent <;> rfl

theorem mapM_extent_within (source : Array Char) (p : Nat) (qs : List Pull) :
    (qs.map (Pull.within source p)).mapM Pull.extent =
      (qs.mapM Pull.extent).map (List.map (Extent.shift p)) := by
  induction qs with
  | nil => rfl
  | cons q qs ih =>
    rw [List.map_cons, List.mapM_cons, List.mapM_cons, ih, Pull.extent_within]
    cases q.extent with
    | error => rfl
    | ok => cases qs.mapM Pull.extent <;> rfl

theorem ofPulls_within (source : Array Char) (k p : Nat) (yield : Yield) (qs : List Pull) :
    ofPulls yield (qs.map (Pull.within source p)) = (ofPulls yield qs).within k p := by
  cases yield with
  | tokens =>
    show ofExcept tokens ((qs.map (Pull.within source p)).mapM Pull.outcome) = _
    rw [List.mapM_map]
    show ofExcept tokens (qs.mapM Pull.outcome) =
      (ofExcept tokens (qs.mapM Pull.outcome)).within k p
    cases qs.mapM Pull.outcome <;> rfl
  | extents =>
    show ofExcept extents ((qs.map (Pull.within source p)).mapM Pull.extent) =
      (ofExcept extents (qs.mapM Pull.extent)).within k p
    rw [mapM_extent_within]
    cases qs.mapM Pull.extent <;> rfl

end Answer

/-- A session with the rest of a text, as one with the whole text in which other
readers were opened before. -/
def Session.within (source : Array Char) (p : Nat) (before : List Reader) (t : Session) : Session :=
  ⟨t.cursor.within source p, before ++ t.readers⟩

def Reply.within (source : Array Char) (p : Nat) (before : List Reader) (r : Reply) : Reply :=
  ⟨r.answer.within before.length p, r.pulls.map (Pull.within source p),
    r.session.within source p before⟩

theorem modify_append_right {α : Type} (xs ys : List α) (i : Nat) (f : α → α) :
    (xs ++ ys).modify (xs.length + i) f = xs ++ ys.modify i f := by
  induction xs with
  | nil => rw [List.length_nil, Nat.zero_add, List.nil_append, List.nil_append]
  | cons x xs ih =>
    rw [List.length_cons, Nat.succ_add, List.cons_append, List.modify_succ_cons, ih,
      List.cons_append]

namespace Session

variable {source : Array Char} {s t : Session}

/-- No request takes the cursor out of its text. -/
theorem isIn_reply (h : s.cursor.IsIn source) (r : Request) :
    (s.reply r).session.cursor.IsIn source := by
  cases r with
  | next => exact h.pull
  | tokenize => exact h.drained
  | peek | openReader => exact h
  | advance => exact h.advance
  | skipBlanks => exact h.skipBlanks
  | step i =>
    simp only [reply]
    split
    · exact h.pull
    · exact h
  | drain i =>
    simp only [reply]
    split
    · exact h.drained
    · exact h
    · exact h

theorem isIn_after (h : s.cursor.IsIn source) (rs : List Request) :
    (s.after rs).cursor.IsIn source := by
  induction rs generalizing s with
  | nil => exact h
  | cons r rs ih => exact ih (isIn_reply h r)

variable {p : Nat}

/-- A request is answered as by a session with the rest of the text. -/
theorem reply_within (h : t.cursor.IsIn (source.toList.drop p).toArray) (before : List Reader)
    (r : Request) :
    (t.within source p before).reply (r.renumber before.length) =
      (t.reply r).within source p before := by
  -- The readers that were opened before keep their numbers.
  have hreader : ∀ i, (before ++ t.readers)[before.length + i]? = t.readers[i]? := fun i => by
    rw [List.getElem?_append_right (Nat.le_add_right _ _), Nat.add_sub_cancel_left]
  cases r with
  | next =>
    simp only [Request.renumber, reply, within, Cursor.pull_within h,
      Answer.ofPull_within source before.length]
    rfl
  | tokenize =>
    simp only [Request.renumber, reply, within, Cursor.pulls_within h, Cursor.drained_within h,
      Answer.ofPulls_within source before.length]
    rfl
  | peek =>
    simp only [Request.renumber, reply, within, Cursor.peek?_within h]
    rfl
  | advance =>
    simp only [Request.renumber, reply, within, Cursor.advance_within h]
    rfl
  | skipBlanks =>
    simp only [Request.renumber, reply, within, Cursor.skipBlanks_within h]
    rfl
  | openReader yield =>
    simp only [Request.renumber, reply, within, List.length_append, List.append_assoc]
    rfl
  | step i =>
    simp only [Request.renumber, reply, within, hreader]
    split
    · simp only [Cursor.pull_within h, Answer.ofPull_within source before.length, finishReader,
        modify_append_right]
      rfl
    · rfl
  | drain i =>
    simp only [Request.renumber, reply, within, hreader]
    split
    · simp only [Cursor.pulls_within h, Cursor.drained_within h,
        Answer.ofPulls_within source before.length, finishReader, modify_append_right]
      rfl
    · rename_i yield _
      cases yield <;> rfl
    · rfl

theorem replies_within (h : t.cursor.IsIn (source.toList.drop p).toArray) (before : List Reader)
    (qs : List Request) :
    (t.within source p before).replies (qs.map (.renumber before.length)) =
      (t.replies qs).map (Reply.within source p before) := by
  induction qs generalizing t with
  | nil => rfl
  | cons q qs ih =>
    rw [List.map_cons, replies, reply_within h, replies, List.map_cons]
    exact congrArg _ (ih (isIn_reply h q))

end Session

/-- Whatever was asked of the lexer of a text before, it goes on like the lexer of the
text behind its cursor: it reads the same tokens and refusals, and the cursor, the
extents and all other offsets are further on by where it stood. -/
theorem future_of_remaining_text (text : String) (rs : List Request) :
    let s := (Session.ofText text).after rs
    let p := s.cursor.position
    let fresh := Session.ofText (.ofList (text.toList.drop p))
    (∀ n, (s.cursor.nthPull n).outcome = (fresh.cursor.nthPull n).outcome ∧
      (s.cursor.nthPull n).cursor.position = p + (fresh.cursor.nthPull n).cursor.position) ∧
    (s.cursor.pulls.map Pull.extent =
      fresh.cursor.pulls.map fun q => q.extent.map (Extent.shift p)) ∧
    ∀ qs : List Request, s.replies (qs.map (.renumber s.readers.length)) =
      (fresh.replies qs).map (Reply.within text.toList.toArray p s.readers) := by
  intro s p fresh
  have hs : s.cursor.IsIn text.toList.toArray :=
    Session.isIn_after (Cursor.isIn_ofText text.toList) rs
  have hrest : fresh.cursor = Cursor.atOffset (text.toList.drop p).toArray 0 := by
    show Cursor.ofText (String.ofList (text.toList.drop p)).toList = _
    rw [String.toList_ofList, Cursor.ofText_eq]
  have hin : fresh.cursor.IsIn (text.toList.toArray.toList.drop p).toArray := ⟨0, hrest⟩
  have hcursor : s.cursor = fresh.cursor.within text.toList.toArray p := by
    rw [hs.eq_atOffset, hrest]
    exact (Cursor.atOffset_within text.toList.toArray p 0).symm
  refine ⟨fun n => ?_, ?_, fun qs => ?_⟩
  · rw [hcursor, Cursor.nthPull_within hin]
    exact ⟨rfl, rfl⟩
  · rw [hcursor, Cursor.pulls_within hin, List.map_map]
    exact List.map_congr_left fun q _ => q.extent_within text.toList.toArray p
  · have hsession : s = fresh.within text.toList.toArray p s.readers := by
      show s = ⟨fresh.cursor.within _ p, s.readers ++ []⟩
      rw [← hcursor, List.append_nil]
    rw [← Session.replies_within hin, ← hsession]

/-- A lexer that is moved into an operator reads what is left of it. -/
example :
    let s := (Session.ofText "a !=1").after [.next, .skipBlanks, .advance]
    s.cursor.position = 3 ∧ s.cursor.pull.extent = .ok ⟨3, 4, ⟨.assign, .absent, "="⟩⟩ := by
  decide +kernel

end TokenStream
