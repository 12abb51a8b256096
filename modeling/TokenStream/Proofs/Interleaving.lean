import TokenStream.Lexer.Session
import TokenStream.Proofs.Reference

/-!
# Interleaved requests read one sequence

However the requests to one lexer are interleaved, the readings made for them
are the sequence of all readings, in order and without gaps, and which of them
answer a request depends only on how many were made before. What a session holds
is a function of the exchanges so far (`Follows`): the cursor of the number of
readings, the readers of the readings made for each of them. Main statements:
`Follows.step`, `Follows.serves` and `exchanges_read_in_order`.
-/

namespace TokenStream

namespace Request

/-- Does the request leave moving the cursor to readings? -/
def isReading : Request → Bool
  | advance | skipBlanks => false
  | _ => true

/-- The kind of the reader that the request opens. -/
def opens? : Request → Option Yield
  | openReader yield => some yield
  | _ => none

/-- The reader that the request asks. -/
def reader? : Request → Option Nat
  | step i | drain i => some i
  | _ => none

theorem opens?_of_reader? {r : Request} {i : Nat} (h : r.reader? = some i) : r.opens? = none := by
  cases r with
  | step | drain => rfl
  | _ => cases h

end Request

/-- A request with the reply to it. -/
structure Exchange where
  request : Request
  reply : Reply

namespace Exchange

/-- All readings made, in the order of time. -/
def pulls (h : List Exchange) : List Pull := h.flatMap fun e => e.reply.pulls

/-- The kinds of the readers opened, in the order of their numbers. -/
def opened (h : List Exchange) : List Yield := h.filterMap fun e => e.request.opens?

/-- The readings made for a reader. -/
def pullsOf (h : List Exchange) (i : Nat) : List Pull :=
  pulls (h.filter fun e => e.request.reader? = some i)

/-- Has a reader handed out the end of the text or met a refusal? -/
def ended (h : List Exchange) (i : Nat) : Bool := (pullsOf h i).any Pull.isLast

/-- The readers that were opened, each finished when it has ended. -/
def readers (h : List Exchange) : List Reader := (opened h).mapIdx fun i yield => ⟨yield, ended h i⟩

variable {h : List Exchange} {e : Exchange} {i : Nat}

theorem pulls_concat : pulls (h ++ [e]) = pulls h ++ e.reply.pulls := by
  simp [pulls]

theorem opened_concat : opened (h ++ [e]) = opened h ++ e.request.opens?.toList := by
  rw [opened, opened, List.filterMap_append]
  cases he : e.request.opens? <;> simp [he]

theorem pullsOf_concat : pullsOf (h ++ [e]) i = pullsOf h i ++ pullsOf [e] i := by
  rw [pullsOf, List.filter_append, pulls, List.flatMap_append]
  rfl

theorem pullsOf_singleton :
    pullsOf [e] i = if e.request.reader? = some i then e.reply.pulls else [] := by
  rw [pullsOf, List.filter_singleton]
  split <;> simp_all [pulls]

theorem ended_concat : ended (h ++ [e]) i = (ended h i || ended [e] i) := by
  rw [ended, pullsOf_concat, List.any_append]
  rfl

theorem getElem?_readers : (readers h)[i]? = (opened h)[i]?.map fun yield => ⟨yield, ended h i⟩ :=
  List.getElem?_mapIdx

end Exchange

open Exchange

namespace Session

/-- The requests with the replies to them. -/
def exchanges (s : Session) (rs : List Request) : List Exchange :=
  List.zipWith Exchange.mk rs (s.replies rs)

theorem exchanges_concat (s : Session) (rs : List Request) (r : Request) :
    s.exchanges (rs ++ [r]) = s.exchanges rs ++ [⟨r, (s.after rs).reply r⟩] := by
  rw [exchanges, replies_append, List.zipWith_append (s.length_replies rs).symm]
  rfl

variable {s : Session} {r : Request}

/-- A request is answered by reading on from the cursor. -/
theorem reply_reads (hr : r.isReading = true) :
    (s.reply r).pulls = (List.range (s.reply r).pulls.length).map s.cursor.nthPull ∧
      (s.reply r).session.cursor = s.cursor.afterPulls (s.reply r).pulls.length := by
  cases r with
  | next => exact ⟨rfl, rfl⟩
  | tokenize => exact ⟨s.cursor.pulls_eq_map, s.cursor.drained_eq⟩
  | peek | openReader => exact ⟨rfl, rfl⟩
  | advance | skipBlanks => cases hr
  | step i =>
    simp only [reply]
    split
    · exact ⟨rfl, rfl⟩
    · exact ⟨rfl, rfl⟩
  | drain i =>
    simp only [reply]
    split
    · exact ⟨s.cursor.pulls_eq_map, s.cursor.drained_eq⟩
    · exact ⟨rfl, rfl⟩
    · exact ⟨rfl, rfl⟩

/-- A reader that was not opened reads nothing. -/
theorem reply_of_not_opened {i : Nat} (hi : s.readers[i]? = none) (hr : r.reader? = some i) :
    s.reply r = ⟨.stopped, [], s⟩ := by
  cases r with
  | step j =>
    obtain rfl : j = i := Option.some.inj hr
    simp only [reply, hi]
  | drain j =>
    obtain rfl : j = i := Option.some.inj hr
    simp only [reply, hi]
  | _ => cases hr

/-- A request leaves the readers alone that it does not ask. -/
theorem getElem?_readers_reply_of_ne {i : Nat} (hr : r.isReading = true) (hi : r.reader? ≠ some i) :
    (s.reply r).session.readers[i]? = (s.readers ++ r.opens?.toList.map (⟨·, false⟩))[i]? := by
  cases r with
  | next | tokenize | peek => exact congrArg (·[i]?) (List.append_nil s.readers).symm
  | openReader => rfl
  | advance | skipBlanks => cases hr
  | step j =>
    have hij : j ≠ i := fun hij => hi (congrArg some hij)
    simp only [Request.opens?, Option.toList_none, List.map_nil, List.append_nil, reply]
    split
    · exact List.getElem?_modify_ne _ _ hij
    · rfl
  | drain j =>
    have hij : j ≠ i := fun hij => hi (congrArg some hij)
    simp only [Request.opens?, Option.toList_none, List.map_nil, List.append_nil, reply]
    split
    · exact List.getElem?_modify_ne _ _ hij
    · rfl
    · rfl

/-- A request finishes the reader that it asks when its readings end a run. -/
theorem getElem?_readers_reply_of_eq {i : Nat} (hi : r.reader? = some i) :
    (s.reply r).session.readers[i]? = s.readers[i]?.map fun reader =>
      { reader with finished := reader.finished || (s.reply r).pulls.any Pull.isLast } := by
  cases hreader : s.readers[i]? with
  | none =>
    rw [reply_of_not_opened hreader hi]
    exact hreader
  | some reader =>
    obtain ⟨yield, finished⟩ := reader
    cases r with
    | step j =>
      obtain rfl : j = i := Option.some.inj hi
      cases finished with
      | true => simp [reply, hreader]
      | false => simp [reply, hreader, finishReader]
    | drain j =>
      obtain rfl : j = i := Option.some.inj hi
      cases finished with
      | true => simp [reply, hreader]
      | false => simp [reply, hreader, finishReader, Cursor.any_isLast_pulls]
    | _ => cases hi

theorem getElem?_readers_reply (hr : r.isReading = true) (i : Nat) :
    (s.reply r).session.readers[i]? =
      (s.readers ++ r.opens?.toList.map (⟨·, false⟩))[i]?.map fun reader =>
        { reader with finished := reader.finished || ended [⟨r, s.reply r⟩] i } := by
  rw [ended, pullsOf_singleton]
  by_cases hi : r.reader? = some i
  · rw [if_pos hi, getElem?_readers_reply_of_eq hi, Request.opens?_of_reader? hi,
      Option.toList_none, List.map_nil, List.append_nil]
  · rw [if_neg hi, getElem?_readers_reply_of_ne hr hi]
    simp

end Session

/-- A reply that makes the `n`-th reading and hands it out. -/
def Reply.IsNext (reply : Reply) (R : Nat → Pull) (n : Nat) (yield : Yield) : Prop :=
  reply.pulls = [R n] ∧ reply.answer = .ofPull yield (R n)

/-- A reply that makes the readings from the `n`-th one up to the next one that
ends a run, and hands them out. -/
def Reply.IsRest (reply : Reply) (R : Nat → Pull) (n : Nat) (yield : Yield) : Prop :=
  IsStretch R n reply.pulls ∧ reply.answer = .ofPulls yield reply.pulls

/-- What the reply to a request must be after exchanges `h` that led to the session
`s`, given the readings in their order. A reader that has ended gets nothing, and
leaves the session as it is. -/
def Serves (R : Nat → Pull) (h : List Exchange) (s : Session) (reply : Reply) : Request → Prop
  | .next => reply.IsNext R (pulls h).length .tokens
  | .tokenize => reply.IsRest R (pulls h).length .tokens
  | .peek => reply.pulls = [] ∧ reply.session = s
  -- These two move the cursor without a reading.
  | .advance | .skipBlanks => True
  | .openReader _ =>
    reply.pulls = [] ∧ reply.answer = .opened (opened h).length ∧ reply.session.cursor = s.cursor
  | .step i => ∀ yield, (opened h)[i]? = some yield →
    if ended h i then reply = ⟨.stopped, [], s⟩
    else reply.IsNext R (pulls h).length yield
  | .drain i => ∀ yield, (opened h)[i]? = some yield →
    if ended h i then reply = ⟨.ofPulls yield [], [], s⟩
    else reply.IsRest R (pulls h).length yield

/-- What a session holds after exchanges that started with the cursor `c`. -/
structure Follows (c : Cursor) (h : List Exchange) (s : Session) : Prop where
  pulls_eq : pulls h = (List.range (pulls h).length).map c.nthPull
  cursor_eq : s.cursor = c.afterPulls (pulls h).length
  readers_eq : s.readers = readers h
  not_opened : ∀ i, (opened h).length ≤ i → pullsOf h i = []

namespace Follows

variable {c : Cursor} {h : List Exchange} {s : Session} {r : Request}

theorem nil (c : Cursor) : Follows c [] ⟨c, []⟩ := ⟨rfl, rfl, rfl, fun _ _ => rfl⟩

theorem getElem?_eq (hf : Follows c h s) (i : Nat) :
    s.readers[i]? = (opened h)[i]?.map fun yield => ⟨yield, ended h i⟩ := by
  rw [hf.readers_eq, getElem?_readers]

/-- A reading request keeps the session a function of the exchanges. -/
theorem step (hf : Follows c h s) (hr : r.isReading = true) :
    Follows c (h ++ [⟨r, s.reply r⟩]) (s.reply r).session := by
  obtain ⟨hpulls, hcursor⟩ := Session.reply_reads (s := s) hr
  have hlen : s.readers.length = (opened h).length := by
    rw [hf.readers_eq, readers, List.length_mapIdx]
  refine ⟨?_, ?_, List.ext_getElem? fun i => ?_, fun i hi => ?_⟩
  · -- The readings of the reply go on where those before end.
    rw [pulls_concat, List.length_append, List.range_add, List.map_append, List.map_map,
      ← hf.pulls_eq]
    refine congrArg (pulls h ++ ·) (hpulls.trans (List.map_congr_left fun k _ => ?_))
    rw [hf.cursor_eq, Cursor.nthPull_afterPulls]
    rfl
  · rw [pulls_concat, List.length_append, Cursor.afterPulls_add, ← hf.cursor_eq, hcursor]
  · rw [Session.getElem?_readers_reply hr, getElem?_readers, opened_concat, ended_concat]
    rcases Nat.lt_or_ge i (opened h).length with hi | hi
    · rw [List.getElem?_append_left (hlen ▸ hi), List.getElem?_append_left hi, hf.getElem?_eq,
        Option.map_map]
      rfl
    · -- A reader that is opened now has read nothing before.
      have hended : ended h i = false := by rw [ended, hf.not_opened i hi, List.any_nil]
      rw [List.getElem?_append_right (hlen ▸ hi), List.getElem?_append_right hi, hlen,
        List.getElem?_map, Option.map_map, hended]
      rfl
  · rw [opened_concat, List.length_append] at hi
    have hi' : (opened h).length ≤ i := Nat.le_trans (Nat.le_add_right _ _) hi
    rw [pullsOf_concat, hf.not_opened i hi', pullsOf_singleton, List.nil_append]
    split
    · have hreader : s.readers[i]? = none := List.getElem?_eq_none (hlen ▸ hi')
      rw [Session.reply_of_not_opened hreader ‹_›]
    · rfl

/-- Every reading request is served from the sequence of all readings. -/
theorem serves (hf : Follows c h s) (r : Request) : Serves c.nthPull h s (s.reply r) r := by
  have hnext : s.cursor.pull = c.nthPull (pulls h).length := by rw [hf.cursor_eq, Cursor.nthPull]
  have hstretch : IsStretch c.nthPull (pulls h).length s.cursor.pulls := by
    rw [hf.cursor_eq]
    exact c.isStretch_pulls_afterPulls _
  cases r with
  | next =>
    show [s.cursor.pull] = _ ∧ Answer.ofPull .tokens s.cursor.pull = _
    rw [hnext]
    exact ⟨rfl, rfl⟩
  | tokenize => exact ⟨hstretch, rfl⟩
  | peek => exact ⟨rfl, rfl⟩
  | advance | skipBlanks => trivial
  | openReader yield =>
    refine ⟨rfl, ?_, rfl⟩
    show Answer.opened s.readers.length = _
    rw [hf.readers_eq, readers, List.length_mapIdx]
  | step i =>
    intro yield hyield
    have hreader := hf.getElem?_eq i
    rw [hyield, Option.map_some] at hreader
    cases hended : ended h i with
    | true => simp only [Session.reply, hreader, hended, if_true]
    | false => simp [Session.reply, Reply.IsNext, hreader, hended, hnext]
  | drain i =>
    intro yield hyield
    have hreader := hf.getElem?_eq i
    rw [hyield, Option.map_some] at hreader
    cases hended : ended h i with
    | true => simp only [Session.reply, hreader, hended, if_true]
    | false =>
      simp only [Session.reply, hreader, hended, Bool.false_eq_true, if_false]
      exact ⟨hstretch, rfl⟩

end Follows

/-- By induction on the requests, the last of which is one more step. -/
theorem follows_exchanges (c : Cursor) (rs : List Request) (h : ∀ r ∈ rs, r.isReading = true) :
    Follows c (Session.exchanges ⟨c, []⟩ rs) (Session.after ⟨c, []⟩ rs) := by
  induction rs using List.reverseRecOn with
  | nil => exact .nil c
  | append_singleton rs r ih =>
    have hf := ih fun q hq => h q (List.mem_append_left _ hq)
    rw [Session.exchanges_concat, Session.after_append]
    exact hf.step (h r (by simp))

/-- However requests to the lexer of a text are interleaved, the readings made for
them are the first ones of the sequence of all readings, and leave the cursor
where that many readings do. Every request is served from the sequence, which ends
in nothing but the end of the text, and every extent in it is the place of its
token. -/
theorem exchanges_read_in_order (text : String) (rs : List Request)
    (h : ∀ r ∈ rs, r.isReading = true) :
    let s := Session.ofText text
    let R := (Cursor.ofText text.toList).nthPull
    (∃ N, ∀ n, N ≤ n → (R n).outcome = .ok .eof) ∧
      pulls (s.exchanges rs) = (List.range (pulls (s.exchanges rs)).length).map R ∧
      (s.after rs).cursor = s.cursor.afterPulls (pulls (s.exchanges rs)).length ∧
      (∀ before r behind, rs = before ++ r :: behind →
        Serves R (s.exchanges before) (s.after before) ((s.after before).reply r) r) ∧
      ∀ n e, (R n).extent = .ok e → e.IsPlace text.toList := by
  intro s R
  have hf := follows_exchanges (.ofText text.toList) rs h
  refine ⟨?_, hf.pulls_eq, hf.cursor_eq, ?_, fun n e he => ?_⟩
  · exact Cursor.eventually_eof text.toList.toArray 0
  · rintro before r behind rfl
    have hf := follows_exchanges (.ofText text.toList) before fun q hq =>
      h q (List.mem_append_left _ hq)
    exact hf.serves r
  · exact Cursor.isPlace_nthPull he

/-- Of two readers, one meets the end and stops, while the other goes on. -/
theorem exchanges_read_in_order_two_readers :
    let s := Session.ofText "a 1"
    let before := [.openReader .tokens, .openReader .extents, .step 0, .step 1, .step 0]
    (∀ r ∈ before ++ [.step 0], r.isReading = true) ∧ ended (s.exchanges before) 0 = true ∧
      (s.after before).reply (.step 0) = ⟨.stopped, [], s.after before⟩ := by
  intro s before
  have hreading : ∀ r ∈ before ++ [.step 0], r.isReading = true := by decide
  have hended : ended (s.exchanges before) 0 = true := by decide +kernel
  obtain ⟨-, -, -, hserves, -⟩ := exchanges_read_in_order "a 1" _ hreading
  have hstep := hserves before (.step 0) [] rfl .tokens (by decide +kernel)
  rw [if_pos hended] at hstep
  exact ⟨hreading, hended, hstep⟩

end TokenStream
