import Mathlib.Logic.Function.Iterate
import TokenStream.Proofs.Interleaving
import TokenStream.Proofs.Refusals

/-!
# The cursor only moves on

Whatever is asked of a lexer, its cursor stays a cursor of its text, with the offset that is
read next and the character under it in step, and it never goes back. A reading of a token or a
refused one takes it on by at least the characters that were read, so every loop of the lexer
comes to an end; a reading of the end of the text leaves it where no reading moves it again. As
long as it is moved by readings alone, it stays within the text. Main statements:
`Cursor.advanceWhile_ends` for a loop, `Cursor.movesOn_pull` for one reading,
`Cursor.length_pulls_le` for all of them, `Session.position_le_reply` for one request, and
`requests_move_on` for any number of them.
-/

namespace TokenStream

namespace Cursor

variable {source : Array Char} {p : Nat} {c : Cursor}

theorem IsIn.source_eq (h : c.IsIn source) : c.source = source := by
  obtain ⟨p, rfl⟩ := h
  rfl

theorem IsIn.isConsistent (h : c.IsIn source) : c.IsConsistent := by
  obtain ⟨p, rfl⟩ := h
  exact isConsistent_atOffset source p

/-! ## Loops -/

/-- The loop that moves a cursor on while the character under it has a property comes to an end:
after a number of rounds, each of them at such a character, there is none, and the text has at
least as many characters as there are rounds. -/
def Ends (q : Char → Bool) (c : Cursor) : Prop :=
  ∃ n ≤ c.source.size - c.position,
    (∀ k < n, ∃ ch, (advance^[k] c).current? = some ch ∧ q ch = true) ∧
    (∀ ch, (advance^[n] c).current? = some ch → q ch = false) ∧
    c.advanceWhile q = advance^[n] c

theorem iterate_advance_atOffset (source : Array Char) (p n : Nat) :
    advance^[n] (atOffset source p) = atOffset source (p + n) := by
  induction n with
  | zero => rfl
  | succ n ih => rw [Function.iterate_succ_apply', ih, advance_atOffset, Nat.add_assoc]

/-- The rounds are the characters of the run behind the cursor. -/
theorem advanceWhile_ends (hc : c.IsConsistent) (q : Char → Bool) : c.Ends q := by
  rw [hc.eq_atOffset]
  generalize c.source = source
  generalize c.position = p
  have hrun : (source.toList.drop p).takeWhile q <+: source.toList.drop p :=
    List.takeWhile_prefix q
  refine ⟨((source.toList.drop p).takeWhile q).length, ?_, fun k hk => ?_, fun ch hch => ?_, ?_⟩
  · have hsize : source.toList.length = source.size := Array.length_toList
    have hle := hrun.length_le
    rwa [List.length_drop, hsize] at hle
  · refine ⟨((source.toList.drop p).takeWhile q)[k], ?_, of_mem_takeWhile (List.getElem_mem hk)⟩
    rw [iterate_advance_atOffset, current?_atOffset, ← List.drop_drop, List.head?_drop,
      hrun.getElem hk, List.getElem?_eq_getElem]
  · rw [iterate_advance_atOffset, current?_atOffset, ← List.drop_drop,
      drop_length_takeWhile] at hch
    exact not_of_mem_head?_dropWhile hch
  · rw [advanceWhile_atOffset, iterate_advance_atOffset]

/-! ## One reading -/

/-- A cursor at the end of its text: a reading finds the end and leaves the cursor as it is. -/
def IsSpent (c : Cursor) : Prop := c.pull = ⟨.ok .eof, c, none⟩

/-- What a reading does to the place of a cursor: it takes the cursor on by at least the raw text
of a token, which is not empty, and by something if it is refused, but not out of the text. A
reading of the end spends the cursor. -/
structure MovesOn (c : Cursor) (q : Pull) : Prop where
  within : q.cursor.position ≤ max c.position c.source.size
  token : ∀ t, q.outcome = .ok t → t.kind ≠ .eof →
    1 ≤ t.raw.length ∧ c.position + t.raw.length ≤ q.cursor.position
  refused : ∀ e, q.outcome = .error e → c.position < q.cursor.position
  ended : ∀ t, q.outcome = .ok t → t.kind = .eof →
    t = .eof ∧ q.cursor.position = max c.position c.source.size ∧ q.cursor.IsSpent

/-- Behind the text there is nothing to read. -/
theorem isSpent_atOffset (h : source.size ≤ p) : (atOffset source p).IsSpent := by
  have hdrop : source.toList.drop p = [] := List.drop_eq_nil_of_le h
  rw [IsSpent, pull_atOffset, hdrop]
  rfl

/-- Where nothing but blanks is left, a reading finds the end and leaves the cursor there. -/
theorem pull_of_blanks (h : (source.toList.drop p).dropWhile isBlank = []) :
    (atOffset source p).pull = ⟨.ok .eof, atOffset source (max p source.size), none⟩ := by
  have hblanks := List.takeWhile_append_dropWhile (p := isBlank) (l := source.toList.drop p)
  rw [h, List.append_nil] at hblanks
  have hend : p + (source.size - p) = max p source.size := by omega
  rw [pull_atOffset, h, hblanks, List.length_drop, Array.length_toList, hend]
  rfl

theorem movesOn_of_blanks (h : (source.toList.drop p).dropWhile isBlank = []) :
    (atOffset source p).MovesOn (atOffset source p).pull := by
  rw [pull_of_blanks h]
  refine ⟨le_rfl, fun t ht hk => ?_, fun e he => ?_, fun t ht _ => ⟨?_, rfl, ?_⟩⟩
  · obtain rfl := Except.ok.inj ht
    exact absurd rfl hk
  · contradiction
  · exact (Except.ok.inj ht).symm
  · exact isSpent_atOffset (le_max_right p source.size)

/-- A lexeme is at least one character, and it is a token of its own or refused. -/
theorem movesOn_of_lexeme (h : (source.toList.drop p).dropWhile isBlank ≠ []) :
    (atOffset source p).MovesOn (atOffset source p).pull := by
  have hfits := length_blanks_munch_le (source.toList.drop p)
  have hsize : source.toList.length = source.size := Array.length_toList
  rw [List.length_drop, hsize] at hfits
  have hlexeme := (shape_munch h fun _ => not_of_mem_head?_dropWhile).lexeme
  have hpos := List.length_pos_of_ne_nil hlexeme.shape.ne_nil
  rw [pull_atOffset]
  generalize ((source.toList.drop p).takeWhile isBlank).length = blanks at hfits ⊢
  generalize munch ((source.toList.drop p).dropWhile isBlank) = raw at *
  have htoken : ∀ t, outcomeOf raw = .ok t → t = Token.ofLexeme raw := by
    intro t ht
    rw [outcomeOf] at ht
    split at ht
    · contradiction
    · exact (Except.ok.inj ht).symm
  constructor
  · show p + blanks + raw.length ≤ max p source.size
    omega
  · intro t ht _
    have hlength : t.raw.length = raw.length := by
      rw [htoken t ht, ← String.length_toList, hlexeme.toList_raw]
    show 1 ≤ t.raw.length ∧ p + t.raw.length ≤ p + blanks + raw.length
    omega
  · intro e _
    show p < p + blanks + raw.length
    omega
  · intro t ht hk
    rw [htoken t ht] at hk
    exact absurd hk hlexeme.kind_ne_eof

theorem movesOn_pull (hc : c.IsConsistent) : c.MovesOn c.pull := by
  rw [hc.eq_atOffset]
  by_cases h : (c.source.toList.drop c.position).dropWhile isBlank = []
  · exact movesOn_of_blanks h
  · exact movesOn_of_lexeme h

theorem position_le_pull (hc : c.IsConsistent) : c.position ≤ c.pull.cursor.position := by
  have hmoves := movesOn_pull hc
  cases hout : c.pull.outcome with
  | error e => exact (hmoves.refused e hout).le
  | ok t =>
    by_cases hk : t.kind = .eof
    · have hend := (hmoves.ended t hout hk).2.1
      omega
    · have htoken := (hmoves.token t hout hk).2
      omega

/-- A reading that is not the last one takes the cursor on, but not past the end. -/
theorem position_pull_of_not_isLast (hc : c.IsConsistent) (h : c.pull.isLast = false) :
    c.position < c.pull.cursor.position ∧ c.pull.cursor.position ≤ c.source.size := by
  have hmoves := movesOn_pull hc
  have hwithin := hmoves.within
  cases hout : c.pull.outcome with
  | error e => simp [Pull.isLast, hout] at h
  | ok t =>
    have hk : t.kind ≠ .eof := by simpa [Pull.isLast, hout] using h
    have htoken := hmoves.token t hout hk
    omega

/-! ## All readings -/

/-- There are no more readings up to the end than characters, and one for the end: by induction
on what is left to read. -/
theorem length_pulls_le {c : Cursor} (hc : c.IsIn source) :
    c.pulls.length ≤ source.size - c.position + 1 := by
  rw [pulls_eq]
  cases h : c.pull.isLast with
  | true => exact Nat.le_add_left 1 _
  | false =>
    have := remaining_pull_lt h
    have hrest := length_pulls_le hc.pull
    have hmoves := position_pull_of_not_isLast hc.isConsistent h
    rw [hc.source_eq] at hmoves
    rw [if_neg Bool.false_ne_true, List.length_cons]
    omega
termination_by c.remaining

theorem position_le_afterPulls (hc : c.IsIn source) (n : Nat) :
    c.position ≤ (c.afterPulls n).position := by
  induction n generalizing c with
  | zero => exact le_rfl
  | succ n ih => exact (position_le_pull hc.isConsistent).trans (ih hc.pull)

/-! ## At the end -/

theorem IsSpent.afterPulls (h : c.IsSpent) (n : Nat) : c.afterPulls n = c := by
  induction n with
  | zero => rfl
  | succ n ih => rw [Cursor.afterPulls, h, ih]

theorem IsSpent.nthPull (h : c.IsSpent) (n : Nat) : c.nthPull n = ⟨.ok .eof, c, none⟩ := by
  rw [Cursor.nthPull, h.afterPulls, h]

end Cursor

/-! ## Requests -/

namespace Session

variable {source : Array Char} {s : Session} {r : Request}

/-- No request takes the cursor back. -/
theorem position_le_reply (h : s.cursor.IsIn source) (r : Request) :
    s.cursor.position ≤ (s.reply r).session.cursor.position := by
  cases hr : r.isReading with
  | true =>
    rw [(reply_reads hr).2]
    exact Cursor.position_le_afterPulls h _
  | false =>
    obtain ⟨p, hp⟩ := h
    cases r with
    | advance =>
      show s.cursor.position ≤ s.cursor.advance.position
      rw [hp, Cursor.advance_atOffset]
      exact Nat.le_succ p
    | skipBlanks =>
      show s.cursor.position ≤ s.cursor.skipBlanks.position
      rw [hp, Cursor.skipBlanks, Cursor.advanceWhile_atOffset]
      exact Nat.le_add_right p _
    | _ => cases hr

theorem position_le_after (h : s.cursor.IsIn source) (qs : List Request) :
    s.cursor.position ≤ (s.after qs).cursor.position := by
  induction qs generalizing s with
  | nil => exact le_rfl
  | cons q qs ih => exact (position_le_reply h q).trans (ih (isIn_reply h q))

/-- A reading request keeps the cursor within the text. -/
theorem position_reply_le (h : s.cursor.IsIn source) (hr : r.isReading = true)
    (hp : s.cursor.position ≤ source.toList.length) :
    (s.reply r).session.cursor.position ≤ source.toList.length := by
  obtain ⟨q, hq, hafter⟩ := Cursor.exists_afterPulls hp (s.reply r).pulls.length
  rw [(reply_reads hr).2, h.eq_atOffset, hafter]
  exact hq

theorem position_after_le (h : s.cursor.IsIn source) {rs : List Request}
    (hrs : ∀ r ∈ rs, r.isReading = true) (hp : s.cursor.position ≤ source.toList.length) :
    (s.after rs).cursor.position ≤ source.toList.length := by
  induction rs generalizing s with
  | nil => exact hp
  | cons r rs ih =>
    obtain ⟨hr, hrs⟩ := List.forall_mem_cons.1 hrs
    exact ih (isIn_reply h r) hrs (position_reply_le h hr hp)

/-- A request that meets the end spends the cursor: the readings behind it leave it there. -/
theorem isSpent_reply (h : s.cursor.IsIn source) (hr : r.isReading = true)
    (hp : s.cursor.position ≤ source.toList.length)
    (heof : ∃ q ∈ (s.reply r).pulls, q.outcome = .ok .eof) :
    (s.reply r).session.cursor.IsSpent ∧
      (s.reply r).session.cursor.position = source.toList.length := by
  obtain ⟨hpulls, hcursor⟩ := reply_reads (s := s) hr
  obtain ⟨q, hq, hout⟩ := heof
  rw [hpulls] at hq
  obtain ⟨k, hk, rfl⟩ := List.mem_map.1 hq
  obtain ⟨m, hm⟩ := Nat.exists_eq_add_of_le (Nat.succ_le_of_lt (List.mem_range.1 hk))
  have hbefore := h.afterPulls k
  obtain ⟨p, hple, hafter⟩ := Cursor.exists_afterPulls hp k
  rw [← h.eq_atOffset] at hafter
  obtain ⟨-, hposition, hspent⟩ :=
    (Cursor.movesOn_pull hbefore.isConsistent).ended _ hout rfl
  have hend : (s.reply r).session.cursor = (s.cursor.afterPulls k).pull.cursor := by
    rw [hcursor, hm, Cursor.afterPulls_add, ← Cursor.cursor_nthPull]
    exact hspent.afterPulls m
  rw [hend]
  refine ⟨hspent, ?_⟩
  rw [hposition, hbefore.source_eq, hafter]
  exact max_eq_right hple

/-- Where the cursor is spent, a reading request finds the end and leaves the cursor alone. -/
theorem reply_of_isSpent (h : s.cursor.IsSpent) (hr : r.isReading = true) :
    (s.reply r).session.cursor = s.cursor ∧
      ∀ q ∈ (s.reply r).pulls, q = ⟨.ok .eof, s.cursor, none⟩ := by
  obtain ⟨hpulls, hcursor⟩ := reply_reads (s := s) hr
  refine ⟨hcursor.trans (h.afterPulls _), fun q hq => ?_⟩
  rw [hpulls] at hq
  obtain ⟨k, -, rfl⟩ := List.mem_map.1 hq
  exact h.nthPull k

theorem after_of_isSpent (h : s.cursor.IsSpent) {qs : List Request}
    (hqs : ∀ r ∈ qs, r.isReading = true) :
    (s.after qs).cursor = s.cursor ∧
      ∀ reply ∈ s.replies qs, ∀ q ∈ reply.pulls, q = ⟨.ok .eof, s.cursor, none⟩ := by
  induction qs generalizing s with
  | nil => exact ⟨rfl, fun reply hreply => nomatch hreply⟩
  | cons r qs ih =>
    obtain ⟨hr, hqs⟩ := List.forall_mem_cons.1 hqs
    obtain ⟨hcursor, hpulls⟩ := reply_of_isSpent h hr
    obtain ⟨hafter, hreplies⟩ := ih (s := (s.reply r).session) (hcursor ▸ h) hqs
    rw [hcursor] at hafter hreplies
    exact ⟨hafter, List.forall_mem_cons.2 ⟨hpulls, hreplies⟩⟩

end Session

/-- Whatever was asked of the lexer of a text, its cursor is in step and on the same text, goes
back for no request, and is left as it is by a look ahead. A reading moves it on as `MovesOn`
says, each of its loops ends, and there are no more readings up to the end than characters, and
one more. When nothing but readings was asked for, the cursor is within the text; and once the
end was read, it is at the end of the text, where all readings find the end and leave it. -/
theorem requests_move_on (text : String) (rs : List Request) :
    let s := (Session.ofText text).after rs
    (s.cursor.source = text.toList.toArray ∧ s.cursor.IsConsistent) ∧
    (∀ qs, s.cursor.position ≤ (s.after qs).cursor.position) ∧
    (s.reply .peek).session = s ∧
    s.cursor.MovesOn s.cursor.pull ∧
    (∀ q, s.cursor.Ends q ∧ s.cursor.skipBlanks.Ends q) ∧
    (IsStretch s.cursor.nthPull 0 s.cursor.pulls ∧
      s.cursor.pulls.length ≤ text.length - s.cursor.position + 1) ∧
    ((∀ r ∈ rs, r.isReading = true) → s.cursor.position ≤ text.length ∧
      ∀ r, r.isReading = true → (∃ q ∈ (s.reply r).pulls, q.outcome = .ok .eof) →
        (s.reply r).session.cursor.position = text.length ∧
        ∀ qs, (∀ q ∈ qs, q.isReading = true) →
          ((s.reply r).session.after qs).cursor = (s.reply r).session.cursor ∧
          ∀ reply ∈ (s.reply r).session.replies qs, ∀ q ∈ reply.pulls,
            q = ⟨.ok .eof, (s.reply r).session.cursor, none⟩) := by
  intro s
  have hstart : (Session.ofText text).cursor.IsIn text.toList.toArray :=
    Cursor.isIn_ofText text.toList
  have hs : s.cursor.IsIn text.toList.toArray := Session.isIn_after hstart rs
  have hlength : text.toList.toArray.toList.length = text.length := by
    rw [List.toList_toArray, String.length_toList]
  have hsize : text.toList.toArray.size = text.length := by
    rw [List.size_toArray, String.length_toList]
  refine ⟨⟨hs.source_eq, hs.isConsistent⟩, Session.position_le_after hs, rfl,
    Cursor.movesOn_pull hs.isConsistent, fun q => ⟨?_, ?_⟩, ⟨s.cursor.isStretch_pulls, ?_⟩,
    fun hrs => ?_⟩
  · exact Cursor.advanceWhile_ends hs.isConsistent q
  · exact Cursor.advanceWhile_ends hs.skipBlanks.isConsistent q
  · rw [← hsize]
    exact Cursor.length_pulls_le hs
  · have hwithin : s.cursor.position ≤ text.toList.toArray.toList.length :=
      Session.position_after_le hstart hrs (Nat.zero_le _)
    refine ⟨hlength ▸ hwithin, fun r hr heof => ?_⟩
    obtain ⟨hspent, hposition⟩ := Session.isSpent_reply hs hr hwithin heof
    exact ⟨hposition.trans hlength, fun qs hqs => Session.after_of_isSpent hspent hqs⟩

/-- A reader that was opened in front of the first token is drained behind the second one. -/
theorem requests_move_on_drained :
    let rs := [.openReader .extents, .step 0, .next]
    let s := (Session.ofText "x ==@ ").after rs
    (∀ r ∈ rs, r.isReading = true) ∧ s.cursor.position = 4 ∧
      (∃ q ∈ (s.reply (.drain 0)).pulls, q.outcome = .ok .eof) ∧
      (s.reply (.drain 0)).session.cursor.position = 6 ∧
      ((s.reply (.drain 0)).session.after [.tokenize, .step 0]).cursor =
        (s.reply (.drain 0)).session.cursor := by
  intro rs s
  have hrs : ∀ r ∈ rs, r.isReading = true := by decide
  have heof : ∃ q ∈ (s.reply (.drain 0)).pulls, q.outcome = .ok .eof := by decide +kernel
  obtain ⟨-, -, -, -, -, -, hreading⟩ := requests_move_on "x ==@ " rs
  obtain ⟨-, hended⟩ := hreading hrs
  obtain ⟨hposition, hspent⟩ := hended (.drain 0) rfl heof
  obtain ⟨hcursor, -⟩ := hspent [.tokenize, .step 0] (by decide)
  exact ⟨hrs, by decide +kernel, heof, hposition, hcursor⟩

/-- A cursor that is moved without reading leaves the text. -/
example : ((Session.ofText "x").after [.advance, .advance, .next]).cursor.position = 2 := by
  decide +kernel

end TokenStream
