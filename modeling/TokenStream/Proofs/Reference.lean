import TokenStream.Proofs.Tiling

/-!
# The sequence of all readings

A lexer can be read without end: behind the end of the text, and behind a
refusal, reading goes on. `Cursor.nthPull` is this sequence. Main statements:
reading up to the end or a refusal is a stretch of it
(`Cursor.isStretch_pulls_afterPulls`), at some point it finds nothing but the end of
the text (`Cursor.eventually_eof`), and every extent in it is the place of its
token (`Cursor.isPlace_nthPull`).
-/

namespace TokenStream

/-- A stretch of a sequence of readings, from the `n`-th one up to the next one
that ends a run. -/
def IsStretch (R : Nat → Pull) (n : Nat) (ps : List Pull) : Prop :=
  ∃ m, ps = (List.range (m + 1)).map (fun k => R (n + k)) ∧ (R (n + m)).isLast = true ∧
    ∀ k < m, (R (n + k)).isLast = false

namespace Cursor

/-- The cursor after a number of readings. -/
def afterPulls (c : Cursor) : Nat → Cursor
  | 0 => c
  | n + 1 => c.pull.cursor.afterPulls n

/-- The reading that comes after a number of others. -/
def nthPull (c : Cursor) (n : Nat) : Pull := (c.afterPulls n).pull

theorem afterPulls_add (c : Cursor) (n m : Nat) :
    c.afterPulls (n + m) = (c.afterPulls n).afterPulls m := by
  induction n generalizing c with
  | zero => rw [Nat.zero_add, afterPulls]
  | succ n ih => rw [Nat.succ_add, afterPulls, ih, afterPulls]

theorem cursor_nthPull (c : Cursor) (n : Nat) : (c.nthPull n).cursor = c.afterPulls (n + 1) := by
  rw [afterPulls_add]
  rfl

theorem nthPull_zero (c : Cursor) : c.nthPull 0 = c.pull := rfl

theorem nthPull_succ (c : Cursor) (n : Nat) : c.nthPull (n + 1) = c.pull.cursor.nthPull n := rfl

theorem nthPull_afterPulls (c : Cursor) (n k : Nat) :
    (c.afterPulls n).nthPull k = c.nthPull (n + k) := by
  rw [nthPull, nthPull, afterPulls_add]

/-! ## Reading to the end -/

/-- Reading to the end is a stretch of the readings: by induction on what is left
to read. -/
theorem isStretch_pulls (c : Cursor) : IsStretch c.nthPull 0 c.pulls := by
  rw [pulls_eq]
  cases h : c.pull.isLast with
  | true => exact ⟨0, rfl, h, fun k hk => absurd hk (Nat.not_lt_zero k)⟩
  | false =>
    have := remaining_pull_lt h
    obtain ⟨m, hm, hlast, hbefore⟩ := isStretch_pulls c.pull.cursor
    simp only [Nat.zero_add] at hm hlast hbefore
    refine ⟨m + 1, ?_, ?_, fun k hk => ?_⟩
    · rw [if_neg Bool.false_ne_true, hm, List.range_succ_eq_map (n := m + 1), List.map_cons,
        List.map_map]
      simp only [Nat.zero_add, nthPull_zero, Function.comp_def, nthPull_succ]
    · rw [Nat.zero_add, nthPull_succ, hlast]
    · rw [Nat.zero_add]
      cases k with
      | zero => exact h
      | succ k => rw [nthPull_succ, hbefore k (Nat.lt_of_succ_lt_succ hk)]
termination_by c.remaining

theorem isStretch_pulls_afterPulls (c : Cursor) (n : Nat) :
    IsStretch c.nthPull n (c.afterPulls n).pulls := by
  obtain ⟨m, hm, hlast, hbefore⟩ := (c.afterPulls n).isStretch_pulls
  simp only [Nat.zero_add, nthPull_afterPulls] at hm hlast hbefore
  exact ⟨m, hm, hlast, hbefore⟩

theorem pulls_eq_map (c : Cursor) : c.pulls = (List.range c.pulls.length).map c.nthPull := by
  obtain ⟨m, hm, -, -⟩ := c.isStretch_pulls
  simp only [Nat.zero_add] at hm
  rw [hm, List.length_map, List.length_range]

/-- Reading to the end leaves the cursor behind the last reading. -/
theorem drained_eq (c : Cursor) : c.drained = c.afterPulls c.pulls.length := by
  obtain ⟨m, hm, -, -⟩ := c.isStretch_pulls
  simp only [Nat.zero_add] at hm
  have hlast : c.pulls.getLast? = some (c.nthPull m) := by
    rw [hm, List.range_succ, List.map_append, List.map_singleton, List.getLast?_concat]
  rw [drained, hlast, hm, List.length_map, List.length_range]
  exact cursor_nthPull c m

/-- Reading to the end meets an end. -/
theorem any_isLast_pulls (c : Cursor) : c.pulls.any Pull.isLast = true := by
  obtain ⟨m, hm, hlast, -⟩ := c.isStretch_pulls
  rw [hm, List.any_map, List.any_eq_true]
  exact ⟨m, List.mem_range.2 (Nat.lt_succ_self m), hlast⟩

/-! ## The end of the text -/

/-- A lexeme behind blanks is no longer than the text. -/
theorem length_blanks_munch_le (text : List Char) :
    (text.takeWhile isBlank).length + (munch (text.dropWhile isBlank)).length ≤ text.length := by
  have hmunch := (munch_isPrefix (text.dropWhile isBlank)).length_le
  have hsplit := congrArg List.length (List.takeWhile_append_dropWhile (p := isBlank) (l := text))
  rw [List.length_append] at hsplit
  omega

variable {source : Array Char} {p : Nat}

/-- A reading moves the cursor on within the text. -/
theorem exists_cursor_pull (hp : p ≤ source.toList.length) :
    ∃ q ≤ source.toList.length, (atOffset source p).pull.cursor = atOffset source q := by
  have hle := length_blanks_munch_le (source.toList.drop p)
  rw [List.length_drop] at hle
  rw [pull_atOffset]
  exact ⟨_, by omega, rfl⟩

theorem exists_afterPulls (hp : p ≤ source.toList.length) (n : Nat) :
    ∃ q ≤ source.toList.length, (atOffset source p).afterPulls n = atOffset source q := by
  induction n generalizing p with
  | zero => exact ⟨p, hp, rfl⟩
  | succ n ih =>
    obtain ⟨q, hq, hpull⟩ := exists_cursor_pull hp
    rw [afterPulls, hpull]
    exact ih hq

/-- Where nothing but blanks is left, the end of the text is found, again and again. -/
theorem nthPull_of_blanks (h : (source.toList.drop p).dropWhile isBlank = []) (n : Nat) :
    ((atOffset source p).nthPull n).outcome = .ok .eof := by
  induction n generalizing p with
  | zero =>
    rw [nthPull_zero, pull_atOffset, h]
    rfl
  | succ n ih =>
    rw [nthPull_succ, pull_atOffset, h]
    refine ih ?_
    show (source.toList.drop (p + _ + 0)).dropWhile isBlank = []
    rw [Nat.add_zero, ← List.drop_drop, drop_length_takeWhile, h]
    rfl

/-- At some point nothing but the end of the text is found: by induction on the
text that is left, of which each reading before takes at least a lexeme. -/
theorem eventually_eof (source : Array Char) (p : Nat) :
    ∃ N, ∀ n, N ≤ n → ((atOffset source p).nthPull n).outcome = .ok .eof := by
  by_cases h : (source.toList.drop p).dropWhile isBlank = []
  · exact ⟨0, fun n _ => nthPull_of_blanks h n⟩
  · obtain ⟨c, cs, hc⟩ := List.exists_cons_of_ne_nil h
    obtain ⟨raw, hraw⟩ := munch_cons c cs
    have hle := length_blanks_munch_le (source.toList.drop p)
    rw [hc, hraw, List.length_cons, List.length_drop] at hle
    obtain ⟨q, hlt, hq⟩ : ∃ q, source.toList.length - q < source.toList.length - p ∧
        (atOffset source p).pull.cursor = atOffset source q := by
      rw [pull_atOffset, hc, hraw]
      refine ⟨_, ?_, rfl⟩
      rw [List.length_cons]
      omega
    obtain ⟨N, hN⟩ := eventually_eof source q
    refine ⟨N + 1, fun n hn => ?_⟩
    cases n with
    | zero => exact absurd hn (Nat.not_succ_le_zero N)
    | succ n =>
      rw [nthPull_succ, hq]
      exact hN n (Nat.le_of_succ_le_succ hn)
termination_by source.toList.length - p

/-! ## Extents -/

/-- What is read behind blanks stands there in the text. -/
theorem exists_drop_eq (source : Array Char) (p : Nat) :
    let text := source.toList.drop p
    ∃ tail, source.toList.drop (p + (text.takeWhile isBlank).length) =
      (Token.ofLexeme (munch (text.dropWhile isBlank))).raw.toList ++ tail := by
  intro text
  obtain ⟨tail, htail⟩ := munch_isPrefix (text.dropWhile isBlank)
  refine ⟨tail, ?_⟩
  rw [Token.raw_ofLexeme, String.toList_ofList, htail, ← List.drop_drop, drop_length_takeWhile]

/-- The extent of a reading is the place of its token. -/
theorem isPlace_pull (hp : p ≤ source.toList.length) {e : Extent}
    (he : (atOffset source p).pull.extent = .ok e) : e.IsPlace source.toList := by
  have hle := length_blanks_munch_le (source.toList.drop p)
  rw [List.length_drop] at hle
  obtain ⟨tail, hdrop⟩ := exists_drop_eq source p
  rw [pull_atOffset] at he
  generalize (source.toList.drop p).takeWhile isBlank = blanks at *
  generalize munch ((source.toList.drop p).dropWhile isBlank) = raw at *
  have hraw : (Token.ofLexeme raw).raw.toList = raw := by
    rw [Token.raw_ofLexeme, String.toList_ofList]
  cases ho : isOverlong raw with
  | true =>
    simp only [outcomeOf, ho, if_true, Pull.extent, Except.map] at he
    cases he
  | false =>
    have hplace := isPlace_of_drop (by omega) hdrop
    simp only [outcomeOf, ho, Bool.false_eq_true, if_false] at he
    have hext := extent_of_token source (Token.ofLexeme raw) (p + blanks.length)
      (overflowOf? (p + blanks.length) raw)
    rw [hraw, he] at hext
    rw [hraw] at hplace
    exact Except.ok.inj hext ▸ hplace

/-- Whatever was read before, the extent of a reading is the place of its token. -/
theorem isPlace_nthPull {n : Nat} {e : Extent}
    (he : ((atOffset source 0).nthPull n).extent = .ok e) : e.IsPlace source.toList := by
  have hp : 0 ≤ source.toList.length := Nat.zero_le _
  obtain ⟨q, hq, hafter⟩ := exists_afterPulls hp n
  rw [nthPull, hafter] at he
  exact isPlace_pull hq he

end Cursor

end TokenStream
