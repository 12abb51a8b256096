/-!
# Sets of code points

A property of characters is given as the ascending list of the intervals of
code points that have it, and is looked up in a balanced search tree over that
list (`Intervals.ofList`). Main statements: the tree keeps the intervals of
the list in their order (`toList_ofList`), and the look-up finds exactly the
members of the intervals when these are ascending (`contains_iff`).
-/

namespace TokenStream

/-- A search tree over closed intervals of code points. -/
inductive Intervals where
  | empty
  | node (before : Intervals) (first last : Nat) (after : Intervals)

namespace Intervals

/-- The intervals of the tree from left to right. -/
def toList : Intervals → List (Nat × Nat)
  | empty => []
  | node before first last after => before.toList ++ (first, last) :: after.toList

/-- Looks a code point up, going left below an interval and right above it. -/
def contains : Intervals → Nat → Bool
  | empty, _ => false
  | node before first last after, n =>
    if n < first then before.contains n
    else if last < n then after.contains n
    else true

/-- A tree of the given depth from the front of a list, and what is left of
the list: at most `2 ^ depth - 1` intervals are taken. -/
def grow : Nat → List (Nat × Nat) → Intervals × List (Nat × Nat)
  | 0, rest => (empty, rest)
  | depth + 1, rest =>
    match grow depth rest with
    | (before, []) => (before, [])
    | (before, (first, last) :: rest) =>
      let (after, rest) := grow depth rest
      (node before first last after, rest)

/-- The balanced tree of a list of intervals. -/
def ofList (intervals : List (Nat × Nat)) : Intervals :=
  (grow (intervals.length.log2 + 1) intervals).1

/-- Each interval lies above all before it. -/
def Ascending (intervals : List (Nat × Nat)) : Prop :=
  (∀ r ∈ intervals, r.1 ≤ r.2) ∧ intervals.Pairwise fun r s => r.2 < s.1

/-- Checks in one pass that the intervals ascend and start at `bound` or above. -/
def ascendsFrom : Nat → List (Nat × Nat) → Bool
  | _, [] => true
  | bound, (first, last) :: rest =>
    Nat.ble bound first && Nat.ble first last && ascendsFrom (last + 1) rest

theorem le_of_ascendsFrom {bound : Nat} {intervals : List (Nat × Nat)}
    (h : ascendsFrom bound intervals = true) : ∀ r ∈ intervals, bound ≤ r.1 := by
  induction intervals generalizing bound with
  | nil => simp
  | cons r rest ih =>
    simp only [ascendsFrom, Bool.and_eq_true, Nat.ble_eq] at h
    intro s hs
    rcases List.mem_cons.1 hs with rfl | hs
    · exact h.1.1
    · have := ih h.2 s hs
      omega

theorem ascending_of_ascendsFrom {bound : Nat} {intervals : List (Nat × Nat)}
    (h : ascendsFrom bound intervals = true) : Ascending intervals := by
  induction intervals generalizing bound with
  | nil => simp [Ascending]
  | cons r rest ih =>
    simp only [ascendsFrom, Bool.and_eq_true, Nat.ble_eq] at h
    obtain ⟨hle, hp⟩ := ih h.2
    have hlt := le_of_ascendsFrom h.2
    refine ⟨?_, List.pairwise_cons.2 ⟨fun s hs => hlt s hs, hp⟩⟩
    intro s hs
    rcases List.mem_cons.1 hs with rfl | hs
    · exact h.1.2
    · exact hle s hs

/-! ## What is in the tree -/

theorem toList_grow (depth : Nat) (intervals : List (Nat × Nat)) :
    (grow depth intervals).1.toList ++ (grow depth intervals).2 = intervals := by
  induction depth generalizing intervals with
  | zero => simp [grow, toList]
  | succ depth ih =>
    have h := ih intervals
    simp only [grow]
    split
    · rename_i e
      rw [e] at h
      simpa using h
    · rename_i before first last rest e
      rw [e] at h
      simp only [toList, List.append_assoc, List.cons_append]
      rw [ih rest]
      exact h

/-- A tree of depth `d` leaves something over only if `2 ^ d - 1` intervals
have gone into it. -/
theorem length_toList_grow (depth : Nat) (intervals : List (Nat × Nat))
    (h : (grow depth intervals).2 ≠ []) :
    (grow depth intervals).1.toList.length + 1 = Nat.pow 2 depth := by
  induction depth generalizing intervals with
  | zero => simp [grow, toList]
  | succ depth ih =>
    simp only [grow] at h ⊢
    split at h
    · exact absurd rfl h
    · rename_i before first last rest e
      have hb := ih intervals (by rw [e]; simp)
      rw [e] at hb
      have ha := ih rest h
      have hpow : Nat.pow 2 (depth + 1) = Nat.pow 2 depth * 2 := rfl
      simp only [toList, List.length_append, List.length_cons]
      simp only at hb
      omega

@[simp] theorem toList_ofList (intervals : List (Nat × Nat)) :
    (ofList intervals).toList = intervals := by
  have h := toList_grow (intervals.length.log2 + 1) intervals
  by_cases hr : (grow (intervals.length.log2 + 1) intervals).2 = []
  · rw [hr, List.append_nil] at h
    exact h
  · have hl := length_toList_grow _ _ hr
    have hlt : intervals.length < Nat.pow 2 (intervals.length.log2 + 1) := Nat.lt_log2_self
    have := congrArg List.length h
    have hp := List.length_pos_iff.2 hr
    rw [List.length_append] at this
    omega

/-- The members of a tree of ascending intervals are what the look-up finds. -/
theorem contains_iff_of_ascending (t : Intervals) (h : Ascending t.toList) (n : Nat) :
    t.contains n = true ↔ ∃ r ∈ t.toList, r.1 ≤ n ∧ n ≤ r.2 := by
  induction t with
  | empty => simp [contains, toList]
  | node before first last after ihb iha =>
    obtain ⟨hle, hp⟩ := h
    simp only [toList, List.pairwise_append, List.pairwise_cons, List.mem_append,
      List.mem_cons] at hle hp
    obtain ⟨hpb, ⟨hfa, hpa⟩, hba⟩ := hp
    have hb := ihb ⟨fun r hr => hle r (.inl hr), hpb⟩
    have ha := iha ⟨fun r hr => hle r (.inr (.inr hr)), hpa⟩
    have hfl := hle (first, last) (.inr (.inl rfl))
    simp only [contains, toList, List.mem_append, List.mem_cons]
    simp only at hfl
    split
    · rename_i hlt
      rw [hb]
      constructor
      · rintro ⟨r, hr, h1, h2⟩
        exact ⟨r, .inl hr, h1, h2⟩
      · rintro ⟨r, hr | rfl | hr, h1, h2⟩
        · exact ⟨r, hr, h1, h2⟩
        · simp only at h1; omega
        · have := hfa r hr
          omega
    · split
      · rename_i hge hgt
        rw [ha]
        constructor
        · rintro ⟨r, hr, h1, h2⟩
          exact ⟨r, .inr (.inr hr), h1, h2⟩
        · rintro ⟨r, hr | rfl | hr, h1, h2⟩
          · have := hba r hr (first, last) (.inl rfl)
            simp only at this
            omega
          · simp only at h2; omega
          · exact ⟨r, hr, h1, h2⟩
      · rename_i hge hgt
        simp only [true_iff]
        exact ⟨(first, last), .inr (.inl rfl), by simp only; omega, by simp only; omega⟩

theorem contains_iff {intervals : List (Nat × Nat)} (h : Ascending intervals) (n : Nat) :
    (ofList intervals).contains n = true ↔ ∃ r ∈ intervals, r.1 ≤ n ∧ n ≤ r.2 := by
  rw [contains_iff_of_ascending _ (by rwa [toList_ofList]), toList_ofList]

end Intervals

end TokenStream
