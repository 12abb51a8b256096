import Mathlib.Data.List.Forall2

/-!
# Steps that may fail

When a step followed by another one succeeds or fails, when a failure that is handed on
under another name does, and when the same step on each element of a list does: it succeeds on
all of them (`mapM_eq_ok_iff`), or up to the first failure (`mapM_eq_error_iff`).
-/

namespace TokenStream

universe u

variable {ε ε' α β : Type u}

theorem bind_eq_ok_iff {x : Except ε α} {f : α → Except ε β} {b : β} :
    x >>= f = .ok b ↔ ∃ a, x = .ok a ∧ f a = .ok b := by
  cases x <;> simp [bind, Except.bind]

theorem bind_eq_error_iff {x : Except ε α} {f : α → Except ε β} {e : ε} :
    x >>= f = .error e ↔ x = .error e ∨ ∃ a, x = .ok a ∧ f a = .error e := by
  cases x <;> simp [bind, Except.bind]

theorem mapError_eq_ok_iff {x : Except ε α} {f : ε → ε'} {a : α} :
    x.mapError f = .ok a ↔ x = .ok a := by
  cases x with
  | ok b =>
    show (.ok b : Except ε' α) = .ok a ↔ _
    rw [Except.ok.injEq, Except.ok.injEq]
  | error e =>
    show (.error (f e) : Except ε' α) = .ok a ↔ _
    simp only [reduceCtorEq]

theorem mapError_eq_error_iff {x : Except ε α} {f : ε → ε'} {e' : ε'} :
    x.mapError f = .error e' ↔ ∃ e, x = .error e ∧ f e = e' := by
  cases x with
  | ok b =>
    show (.ok b : Except ε' α) = .error e' ↔ _
    simp only [reduceCtorEq, false_and, exists_false]
  | error e =>
    show (.error (f e) : Except ε' α) = .error e' ↔ _
    simp only [Except.error.injEq, exists_eq_left']

theorem exists_ok_of_any {x : Except ε α} {p : α → Bool} (h : x.toOption.any p = true) :
    ∃ a, x = .ok a ∧ p a = true := by
  cases x with
  | ok a => exact ⟨a, rfl, h⟩
  | error e => contradiction

/-- What follows from a partner in the other list holds of every element of the one. -/
theorem forall_mem_of_forall₂ {R : α → β → Prop} {q : α → Prop} {as : List α} {bs : List β}
    (h : List.Forall₂ R as bs) (hq : ∀ a, ∀ b ∈ bs, R a b → q a) : ∀ a ∈ as, q a := by
  induction h with
  | nil => exact List.forall_mem_nil _
  | cons hab _ ih =>
    refine List.forall_mem_cons.2 ⟨hq _ _ (.head _) hab, ih fun a b hb => hq a b (.tail _ hb)⟩

theorem mapM_eq_ok_iff {f : α → Except ε β} {as : List α} {bs : List β} :
    as.mapM f = .ok bs ↔ List.Forall₂ (fun a b => f a = .ok b) as bs := by
  induction as generalizing bs with
  | nil =>
    rw [List.mapM_nil, List.forall₂_nil_left_iff]
    exact ⟨fun h => (Except.ok.inj h).symm, fun h => h ▸ rfl⟩
  | cons a as ih =>
    rw [List.mapM_cons, bind_eq_ok_iff, List.forall₂_cons_left_iff]
    constructor
    · rintro ⟨b, hb, h⟩
      obtain ⟨bs, hbs, h⟩ := bind_eq_ok_iff.1 h
      exact ⟨b, bs, hb, ih.1 hbs, (Except.ok.inj h).symm⟩
    · rintro ⟨b, bs, hb, hbs, rfl⟩
      exact ⟨b, hb, bind_eq_ok_iff.2 ⟨bs, ih.2 hbs, rfl⟩⟩

theorem mapM_eq_error_iff {f : α → Except ε β} {as : List α} {e : ε} :
    as.mapM f = .error e ↔ ∃ front a back, as = front ++ a :: back ∧
      (∀ x ∈ front, ∃ b, f x = .ok b) ∧ f a = .error e := by
  induction as with
  | nil => simp [pure, Except.pure]
  | cons a as ih =>
    rw [List.mapM_cons, bind_eq_error_iff]
    constructor
    · rintro (h | ⟨b, hb, h⟩)
      · exact ⟨[], a, as, rfl, List.forall_mem_nil _, h⟩
      · rcases bind_eq_error_iff.1 h with h | ⟨bs, -, h⟩
        · obtain ⟨front, x, back, rfl, hfront, hx⟩ := ih.1 h
          exact ⟨a :: front, x, back, rfl, List.forall_mem_cons.2 ⟨⟨b, hb⟩, hfront⟩, hx⟩
        · contradiction
    · rintro ⟨front, x, back, hsplit, hfront, hx⟩
      cases front with
      | nil =>
        obtain ⟨rfl, rfl⟩ := List.cons.inj hsplit
        exact .inl hx
      | cons y front =>
        obtain ⟨rfl, rfl⟩ := List.cons.inj hsplit
        obtain ⟨⟨b, hb⟩, hfront⟩ := List.forall_mem_cons.1 hfront
        have htail := ih.2 ⟨front, x, back, rfl, hfront, hx⟩
        exact .inr ⟨b, hb, bind_eq_error_iff.2 (.inl htail)⟩

theorem exists_mapM_eq_ok_iff {f : α → Except ε β} {as : List α} :
    (∃ bs, as.mapM f = .ok bs) ↔ ∀ a ∈ as, ∃ b, f a = .ok b := by
  constructor
  · rintro ⟨bs, h⟩
    exact forall_mem_of_forall₂ (mapM_eq_ok_iff.1 h) fun _ b _ hb => ⟨b, hb⟩
  · intro h
    cases hm : as.mapM f with
    | ok bs => exact ⟨bs, rfl⟩
    | error e =>
      obtain ⟨front, a, back, rfl, -, ha⟩ := mapM_eq_error_iff.1 hm
      obtain ⟨b, hb⟩ := h a (List.mem_append_right _ (.head _))
      exact absurd (ha.symm.trans hb) (by simp)

end TokenStream
