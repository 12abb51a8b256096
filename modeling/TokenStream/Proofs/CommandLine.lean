import TokenStream.CommandLine.Arguments
import TokenStream.Proofs.Except

/-!
# The input of a command line

The input that a command line is read to name is one of its words as they stand. Main
statement: `input_mem_of_parse`.
-/

namespace TokenStream.CommandLine

/-! ## Words -/

theorem ne_plain_of_mem_interpretations {word w : String} {i : String × Word}
    (hi : i ∈ interpretations word) : i.2 ≠ .plain w := by
  rw [interpretations] at hi
  split at hi <;>
  · obtain ⟨_, -, rfl⟩ := List.mem_map.1 hi
    exact Word.noConfusion

/-- A word that is classified as plain is kept as it is. -/
theorem eq_of_classifyLoose_plain {word w : String} (h : classifyLoose word = .ok (.plain w)) :
    w = word := by
  rw [classifyLoose] at h
  split at h
  · rename_i name i hi
    obtain rfl : i = .plain w := Except.ok.inj h
    have hmem : (name, Word.plain w) ∈ interpretations word := hi ▸ List.mem_singleton_self _
    exact absurd rfl (ne_plain_of_mem_interpretations hmem)
  · split at h <;> simp_all
  · contradiction

theorem eq_of_classify_plain {word w : String} (h : classify word = .ok (.plain w)) :
    w = word := by
  rw [classify] at h
  repeat' split at h
  all_goals first
    | exact eq_of_classifyLoose_plain h
    | simp_all

theorem mem_of_plain_mem_words {argv : List String} {ws : List Word} (h : words argv = .ok ws)
    {w : String} (hw : .plain w ∈ ws) : w ∈ argv := by
  induction argv generalizing ws with
  | nil =>
    obtain rfl : [] = ws := Except.ok.inj h
    simp at hw
  | cons word rest ih =>
    rw [words] at h
    split at h
    · obtain rfl := Except.ok.inj h
      simp at hw
      exact List.mem_cons_of_mem _ hw
    · simp only [bind_eq_ok_iff] at h
      obtain ⟨first, hfirst, others, hothers, hws⟩ := h
      obtain rfl : first :: others = ws := Except.ok.inj hws
      rcases List.mem_cons.1 hw with rfl | hw
      · rw [eq_of_classify_plain hfirst]
        exact List.mem_cons_self
      · exact List.mem_cons_of_mem _ (ih hothers hw)

/-! ## Options leave the input alone -/

namespace Parse

theorem input?_apply {p q : Parse} {flag : Flag} {value? : Option String}
    (h : p.apply flag value? = .ok q) : q.input? = p.input? := by
  unfold apply at h
  repeat' split at h
  all_goals first
    | contradiction
    | (obtain rfl := Except.ok.inj h; rfl)

theorem input?_foldlM_apply {flags : List Flag} {p q : Parse}
    (h : flags.foldlM (fun p flag => p.apply flag none) p = .ok q) : q.input? = p.input? := by
  induction flags generalizing p with
  | nil =>
    obtain rfl : p = q := Except.ok.inj h
    rfl
  | cons flag flags ih =>
    rw [List.foldlM_cons, bind_eq_ok_iff] at h
    obtain ⟨next, hflag, hnext⟩ := h
    exact (ih hnext).trans (input?_apply hflag)

theorem input?_applyUse {p q : Parse} {u : Use} (h : p.applyUse u = .ok q) :
    q.input? = p.input? := by
  rw [applyUse, bind_eq_ok_iff] at h
  obtain ⟨next, hbefore, hlast⟩ := h
  exact (input?_apply hlast).trans (input?_foldlM_apply hbefore)

/-- One round of the reading takes a word or two off the front. It sets the input to one of
them if it sets it at all. -/
theorem exists_round {p q : Parse} {w : Word} {rest : List Word}
    (h : p.readWords (w :: rest) = .ok q) :
    ∃ next left, left <:+ rest ∧ readWords next left = .ok q ∧
      (next.input? = p.input? ∨ ∃ input, next.input? = some input ∧ .plain input ∈ w :: rest) := by
  unfold readWords at h
  split at h
  · contradiction
  · -- an option, with the word behind it if that is its value
    rename_i flag isShort value? tail heq
    obtain ⟨rfl, rfl⟩ := List.cons.inj heq
    rw [bind_eq_ok_iff] at h
    obtain ⟨use, -, h⟩ := h
    split at h
    · split at h
      · rename_i word left
        obtain ⟨next, huse, hread⟩ := bind_eq_ok_iff.1 h
        exact ⟨next, left, List.suffix_cons _ _, hread, .inl (input?_applyUse huse)⟩
      · contradiction
    · obtain ⟨next, huse, hread⟩ := bind_eq_ok_iff.1 h
      exact ⟨next, rest, List.suffix_rfl, hread, .inl (input?_applyUse huse)⟩
  · rename_i word tail heq
    obtain ⟨rfl, rfl⟩ := List.cons.inj heq
    exact ⟨_, rest, List.suffix_rfl, h, .inl rfl⟩
  · -- a separator in front of a plain word
    rename_i word left heq
    obtain ⟨rfl, rfl⟩ := List.cons.inj heq
    split at h
    · exact ⟨_, left, List.suffix_cons _ _, h, .inr ⟨word, rfl, by simp⟩⟩
    · exact ⟨_, _, List.suffix_rfl, h, .inl rfl⟩
  · rename_i tail _ heq
    obtain ⟨rfl, rfl⟩ := List.cons.inj heq
    exact ⟨_, rest, List.suffix_rfl, h, .inl rfl⟩
  · -- a plain word in front of a separator
    rename_i word left heq
    obtain ⟨rfl, rfl⟩ := List.cons.inj heq
    split at h
    · exact ⟨_, left, List.suffix_cons _ _, h, .inr ⟨word, rfl, by simp⟩⟩
    · exact ⟨_, _, List.suffix_rfl, h, .inl rfl⟩
  · rename_i word tail _ heq
    obtain ⟨rfl, rfl⟩ := List.cons.inj heq
    split at h
    · exact ⟨_, rest, List.suffix_rfl, h, .inr ⟨word, rfl, by simp⟩⟩
    · exact ⟨_, rest, List.suffix_rfl, h, .inl rfl⟩

/-- The input is one that was known before, or one of the plain words. -/
theorem plain_mem_of_readWords {p q : Parse} {ws : List Word} (h : p.readWords ws = .ok q)
    {input : String} (hq : q.input? = some input) :
    p.input? = some input ∨ .plain input ∈ ws := by
  induction hn : ws.length using Nat.strongRecOn generalizing p ws with
  | ind n ih =>
    cases ws with
    | nil =>
      rw [readWords] at h
      obtain rfl := Except.ok.inj h
      exact .inl hq
    | cons w rest =>
      obtain ⟨next, left, hleft, hread, hinput⟩ := exists_round h
      have hlength := hleft.length_le
      rw [List.length_cons] at hn
      rcases ih left.length (by omega) hread rfl with hnext | hmem
      · rcases hinput with hsame | ⟨_, hset, hmem⟩
        · exact .inl (hsame ▸ hnext)
        · obtain rfl := Option.some.inj (hset.symm.trans hnext)
          exact .inr hmem
      · exact .inr (List.mem_cons_of_mem _ (hleft.subset hmem))

end Parse

/-- The input is one of the words of the command line. -/
theorem input_mem_of_parse {argv : List String} {a : Arguments} (h : parse argv = .ok a) :
    a.input ∈ argv := by
  simp only [parse, bind_eq_ok_iff, mapError_eq_ok_iff] at h
  obtain ⟨ws, hwords, p, hread, hfinish⟩ := h
  rw [Parse.finish] at hfinish
  split at hfinish
  · contradiction
  · rename_i input hinput
    split at hfinish
    · obtain rfl := Except.ok.inj hfinish
      rcases Parse.plain_mem_of_readWords hread hinput with hempty | hmem
      · contradiction
      · exact mem_of_plain_mem_words hwords hmem
    · contradiction

end TokenStream.CommandLine
