/-!
# Lines of a listing

A listing writes one line for each of its items and closes it with a line feed. A reader may
know more line ends than that one, so an item is on one line only if it holds none of them.
Main statement: such items are the lines of their listing for every reader
(`splitLines_joinLines`).
-/

namespace TokenStream

/-- The characters that end a line. -/
def lineEnds : List Char :=
  ['\n', '\x0B', '\x0C', '\r', '\x1C', '\x1D', '\x1E', '\x85', '\u2028', '\u2029']

def isLineEnd (c : Char) : Bool := lineEnds.contains c

/-- The lines of a text without their ends. A carriage return and a line feed end one line
together, and text behind the last end is a line of its own. -/
def splitLines : List Char → List (List Char)
  | [] => []
  | '\r' :: '\n' :: cs => [] :: splitLines cs
  | c :: cs =>
    if isLineEnd c then [] :: splitLines cs
    else
      match splitLines cs with
      | [] => [[c]]
      | line :: lines => (c :: line) :: lines

/-- The listing of lines. -/
def joinLines (lines : List (List Char)) : List Char := lines.flatMap (· ++ ['\n'])

/-- A text without line ends. -/
def OneLine (line : List Char) : Prop := ∀ c ∈ line, isLineEnd c = false

@[simp] theorem oneLine_nil : OneLine [] := fun _ h => nomatch h

@[simp] theorem oneLine_cons {c : Char} {cs : List Char} :
    OneLine (c :: cs) ↔ isLineEnd c = false ∧ OneLine cs := List.forall_mem_cons

@[simp] theorem oneLine_append {s t : List Char} : OneLine (s ++ t) ↔ OneLine s ∧ OneLine t :=
  List.forall_mem_append

theorem OneLine.newline_notMem {line : List Char} (h : OneLine line) : '\n' ∉ line :=
  fun hc => absurd (h '\n' hc) (by decide)

@[simp] theorem joinLines_cons (line : List Char) (lines : List (List Char)) :
    joinLines (line :: lines) = line ++ '\n' :: joinLines lines := by
  simp [joinLines]

theorem splitLines_append {line : List Char} (h : OneLine line) (rest : List Char) :
    splitLines (line ++ '\n' :: rest) = line :: splitLines rest := by
  induction line with
  | nil => rfl
  | cons c cs ih =>
    obtain ⟨hc, hcs⟩ := oneLine_cons.1 h
    have hne : c ≠ '\r' := by
      rintro rfl
      exact absurd hc (by decide)
    rw [List.cons_append, splitLines.eq_3 _ _ fun _ hr _ => hne hr, hc, ih hcs]
    rfl

/-- Items on one line each are the lines of their listing. -/
theorem splitLines_joinLines {lines : List (List Char)} (h : ∀ line ∈ lines, OneLine line) :
    splitLines (joinLines lines) = lines := by
  induction lines with
  | nil => rfl
  | cons line lines ih =>
    rw [List.forall_mem_cons] at h
    rw [joinLines_cons, splitLines_append h.1, ih h.2]

theorem count_joinLines {lines : List (List Char)} (h : ∀ line ∈ lines, OneLine line) :
    (joinLines lines).count '\n' = lines.length := by
  induction lines with
  | nil => rfl
  | cons line lines ih =>
    rw [List.forall_mem_cons] at h
    rw [joinLines_cons, List.count_append, List.count_cons_self, ih h.2, List.length_cons,
      List.count_eq_zero.2 h.1.newline_notMem, Nat.zero_add]

/-- Reading each line on its own reads all of them. -/
theorem mapM_read_map_write {α β : Type} {write : α → List Char} {read : List Char → Option β}
    {view : α → β} {as : List α} (h : ∀ a ∈ as, read (write a) = some (view a)) :
    (as.map write).mapM read = some (as.map view) := by
  induction as with
  | nil => rfl
  | cons a as ih =>
    rw [List.forall_mem_cons] at h
    rw [List.map_cons, List.mapM_cons, h.1, ih h.2]
    rfl

/-- Line feeds are the only line ends of a listing of such items. -/
theorem eq_newline_of_mem_joinLines {lines : List (List Char)} (h : ∀ line ∈ lines, OneLine line)
    {c : Char} (hc : c ∈ joinLines lines) (hend : isLineEnd c = true) : c = '\n' := by
  obtain ⟨line, hline, hc⟩ := List.mem_flatMap.1 hc
  rcases List.mem_append.1 hc with hc | hc
  · exact absurd (h line hline c hc) (by simp [hend])
  · exact List.mem_singleton.1 hc

end TokenStream
