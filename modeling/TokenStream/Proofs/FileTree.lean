import Mathlib.Data.List.Basic
import Mathlib.Data.List.TakeWhile
import TokenStream.File.Tree
import TokenStream.Proofs.Except

/-!
# Reading and writing files

What the operations on a file tree have to do with each other: a path that was read from a
text keeps its parts when it is written out again (`Path.pieces_toString`), a path leads to a
file when there are bytes to read (`FileTree.isFile_eq_true_iff`), and what was written is read
back (`FileTree.read_write`), while all other places stay as they are.
-/

namespace TokenStream

/-! ## The text of a path -/

/-- What stands between separators holds none of them. -/
theorem mem_of_mem_splitOn {x : Char} {text piece : List Char} (h : piece ∈ text.splitOn x) :
    ∀ c ∈ piece, c ∈ text ∧ c ≠ x := by
  induction text generalizing piece with
  | nil =>
    rw [List.splitOn_nil, List.mem_singleton] at h
    simp [h]
  | cons d text ih =>
    rw [List.splitOn_cons_eq_if_modifyHead] at h
    obtain ⟨first, others, hsplit⟩ := List.exists_cons_of_ne_nil (List.splitOn_ne_nil x text)
    rw [hsplit] at h ih
    intro c hc
    split at h
    · rcases List.mem_cons.1 h with rfl | h
      · simp at hc
      · exact ⟨List.mem_cons_of_mem _ (ih h c hc).1, (ih h c hc).2⟩
    · rename_i hd
      rcases List.mem_cons.1 h with rfl | h
      · rcases List.mem_cons.1 hc with rfl | hc
        · exact ⟨List.mem_cons_self, by simpa using hd⟩
        · have hfirst := ih List.mem_cons_self c hc
          exact ⟨List.mem_cons_of_mem _ hfirst.1, hfirst.2⟩
      · have hother := ih (List.mem_cons_of_mem _ h) c hc
        exact ⟨List.mem_cons_of_mem _ hother.1, hother.2⟩

theorem mem_of_mem_intercalate {x c : Char} {pieces : List (List Char)}
    (h : c ∈ [x].intercalate pieces) : c = x ∨ ∃ piece ∈ pieces, c ∈ piece := by
  induction pieces with
  | nil => simp at h
  | cons piece pieces ih =>
    cases pieces with
    | nil => exact .inr ⟨piece, List.mem_cons_self, by simpa using h⟩
    | cons next pieces =>
      rw [List.intercalate_cons_cons, List.mem_append, List.mem_append, List.mem_singleton] at h
      rcases h with (h | h) | h
      · exact .inr ⟨piece, List.mem_cons_self, h⟩
      · exact .inl h
      · rcases ih h with rfl | ⟨other, hother, hc⟩
        · exact .inl rfl
        · exact .inr ⟨other, List.mem_cons_of_mem _ hother, hc⟩

namespace Path

/-- In normal form the parts are parts, and hold no slash. -/
def IsNormal (p : Path) : Prop := ∀ part ∈ p.parts, isPart part = true ∧ '/' ∉ part.toList

theorem mem_pieces {text piece : String} (h : piece ∈ pieces text) :
    ∀ c ∈ piece.toList, c ∈ text.toList ∧ c ≠ '/' := by
  obtain ⟨cs, hcs, rfl⟩ := List.mem_map.1 h
  rw [String.toList_ofList]
  exact mem_of_mem_splitOn hcs

theorem isNormal_ofString (text : String) : (ofString text).IsNormal := by
  intro part hpart
  obtain ⟨hpiece, hpart⟩ := List.mem_filter.1 hpart
  exact ⟨hpart, fun hc => (mem_pieces hpiece '/' hc).2 rfl⟩

theorem toList_toString (p : Path) :
    p.toString.toList =
      if p.anchor = .relative ∧ p.parts = [] then ['.']
      else p.anchor.prefixText.toList ++ ['/'].intercalate (p.parts.map String.toList) := by
  rw [toString]
  split
  · rfl
  · rw [String.toList_append, String.toList_intercalate]
    rfl

/-- A path in normal form keeps its parts when it is written out; the slashes in front of them
are blank pieces. -/
theorem pieces_toString {p : Path} (h : p.IsNormal) (hne : p.parts ≠ []) :
    ∃ blanks, (∀ b ∈ blanks, b = "") ∧ pieces p.toString = blanks ++ p.parts := by
  have hparts : ((['/'].intercalate (p.parts.map String.toList)).splitOn '/').map String.ofList =
      p.parts := by
    rw [List.splitOn_intercalate '/' (by simpa using fun part hpart => (h part hpart).2)
      (by simpa using hne), List.map_map]
    exact List.map_id'' (fun part => String.ofList_toList) _
  rw [pieces, toList_toString, if_neg (by simp [hne])]
  have hslash : ∀ cs : List Char, ('/' :: cs).splitOn '/' = [] :: cs.splitOn '/' := fun cs =>
    List.splitOn_append_cons_self [] cs
  cases p.anchor with
  | relative => exact ⟨[], by simp, hparts⟩
  | root =>
    refine ⟨[""], by simp, ?_⟩
    rw [show Anchor.root.prefixText.toList = ['/'] from rfl, List.singleton_append, hslash,
      List.map_cons, hparts]
    rfl
  | doubleRoot =>
    refine ⟨["", ""], by simp, ?_⟩
    rw [show Anchor.doubleRoot.prefixText.toList = ['/', '/'] from rfl, List.cons_append,
      List.singleton_append, hslash, hslash, List.map_cons, List.map_cons, hparts]
    rfl

theorem toString_ne_empty {p : Path} (h : p.IsNormal) (hne : p.parts ≠ []) :
    ¬p.toString.isEmpty = true := by
  intro hempty
  obtain ⟨blanks, -, hpieces⟩ := pieces_toString h hne
  rw [String.isEmpty_iff.1 hempty, show pieces "" = [""] from rfl] at hpieces
  obtain ⟨part, hpart⟩ := List.exists_mem_of_ne_nil _ hne
  have hblank : part ∈ [""] := hpieces ▸ List.mem_append_right _ hpart
  rw [List.mem_singleton] at hblank
  exact absurd (h part hpart).1 (by rw [hblank]; decide)

/-- A text without slashes is one piece. -/
theorem pieces_of_notMem {text : String} (h : '/' ∉ text.toList) : pieces text = [text] := by
  have hsplit : (['/'].intercalate [text.toList]).splitOn '/' = [text.toList] :=
    List.splitOn_intercalate '/' (by simpa using h) (by simp)
  rw [List.intercalate_singleton] at hsplit
  rw [pieces, hsplit, List.map_singleton, String.ofList_toList]

theorem toString_ofString_of_notMem {text : String} (h : '/' ∉ text.toList)
    (hpart : isPart text = true) : (ofString text).toString = text := by
  have hslashes : text.toList.takeWhile (· = '/') = [] := by
    rw [List.takeWhile_eq_nil_iff]
    intro hpos hslash
    exact h (of_decide_eq_true hslash ▸ List.getElem_mem hpos)
  have hpath : ofString text = ⟨.relative, [text]⟩ := by
    simp [ofString, hslashes, pieces_of_notMem h, hpart]
  simp [hpath, toString, Anchor.prefixText]

/-- A path is written out with the characters of the text that it was read from, apart from
slashes and a dot. -/
theorem mem_toString_ofString {text : String} {c : Char}
    (hc : c ∈ (ofString text).toString.toList) : c = '/' ∨ c = '.' ∨ c ∈ text.toList := by
  rw [toList_toString] at hc
  split at hc
  · exact .inr (.inl (by simpa using hc))
  · rcases List.mem_append.1 hc with hc | hc
    · refine .inl ?_
      cases hanchor : (ofString text).anchor <;> simp_all [Anchor.prefixText]
    · rcases mem_of_mem_intercalate hc with rfl | ⟨cs, hcs, hc⟩
      · exact .inl rfl
      · obtain ⟨part, hpart, rfl⟩ := List.mem_map.1 hcs
        exact .inr (.inr (mem_pieces (List.mem_filter.1 hpart).1 c hc).1)

end Path

namespace FileTree

variable {t t' : FileTree} {path : String} {place parent : List String} {piece : String}

theorem hasNull_eq_false_iff : hasNull path = false ↔ '\x00' ∉ path.toList := by
  simp [hasNull]

theorem hasNull_toString_ofString {text : String} (h : hasNull text = false) :
    hasNull (Path.ofString text).toString = false := by
  rw [hasNull_eq_false_iff] at h ⊢
  intro hc
  rcases Path.mem_toString_ofString hc with hc | hc | hc
  · exact absurd hc (by decide)
  · exact absurd hc (by decide)
  · exact h hc

/-! ## Looking files up -/

theorem read_eq_nullInPath_iff : t.read path = .error .nullInPath ↔ hasNull path = true := by
  cases hnull : hasNull path with
  | true => simp [read, hnull]
  | false =>
    cases hresolve : t.resolve path with
    | error e => simp [read, hnull, hresolve]
    | ok place =>
      rcases hnode : t.node? place with _ | _ | bytes <;> simp [read, hnull, hresolve, hnode]

/-- There are bytes to read where the path leads to a file. -/
theorem read_eq_ok_iff {bytes : List UInt8} :
    t.read path = .ok bytes ↔
      hasNull path = false ∧ ∃ place, t.resolve path = .ok place ∧
        t.node? place = some (.file bytes) := by
  cases hnull : hasNull path with
  | true => simp [read, hnull]
  | false =>
    cases hresolve : t.resolve path with
    | error e => simp [read, hnull, hresolve]
    | ok place =>
      rcases hnode : t.node? place with _ | _ | found <;> simp [read, hnull, hresolve, hnode]

theorem isFile_eq_true_iff : t.isFile path = .ok true ↔ ∃ bytes, t.read path = .ok bytes := by
  simp only [read_eq_ok_iff]
  cases hnull : hasNull path with
  | true => simp [isFile, hnull]
  | false =>
    cases hresolve : t.resolve path with
    | error e => cases e <;> simp [isFile, hnull, hresolve]
    | ok place =>
      rcases hnode : t.node? place with _ | _ | bytes <;> simp [isFile, hnull, hresolve, hnode]

/-- The path or a part of it is too long to be looked up. -/
def TooLong (t : FileTree) (path : String) : Prop :=
  hasNull path = false ∧ t.resolve path = .error .nameTooLong

theorem TooLong.read_ne_ok (h : t.TooLong path) (bytes : List UInt8) :
    t.read path ≠ .ok bytes := by
  intro hread
  obtain ⟨-, place, hresolve, -⟩ := read_eq_ok_iff.1 hread
  exact absurd (h.2.symm.trans hresolve) (by simp)

/-- Whether a path leads to a file cannot be told if it is too long, and only then. -/
theorem isFile_eq_error_iff {e : FileError} :
    t.isFile path = .error e ↔
      t.TooLong path ∧ e = .system (PathError.nameTooLong.on path) := by
  rw [TooLong]
  cases hnull : hasNull path with
  | true => simp [isFile, hnull]
  | false =>
    cases hresolve : t.resolve path with
    | error e => cases e <;> simp [isFile, hnull, hresolve, eq_comm]
    | ok place =>
      rcases hnode : t.node? place with _ | _ | bytes <;> simp [isFile, hnull, hresolve, hnode]

/-- A name over the limit cannot be looked up in the working directory. -/
theorem tooLong_of_name {name : String} (hcwd : t.node? t.cwd = some .directory)
    (hslash : '/' ∉ name.toList) (hnull : hasNull name = false)
    (hlong : maxName < name.utf8ByteSize) : t.TooLong (Path.ofString name).toString := by
  have hne (other : String) (hother : other.utf8ByteSize ≤ maxName) : name ≠ other := by
    rintro rfl
    omega
  have hpart : Path.isPart name = true := by
    simp [Path.isPart, hne "" (by decide), hne "." (by decide)]
  have hstart : t.start name = t.cwd := by
    rw [start, if_neg]
    rw [String.startsWith_string_iff]
    intro hstarts
    exact hslash (hstarts.subset (by decide))
  have hstep : t.step t.cwd name = .error .nameTooLong := by
    rw [step, if_pos hcwd, if_neg (by simp [hpart]), if_neg (hne ".." (by decide)), if_pos hlong]
  rw [Path.toString_ofString_of_notMem hslash hpart]
  refine ⟨hnull, ?_⟩
  rw [resolve, if_neg (by simpa using hne "" (by decide)), Path.pieces_of_notMem hslash, hstart,
    List.foldlM_cons, hstep]
  exact ite_self _

/-! ## Reading what was written -/

theorem node?_put_self (h : place ≠ []) (bytes : List UInt8) :
    (t.put place bytes).node? place = some (.file bytes) := by
  rw [node?, if_neg h, put, List.lookup_cons_self]

theorem lookup_filter_of_ne {nodes : List (List String × Node)} {other : List String}
    (h : other ≠ place) :
    (nodes.filter (·.1 != place)).lookup other = nodes.lookup other := by
  induction nodes with
  | nil => rfl
  | cons n nodes ih =>
    obtain ⟨above, node⟩ := n
    by_cases habove : above = place
    · subst habove
      rw [List.filter_cons_of_neg (by simp), ih, List.lookup_cons, beq_eq_false_iff_ne.2 h]
    · rw [List.filter_cons_of_pos (by simpa using habove), List.lookup_cons, List.lookup_cons, ih]

/-- All other places stay as they are. -/
theorem node?_put_of_ne {other : List String} (h : other ≠ place) (bytes : List UInt8) :
    (t.put place bytes).node? other = t.node? other := by
  rw [node?, node?, put, List.lookup_cons, beq_eq_false_iff_ne.2 h]
  dsimp only
  rw [lookup_filter_of_ne h]

theorem isSome_node?_put {other : List String} (h : (t.node? other).isSome = true)
    (bytes : List UInt8) : ((t.put place bytes).node? other).isSome = true := by
  by_cases hother : other = place
  · subst hother
    by_cases hroot : other = []
    · rw [node?, if_pos hroot]
      rfl
    · rw [node?_put_self hroot]
      rfl
  · rw [node?_put_of_ne hother]
    exact h

/-- What a step that goes on needs, and where it leads. -/
theorem step_eq_ok_iff {next : List String} :
    t.step parent piece = .ok next ↔
      t.node? parent = some .directory ∧
        (Path.isPart piece = false ∧ parent = next ∨
          Path.isPart piece = true ∧ piece = ".." ∧ parent.dropLast = next ∨
          Path.isPart piece = true ∧ piece ≠ ".." ∧ piece.utf8ByteSize ≤ maxName ∧
            (t.node? (parent ++ [piece])).isSome = true ∧ parent ++ [piece] = next) := by
  rw [step]
  split_ifs with h1 h2 h3 h4 h5 <;> simp_all [Nat.not_le_of_lt]

theorem step_eq_notFound_iff :
    t.step parent piece = .error .notFound ↔
      t.node? parent = some .directory ∧ Path.isPart piece = true ∧ piece ≠ ".." ∧
        piece.utf8ByteSize ≤ maxName ∧ t.node? (parent ++ [piece]) = none := by
  rw [step, ← Option.not_isSome_iff_eq_none]
  split_ifs with h1 h2 h3 h4 h5 <;> simp_all [Nat.not_le_of_lt]

/-- A step that could be taken still can, if the new file replaces no directory. -/
theorem step_put {bytes : List UInt8} {next : List String}
    (hplace : t.node? place ≠ some .directory) (h : t.step parent piece = .ok next) :
    (t.put place bytes).step parent piece = .ok next := by
  rw [step_eq_ok_iff] at h ⊢
  obtain ⟨hparent, hnext⟩ := h
  have hne : parent ≠ place := fun he => hplace (he ▸ hparent)
  rw [node?_put_of_ne hne]
  refine ⟨hparent, hnext.imp_right (Or.imp_right ?_)⟩
  rintro ⟨hpart, hdots, hname, hnode, hnext⟩
  exact ⟨hpart, hdots, hname, isSome_node?_put hnode bytes, hnext⟩

theorem foldlM_step_put {bytes : List UInt8} {pieces : List String}
    (hplace : t.node? place ≠ some .directory) {start last : List String}
    (h : pieces.foldlM t.step start = .ok last) :
    pieces.foldlM (t.put place bytes).step start = .ok last := by
  induction pieces generalizing start with
  | nil => exact h
  | cons piece pieces ih =>
    rw [List.foldlM_cons, bind_eq_ok_iff] at h ⊢
    obtain ⟨next, hstep, hnext⟩ := h
    exact ⟨next, step_put hplace hstep, ih hnext⟩

/-- A walk that ends in a directory starts in one. -/
theorem directory_of_foldlM {pieces : List String} {start last : List String}
    (h : pieces.foldlM t.step start = .ok last) (hlast : t.node? last = some .directory) :
    t.node? start = some .directory := by
  cases pieces with
  | nil =>
    obtain rfl : start = last := Except.ok.inj h
    exact hlast
  | cons piece pieces =>
    rw [List.foldlM_cons, bind_eq_ok_iff] at h
    obtain ⟨next, hstep, -⟩ := h
    exact (step_eq_ok_iff.1 hstep).1

theorem foldlM_step_blanks {blanks : List String} (hb : ∀ b ∈ blanks, b = "")
    {start : List String} (h : t.node? start = some .directory) :
    blanks.foldlM t.step start = .ok start := by
  induction blanks with
  | nil => rfl
  | cons b blanks ih =>
    rw [List.forall_mem_cons] at hb
    rw [List.foldlM_cons, bind_eq_ok_iff]
    exact ⟨start, step_eq_ok_iff.2 ⟨h, .inl ⟨by rw [hb.1]; rfl, rfl⟩⟩, ih hb.2⟩

/-- The last step to the place of a file: it leads to something that is no directory, or to a
name that is free. -/
inductive LastStep (t : FileTree) (above : List String) (name : String) : List String → Prop
  | there {next : List String} (hstep : t.step above name = .ok next)
      (hnext : t.node? next ≠ some .directory) : LastStep t above name next
  | free (hstep : t.step above name = .error .notFound) : LastStep t above name (above ++ [name])

theorem LastStep.directory {name : String} (h : LastStep t parent name place) :
    t.node? parent = some .directory := by
  cases h with
  | there hstep => exact (step_eq_ok_iff.1 hstep).1
  | free hstep => exact (step_eq_notFound_iff.1 hstep).1

theorem LastStep.ne_directory {name : String} (h : LastStep t parent name place) :
    t.node? place ≠ some .directory := by
  cases h with
  | there hstep hplace => exact hplace
  | free hstep =>
    obtain ⟨-, -, -, -, hnode⟩ := step_eq_notFound_iff.1 hstep
    simp [hnode]

/-- Once a file is put at its place, the step leads there. -/
theorem LastStep.step_put {name : String} (h : LastStep t parent name place)
    (bytes : List UInt8) : (t.put place bytes).step parent name = .ok place := by
  cases h with
  | there hstep hplace => exact FileTree.step_put hplace hstep
  | free hstep =>
    obtain ⟨hparent, hpart, hdots, hname, hnode⟩ := step_eq_notFound_iff.1 hstep
    have hne : parent ≠ parent ++ [name] := by simp
    refine step_eq_ok_iff.2
      ⟨by rwa [node?_put_of_ne hne], .inr (.inr ⟨hpart, hdots, hname, ?_, rfl⟩)⟩
    rw [node?_put_self (by simp)]
    rfl

theorem LastStep.foldlM_put {name : String} {blanks parts start : List String}
    (h : LastStep t parent name place) (hb : ∀ b ∈ blanks, b = "")
    (hwalk : parts.foldlM t.step start = .ok parent) (bytes : List UInt8) :
    (blanks ++ (parts ++ [name])).foldlM (t.put place bytes).step start = .ok place := by
  have hstart := directory_of_foldlM hwalk h.directory
  have hne : start ≠ place := fun he => h.ne_directory (he ▸ hstart)
  simp only [List.foldlM_append, bind_eq_ok_iff]
  refine ⟨start, foldlM_step_blanks hb ((node?_put_of_ne hne bytes).trans hstart),
    parent, foldlM_step_put h.ne_directory hwalk, ?_⟩
  rw [List.foldlM_cons, bind_eq_ok_iff]
  exact ⟨place, h.step_put bytes, rfl⟩

/-- A path without parts leads to a directory. -/
theorem not_lastStep_dot : ¬LastStep t parent "." place := by
  intro h
  cases h with
  | there hstep hnext =>
    obtain ⟨hparent, ⟨-, rfl⟩ | ⟨hpart, -⟩ | ⟨hpart, -⟩⟩ := step_eq_ok_iff.1 hstep
    · exact hnext hparent
    · exact absurd hpart (by decide)
    · exact absurd hpart (by decide)
  | free hstep => exact absurd (step_eq_notFound_iff.1 hstep).2.1 (by decide)

/-- The place for a file is one step from a directory, and the path is not too long. -/
theorem target_eq_ok {p : Path} (h : t.target p = .ok place) :
    p.toString.utf8ByteSize ≤ maxPath ∧
      ∃ parts name above, p.parts = parts ++ [name] ∧
        parts.foldlM t.step (t.start p.toString) = .ok above ∧ LastStep t above name place := by
  rw [target] at h
  split at h
  · contradiction
  · rename_i hlong
    refine ⟨by omega, ?_⟩
    obtain ⟨above, hwalk, hlast⟩ := bind_eq_ok_iff.1 h
    have hlast : LastStep t above (p.parts.getLast?.getD ".") place := by
      dsimp only at hlast
      split at hlast
      · rename_i next hstep
        split at hlast
        · contradiction
        · rename_i hnext
          obtain rfl : next = place := Except.ok.inj hlast
          exact .there hstep hnext
      · rename_i hstep
        obtain rfl : above ++ [p.parts.getLast?.getD "."] = place := Except.ok.inj hlast
        exact .free hstep
      · contradiction
    cases hname : p.parts.getLast? with
    | none => exact absurd (by rwa [hname] at hlast) not_lastStep_dot
    | some name =>
      rw [hname] at hlast
      exact ⟨p.parts.dropLast, name, above, (List.dropLast_append_getLast? name hname).symm,
        hwalk, hlast⟩

/-- What was written to a path is read back from it, and only the place that the path leads to
has changed. -/
theorem read_write {p : Path} (hp : p.IsNormal) {bytes : List UInt8}
    (h : t.write p bytes = .ok t') :
    t'.read p.toString = .ok bytes ∧
      ∃ place, t'.resolve p.toString = .ok place ∧
        ∀ other, other ≠ place → t'.node? other = t.node? other := by
  rw [write] at h
  split at h
  · contradiction
  · rename_i hnull
    cases htarget : t.target p with
    | error e => simp [htarget] at h
    | ok place =>
      rw [htarget] at h
      obtain rfl := Except.ok.inj h
      obtain ⟨hlong, parts, name, above, hparts, hwalk, hlast⟩ := target_eq_ok htarget
      have hne : p.parts ≠ [] := by simp [hparts]
      obtain ⟨blanks, hblanks, hpieces⟩ := Path.pieces_toString hp hne
      have hstart := directory_of_foldlM hwalk hlast.directory
      have hroot : place ≠ [] := by
        rintro rfl
        exact hlast.ne_directory (by rw [node?, if_pos rfl])
      have hresolve : (t.put place bytes).resolve p.toString = .ok place := by
        rw [resolve, if_neg (Path.toString_ne_empty hp hne), if_neg (by omega), hpieces, hparts]
        exact hlast.foldlM_put hblanks hwalk bytes
      have hread : (t.put place bytes).read p.toString = .ok bytes :=
        read_eq_ok_iff.2
          ⟨Bool.eq_false_iff.2 hnull, place, hresolve, node?_put_self hroot bytes⟩
      exact ⟨hread, place, hresolve, fun other hother => node?_put_of_ne hother bytes⟩

/-- A file can be written at the path. -/
def Writable (t : FileTree) (path : Path) : Prop := ∀ bytes, ∃ t', t.write path bytes = .ok t'

theorem writable_of_target {p : Path} (hnull : hasNull p.toString = false)
    (h : t.target p = .ok place) : t.Writable p := by
  intro bytes
  refine ⟨t.put place bytes, ?_⟩
  rw [write, if_neg (Bool.eq_false_iff.1 hnull), h]

/-- Whether a file can be written does not depend on what is to be in it. -/
theorem writable_of_write {p : Path} {bytes : List UInt8} (h : t.write p bytes = .ok t') :
    t.Writable p := by
  rw [write] at h
  split at h
  · contradiction
  · rename_i hnull
    split at h
    · contradiction
    · rename_i place htarget
      exact writable_of_target (Bool.eq_false_iff.2 hnull) htarget

end FileTree

end TokenStream
