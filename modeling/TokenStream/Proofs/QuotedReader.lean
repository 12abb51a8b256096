import Mathlib.Tactic.SplitIfs
import TokenStream.Proofs.Lines
import TokenStream.Text.CodePoint

/-!
# Reading quoted texts

A reader of string literals of one line, apart from the writer of quoted texts: a literal
may stand between marks of either kind, and every character may be written as an escape, by
a letter, by up to three octal digits, or by two, four or eight hexadecimal ones. A backslash
in front of any other character stands for itself. Line feeds, carriage returns and null
characters must be escaped, and an escape that names its character is refused. Main statements:
the reader takes a quoted text and leaves what is behind it (`literal?_encode`), so a text is
read back (`read?_encode`); and a quoted text stands on one line, whatever ends a line
(`oneLine_encode`). The reader has no character for the escape of a surrogate, which another
one takes (`Document.literal?_quoted`).
-/

namespace TokenStream.Quoted

/-! ## The reader -/

/-- The marks that a literal may stand between. -/
def isMark (c : Char) : Bool := c = '\x27' || c = '\x22'

/-- The characters that do not stand in a literal of one line. -/
def isBanned (c : Char) : Bool := c = '\n' || c = '\r' || c = '\x00'

/-- The letters of the escapes, with the characters that they stand for. -/
def letters : List (Char × Char) :=
  [('\\', '\\'), ('\x27', '\x27'), ('\x22', '\x22'), ('a', '\x07'), ('b', '\x08'),
   ('f', '\x0C'), ('n', '\n'), ('r', '\r'), ('t', '\t'), ('v', '\x0B')]

/-- The character of a number of that many hexadecimal digits. -/
def hexadecimal? (width : Nat) (cs : List Char) : Option (List Char × List Char) := do
  if cs.length < width then none
  let n ← ofHexDigits? (cs.take width)
  if n < 0xD800 ∨ 0xDFFF < n ∧ n < 0x110000 then some ([Char.ofNat n], cs.drop width) else none

def isOctal (c : Char) : Bool := '0' ≤ c && c ≤ '7'

/-- The character of a number of up to three octal digits. -/
def octal (cs : List Char) : List Char × List Char :=
  let digits := (cs.take 3).takeWhile isOctal
  ([Char.ofNat (Nat.ofDigitChars 8 digits 0)], cs.drop digits.length)

/-- What stands behind a backslash. -/
def escaped? : List Char → Option (List Char × List Char)
  | [] => none
  | 'x' :: cs => hexadecimal? 2 cs
  | 'u' :: cs => hexadecimal? 4 cs
  | 'U' :: cs => hexadecimal? 8 cs
  | 'N' :: _ => none
  | c :: cs =>
    if isBanned c then none
    else if isOctal c then some (octal (c :: cs))
    else
      match letters.lookup c with
      | some d => some ([d], cs)
      | none => some (['\\', c], cs)

/-- One character of a literal, or one escape. -/
def part? : List Char → Option (List Char × List Char)
  | [] => none
  | c :: cs =>
    if c = '\\' then escaped? cs
    else if isBanned c then none
    else some ([c], cs)

/-- The text up to the closing mark. Every round takes a character. -/
def body? (m : Char) : Nat → List Char → Option (List Char × List Char)
  | 0, _ => none
  | _, [] => none
  | fuel + 1, c :: cs =>
    if c = m then some ([], cs)
    else do
      let (part, rest) ← part? (c :: cs)
      let (s, rest) ← body? m fuel rest
      return (part ++ s, rest)

/-- The text of the literal in front, and what is behind it. -/
def literal? : List Char → Option (List Char × List Char)
  | [] => none
  | m :: cs => if isMark m then body? m (cs.length + 1) cs else none

/-- The text of a literal. -/
def read? (cs : List Char) : Option (List Char) := do
  let (s, rest) ← literal? cs
  if rest = [] then some s else none

/-! ## Quoted texts are read back -/

theorem hexadecimal?_hexDigits (width : Nat) {c : Char} (h : c.toNat < Nat.pow 16 width)
    (rest : List Char) :
    hexadecimal? width (hexDigits width c.toNat ++ rest) = some ([c], rest) := by
  have hlen := length_hexDigits width c.toNat
  have hc : c.toNat < 0xD800 ∨ 0xDFFF < c.toNat ∧ c.toNat < 0x110000 := c.valid
  rw [hexadecimal?, if_neg (by rw [List.length_append]; omega), List.take_left' hlen,
    List.drop_left' hlen, ofHexDigits?_hexDigits h]
  show (if _ then some ([Char.ofNat c.toNat], rest) else none) = _
  rw [if_pos hc, Char.ofNat_toNat]

theorem isMark_mark (s : List Char) : isMark (mark s) = true := by
  unfold mark
  split <;> rfl

/-- A character is read back from what is written for it. -/
theorem part?_escape {m : Char} (hm : isMark m = true) (c : Char) (cs : List Char) :
    part? (escape m c ++ cs) = some ([c], cs) := by
  have hc : c.toNat < 0xD800 ∨ 0xDFFF < c.toNat ∧ c.toNat < 0x110000 := c.valid
  unfold escape
  split_ifs with hmark hlf hcr htab hprint hbyte hunit
  · have hletter : escaped? (c :: cs) = some ([c], cs) := by
      rw [isMark, Bool.or_eq_true, decide_eq_true_eq, decide_eq_true_eq] at hm
      rcases hmark with rfl | rfl
      · rfl
      · rcases hm with rfl | rfl <;> rfl
    exact hletter
  · subst hlf; rfl
  · subst hcr; rfl
  · subst htab; rfl
  · rw [not_or] at hmark
    have hnull : c ≠ '\x00' := by
      rintro rfl
      exact absurd hprint (by decide +kernel)
    simp [part?, isBanned, hmark.1, hlf, hcr, hnull]
  · exact hexadecimal?_hexDigits 2 hbyte cs
  · exact hexadecimal?_hexDigits 4 hunit cs
  · have hlong : c.toNat < Nat.pow 16 8 := Nat.lt_trans (by omega) (show 0x110000 < _ by decide)
    exact hexadecimal?_hexDigits 8 hlong cs

/-- Nothing that is written for a character starts with the mark. -/
theorem escape_head {m : Char} (hm : isMark m = true) (c : Char) :
    ∃ d ds, escape m c = d :: ds ∧ d ≠ m := by
  have hback : '\\' ≠ m := by
    rintro rfl
    exact absurd hm (by decide)
  unfold escape
  split_ifs with hmark
  all_goals try exact ⟨_, _, rfl, hback⟩
  exact ⟨c, [], rfl, fun h => hmark (.inr h)⟩

theorem body?_escape {m : Char} (hm : isMark m = true) {s : List Char} {fuel : Nat}
    {rest : List Char} (hf : (s.flatMap (escape m) ++ m :: rest).length ≤ fuel) :
    body? m fuel (s.flatMap (escape m) ++ m :: rest) = some (s, rest) := by
  induction s generalizing fuel with
  | nil =>
    obtain ⟨fuel, rfl⟩ : ∃ n, fuel = n + 1 := ⟨fuel - 1, by simp at hf; omega⟩
    rw [List.flatMap_nil, List.nil_append, body?, if_pos rfl]
  | cons c s ih =>
    obtain ⟨d, ds, hd, hne⟩ := escape_head hm c
    have hread := part?_escape hm c (s.flatMap (escape m) ++ m :: rest)
    rw [List.flatMap_cons, List.append_assoc] at hf ⊢
    rw [hd, List.cons_append] at hf hread ⊢
    rw [List.length_cons, List.length_append] at hf
    obtain ⟨fuel, rfl⟩ : ∃ n, fuel = n + 1 := ⟨fuel - 1, by omega⟩
    rw [body?, if_neg hne, hread, Option.bind_eq_bind, Option.bind_some]
    dsimp only
    rw [ih (by omega)]
    rfl

theorem literal?_encode (s rest : List Char) : literal? (encode s ++ rest) = some (s, rest) := by
  rw [encode, List.cons_append, List.cons_append, List.append_assoc, List.singleton_append,
    literal?, if_pos (isMark_mark s)]
  exact body?_escape (isMark_mark s) (Nat.le_succ _)

/-- The value of a quoted text is the text. -/
theorem read?_encode (s : List Char) : read? (encode s) = some s := by
  have h := literal?_encode s []
  rw [List.append_nil] at h
  rw [read?, h]
  rfl

/-! ## Quoted texts stand on one line -/

/-- No character that ends a line is shown as itself. -/
theorem not_isLineEnd_of_isPrintable {c : Char} (h : isPrintable c = true) :
    isLineEnd c = false := by
  have hends : lineEnds.all (fun c => !isPrintable c) = true := by decide +kernel
  refine Bool.eq_false_iff.2 fun hc => ?_
  have := List.all_eq_true.1 hends c (List.contains_iff_mem.1 hc)
  simp [h] at this

theorem oneLine_hexDigits (width n : Nat) : OneLine (hexDigits width n) := by
  have hdigit : (List.range 16).all (fun d => !isLineEnd (Nat.digitChar d)) = true := by decide
  induction width generalizing n with
  | zero => exact oneLine_nil
  | succ width ih =>
    have := List.all_eq_true.1 hdigit (n % 16) (List.mem_range.2 (Nat.mod_lt _ (by decide)))
    rw [hexDigits, oneLine_append, oneLine_cons]
    exact ⟨ih _, by simpa using this, oneLine_nil⟩

theorem not_isLineEnd_of_isMark {c : Char} (h : isMark c = true) : isLineEnd c = false := by
  rw [isMark, Bool.or_eq_true, decide_eq_true_eq, decide_eq_true_eq] at h
  rcases h with rfl | rfl <;> rfl

theorem oneLine_escape {m : Char} (hm : isMark m = true) (c : Char) : OneLine (escape m c) := by
  unfold escape
  split_ifs with hc hlf hcr htab hprint
  all_goals simp only [oneLine_cons, oneLine_nil, oneLine_hexDigits, and_true]
  · refine ⟨rfl, ?_⟩
    rcases hc with rfl | rfl
    · rfl
    · exact not_isLineEnd_of_isMark hm
  · exact ⟨rfl, rfl⟩
  · exact ⟨rfl, rfl⟩
  · exact ⟨rfl, rfl⟩
  · exact not_isLineEnd_of_isPrintable hprint
  · exact ⟨rfl, rfl⟩
  · exact ⟨rfl, rfl⟩
  · exact ⟨rfl, rfl⟩

theorem oneLine_encode (s : List Char) : OneLine (encode s) := by
  have hmark := not_isLineEnd_of_isMark (isMark_mark s)
  simp only [encode, List.cons_append, oneLine_cons, oneLine_append, oneLine_nil, and_true]
  refine ⟨hmark, fun d hd => ?_, hmark⟩
  obtain ⟨c, -, hd⟩ := List.mem_flatMap.1 hd
  exact oneLine_escape (isMark_mark s) c d hd

/-! ## Surrogates -/

/-- No character has the number of a surrogate. -/
theorem hexadecimal?_surrogate (s : Surrogate) (rest : List Char) :
    hexadecimal? 4 (hexDigits 4 s.unit ++ rest) = none := by
  have hlen := length_hexDigits 4 s.unit
  have hunit := s.isSurrogate
  rw [hexadecimal?, if_neg (by rw [List.length_append]; omega), List.take_left' hlen,
    ofHexDigits?_hexDigits s.unit_lt]
  exact if_neg (by omega)

end TokenStream.Quoted

namespace TokenStream.Document

/-- The surrogate in the literal in front, and what is behind it. -/
def surrogate? : List Char → Option (Surrogate × List Char)
  | '\x27' :: '\\' :: 'u' :: cs => do
    let unit ← ofHexDigits? (cs.take 4)
    match cs.drop 4 with
    | '\x27' :: rest => if h : 0xD800 ≤ unit ∧ unit ≤ 0xDFFF then some (⟨unit, h⟩, rest) else none
    | _ => none
  | _ => none

/-- The text or the surrogate of the literal in front, and what is behind it. -/
def literal? (cs : List Char) : Option (Document × List Char) :=
  match Quoted.literal? cs with
  | some (text, rest) => some (ofChars text, rest)
  | none => (surrogate? cs).map fun v => ([.surrogate v.1], v.2)

theorem quoted_surrogate (s : Surrogate) :
    quoted [.surrogate s] = '\x27' :: '\\' :: 'u' :: (hexDigits 4 s.unit ++ ['\x27']) := by
  have hmark : Quoted.mark (scrubbed [.surrogate s]) = '\x27' := by
    show Quoted.mark [CodePoint.replacement] = '\x27'
    decide
  rw [quoted, hmark]
  simp [CodePoint.escape]

theorem literal?_surrogate (s : Surrogate) (rest : List Char) :
    literal? (quoted [.surrogate s] ++ rest) = some ([.surrogate s], rest) := by
  have hlen := length_hexDigits 4 s.unit
  rw [quoted_surrogate, List.cons_append, List.cons_append, List.cons_append, List.append_assoc]
  have hpart : Quoted.part? ('\\' :: 'u' :: (hexDigits 4 s.unit ++ (['\x27'] ++ rest))) = none :=
    Quoted.hexadecimal?_surrogate s _
  have hchar : Quoted.literal? ('\x27' :: '\\' :: 'u' ::
      (hexDigits 4 s.unit ++ (['\x27'] ++ rest))) = none := by
    rw [Quoted.literal?, if_pos (by decide), Quoted.body?, if_neg (by decide), hpart]
    rfl
  have hread : surrogate? ('\x27' :: '\\' :: 'u' ::
      (hexDigits 4 s.unit ++ (['\x27'] ++ rest))) = some (s, rest) := by
    rw [surrogate?, List.take_left' hlen, List.drop_left' hlen,
      ofHexDigits?_hexDigits s.unit_lt]
    exact dif_pos s.isSurrogate
  rw [literal?, hchar, hread]
  rfl

/-- A text or a surrogate is read back from its quoted form. -/
theorem literal?_quoted {d : Document} (h : d.IsText ∨ ∃ s, d = [.surrogate s])
    (rest : List Char) : literal? (d.quoted ++ rest) = some (d, rest) := by
  rcases h with htext | ⟨s, rfl⟩
  · obtain ⟨cs, rfl⟩ := htext.exists_chars
    rw [literal?, quoted_ofChars, Quoted.literal?_encode]
  · exact literal?_surrogate s rest

theorem oneLine_quoted (d : Document) : OneLine d.quoted := by
  have hmark := Quoted.not_isLineEnd_of_isMark (Quoted.isMark_mark d.scrubbed)
  simp only [quoted, List.cons_append, oneLine_cons, oneLine_append, oneLine_nil, and_true]
  refine ⟨hmark, fun c hc => ?_, hmark⟩
  obtain ⟨point, -, hc⟩ := List.mem_flatMap.1 hc
  cases point with
  | char c' => exact Quoted.oneLine_escape (Quoted.isMark_mark d.scrubbed) c' c hc
  | surrogate s =>
    have hescape : OneLine (CodePoint.escape (Quoted.mark d.scrubbed) (.surrogate s)) := by
      simp only [CodePoint.escape, oneLine_cons, Quoted.oneLine_hexDigits, and_true]
      exact ⟨rfl, rfl⟩
    exact hescape c hc

end TokenStream.Document
