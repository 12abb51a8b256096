import TokenStream.Text.CharClass
import TokenStream.Text.Quoted
import TokenStream.Text.Utf16

/-!
# Code points and documents

An editor sends its texts in UTF-16 units, and one half of a surrogate pair may come
without the other. Such a surrogate is a code point but no character: it is in none
of the classes, quoted texts write it as an escape, and it cannot be encoded. A
document is a list of code points, and a text is a document without surrogates.
Main statements: a text is encoded as its characters are (`Document.encode_ofChars`),
and any other document fails to be at its first surrogate
(`Document.encode_surrogate`).
-/

namespace TokenStream

/-- One half of a surrogate pair on its own. -/
structure Surrogate where
  unit : Nat
  isSurrogate : 0xD800 ≤ unit ∧ unit ≤ 0xDFFF
deriving DecidableEq, Repr

/-- A surrogate is written with four hexadecimal digits. -/
theorem Surrogate.unit_lt (s : Surrogate) : s.unit < Nat.pow 16 4 :=
  Nat.lt_of_le_of_lt s.isSurrogate.2 (by decide)

inductive CodePoint where
  | char (c : Char)
  | surrogate (s : Surrogate)
deriving DecidableEq, Repr

namespace CodePoint

/-- The classes of a code point; a surrogate is in none. -/
def classes : CodePoint → CharClass
  | char c => .ofChar c
  | surrogate _ => .none

/-- A character that is in no class either. -/
def replacement : Char := '\uFFFD'

/-- The character that is read in place of a code point. -/
def scrub : CodePoint → Char
  | char c => c
  | surrogate _ => replacement

/-- One code point between the marks `m`. -/
def escape (m : Char) : CodePoint → List Char
  | char c => Quoted.escape m c
  | surrogate s => '\\' :: 'u' :: hexDigits 4 s.unit

end CodePoint

/-- A text as an editor sends it. -/
abbrev Document := List CodePoint

/-- A document that cannot be encoded: its first surrogate, and the offset of that. -/
structure Unencodable where
  surrogate : Surrogate
  offset : Nat
deriving DecidableEq, Repr

def Unencodable.message (e : Unencodable) : String :=
  "\x27utf-16-le\x27 codec can\x27t encode character \x27\\u" ++
    String.ofList (hexDigits 4 e.surrogate.unit) ++ "\x27 in position " ++ toString e.offset ++
    ": surrogates not allowed"

namespace Document

def ofChars (cs : List Char) : Document := cs.map .char

def ofString (s : String) : Document := ofChars s.toList

/-- Is the document a text? -/
def IsText (d : Document) : Prop := ∀ s, CodePoint.surrogate s ∉ d

/-- The characters that are read in place of the code points. -/
def scrubbed (d : Document) : List Char := d.map CodePoint.scrub

/-- The quoted form of a document. -/
def quoted (d : Document) : List Char :=
  let mark := Quoted.mark d.scrubbed
  mark :: d.flatMap (CodePoint.escape mark) ++ [mark]

/-- The UTF-16 units of a document whose first code point has the given offset. -/
def encodeFrom (offset : Nat) : Document → Except Unencodable (List Nat)
  | [] => .ok []
  | .char c :: d => (encodeFrom (offset + 1) d).map (Utf16.encodeChar c ++ ·)
  | .surrogate s :: _ => .error ⟨s, offset⟩

/-- The UTF-16 units of a document. -/
def encode (d : Document) : Except Unencodable (List Nat) := encodeFrom 0 d

@[simp] theorem scrubbed_ofChars (cs : List Char) : (ofChars cs).scrubbed = cs := by
  rw [scrubbed, ofChars, List.map_map]
  exact List.map_id cs

@[simp] theorem length_scrubbed (d : Document) : d.scrubbed.length = d.length := List.length_map _

@[simp] theorem length_ofChars (cs : List Char) : (ofChars cs).length = cs.length :=
  List.length_map _

theorem scrubbed_append (d e : Document) : scrubbed (d ++ e) = d.scrubbed ++ e.scrubbed :=
  List.map_append

theorem quoted_ofChars (cs : List Char) : (ofChars cs).quoted = Quoted.encode cs := by
  rw [quoted, scrubbed_ofChars, ofChars, List.flatMap_map]
  rfl

theorem encodeFrom_ofChars (offset : Nat) (cs : List Char) :
    encodeFrom offset (ofChars cs) = .ok (Utf16.encode cs) := by
  induction cs generalizing offset with
  | nil => rfl
  | cons c cs ih =>
    show (encodeFrom (offset + 1) (ofChars cs)).map (Utf16.encodeChar c ++ ·) = _
    rw [ih]
    rfl

theorem encode_ofChars (cs : List Char) : (ofChars cs).encode = .ok (Utf16.encode cs) :=
  encodeFrom_ofChars 0 cs

theorem encodeFrom_surrogate (offset : Nat) (cs : List Char) (s : Surrogate) (d : Document) :
    encodeFrom offset (ofChars cs ++ .surrogate s :: d) = .error ⟨s, offset + cs.length⟩ := by
  induction cs generalizing offset with
  | nil => rfl
  | cons c cs ih =>
    show (encodeFrom (offset + 1) (ofChars cs ++ .surrogate s :: d)).map _ = _
    rw [ih, List.length_cons, Nat.add_right_comm, Nat.add_assoc]
    rfl

theorem encode_surrogate (cs : List Char) (s : Surrogate) (d : Document) :
    encode (ofChars cs ++ .surrogate s :: d) = .error ⟨s, cs.length⟩ := by
  rw [encode, encodeFrom_surrogate, Nat.zero_add]

/-- A document is a text, or it has a first surrogate. -/
theorem eq_ofChars_or_surrogate (d : Document) :
    (∃ cs, d = ofChars cs) ∨ ∃ cs s rest, d = ofChars cs ++ .surrogate s :: rest := by
  induction d with
  | nil => exact .inl ⟨[], rfl⟩
  | cons c d ih =>
    cases c with
    | surrogate s => exact .inr ⟨[], s, d, rfl⟩
    | char c =>
      rcases ih with ⟨cs, rfl⟩ | ⟨cs, s, rest, rfl⟩
      · exact .inl ⟨c :: cs, rfl⟩
      · exact .inr ⟨c :: cs, s, rest, rfl⟩

theorem isText_ofChars (cs : List Char) : (ofChars cs).IsText := fun s hs => by
  obtain ⟨c, -, hc⟩ := List.mem_map.1 hs
  contradiction

theorem IsText.exists_chars {d : Document} (h : d.IsText) : ∃ cs, d = ofChars cs := by
  rcases eq_ofChars_or_surrogate d with htext | ⟨cs, s, rest, rfl⟩
  · exact htext
  · exact absurd (List.mem_append_right _ (.head _)) (h s)

end Document

end TokenStream
