import TokenStream.Proofs.Position

/-!
# Offsets and positions determine each other

A position names one offset at most: that in its line behind as many UTF-16 units of the
line as it counts. The position of an offset into the text names that offset, and offsets
outside the text have the positions of those they are clamped to. Main statements:
`Position.names_iff` and `Position.offset_of_position`.
-/

namespace TokenStream

namespace Position

variable {text : List Char} {line start n : Nat} {p : Position}

/-- Where a line of a text starts: the first one with the text, any other one behind the line
feed that ends the one before. -/
inductive StartsLine (text : List Char) : Nat → Nat → Prop
  | first : StartsLine text 0 0
  | next {n : Nat} (h : text[n]? = some '\n') :
      StartsLine text ((text.take n).count '\n' + 1) (n + 1)

/-- Does a position name an offset? Its line goes on up to there, with as many UTF-16 units as it
counts. -/
def Names (text : List Char) (p : Position) (n : Nat) : Prop :=
  ∃ start, StartsLine text p.line start ∧ start ≤ n ∧ '\n' ∉ (text.take n).drop start ∧
    Utf16.length ((text.take n).drop start) = p.character

/-! ## Positions at the start of a line and within it -/

theorem StartsLine.afterText_take (h : StartsLine text line start) :
    afterText (text.take start) = ⟨line, 0⟩ := by
  cases h with
  | first => rfl
  | @next n hn =>
    have htake : text.take (n + 1) = text.take n ++ ['\n'] := by
      rw [List.take_add_one, hn, Option.toList_some]
    rw [afterText, htake, lastLine_append_newline, List.count_append]
    rfl

theorem afterText_append (s : List Char) {t : List Char} (h : '\n' ∉ t) :
    afterText (s ++ t) = ⟨(afterText s).line, (afterText s).character + Utf16.length t⟩ := by
  rw [afterText, lastLine_append h, Utf16.length_append, List.count_append,
    List.count_eq_zero.2 h]
  rfl

/-- The last line of a text has a place where it starts. -/
theorem exists_startsLine (s t : List Char) :
    ∃ start, StartsLine (s ++ t) (afterText s).line start ∧ start ≤ s.length ∧
      '\n' ∉ s.drop start := by
  rcases notMem_or_exists_last s with hnone | ⟨a, b, rfl, hb⟩
  · have hline : (afterText s).line = 0 := List.count_eq_zero.2 hnone
    exact ⟨0, by rw [hline]; exact .first, Nat.zero_le _, hnone⟩
  · have hfeed : (a ++ '\n' :: b ++ t)[a.length]? = some '\n' := by simp
    have hline : (afterText (a ++ '\n' :: b)).line =
        ((a ++ '\n' :: b ++ t).take a.length).count '\n' + 1 := by
      simp [afterText, List.count_eq_zero.2 hb]
    exact ⟨a.length + 1, hline ▸ .next hfeed, by simp, by simpa using hb⟩

/-- The position of an offset counts from any start of a line up to which no line feed stands. -/
theorem StartsLine.ofOffset_eq (h : StartsLine text line start) (hle : start ≤ n)
    (hn : n ≤ text.length) (hnone : '\n' ∉ (text.take n).drop start) :
    ofOffset text n = ⟨line, Utf16.length ((text.take n).drop start)⟩ := by
  have hsplit : text.take n = text.take start ++ (text.take n).drop start := by
    have := List.take_append_drop start (text.take n)
    rwa [List.take_take, Nat.min_eq_left hle, eq_comm] at this
  calc ofOffset text n = afterText (text.take start ++ (text.take n).drop start) := by
        rw [ofOffset_natCast hn, ← hsplit]
    _ = ⟨line, Utf16.length ((text.take n).drop start)⟩ := by
        rw [afterText_append _ hnone, h.afterText_take, Nat.zero_add]

/-- A position names an offset into the text exactly when it is that of the offset. -/
theorem names_iff (hn : n ≤ text.length) : Names text p n ↔ ofOffset text n = p := by
  constructor
  · rintro ⟨start, hstart, hle, hnone, hunits⟩
    rw [hstart.ofOffset_eq hle hn hnone, hunits]
  · rintro rfl
    obtain ⟨start, hstart, hle, hnone⟩ := exists_startsLine (text.take n) (text.drop n)
    rw [List.take_append_drop, ← ofOffset_natCast hn] at hstart
    rw [List.length_take, Nat.min_eq_left hn] at hle
    exact ⟨start, hstart, hle, hnone, by rw [hstart.ofOffset_eq hle hn hnone]⟩

theorem eq_of_ofOffset_eq {m : Nat} (hm : m ≤ text.length) (hn : n ≤ text.length)
    (h : ofOffset text m = ofOffset text n) : m = n := by
  rcases Nat.lt_trichotomy m n with hlt | heq | hgt
  · exact absurd (h ▸ ofOffset_lt hlt hn) (lt_irrefl _)
  · exact heq
  · exact absurd (h ▸ ofOffset_lt hgt hm) (lt_irrefl _)

/-! ## Offsets outside the text -/

theorem ofOffset_of_lt {offset : Int} (h : text.length < offset) :
    ofOffset text offset = ofOffset text text.length := by
  have hclamp : clamp text.length offset = text.length := by
    unfold clamp
    split <;> omega
  rw [ofOffset_eq, ofOffset_eq, hclamp, clamp_natCast (Nat.le_refl _)]

theorem ofOffset_of_neg {offset : Int} (h : offset < 0) :
    ofOffset text offset = ofOffset text (max (text.length + offset) 0) := by
  have hclamp : clamp text.length offset = clamp text.length (max (text.length + offset) 0) := by
    unfold clamp
    split <;> split <;> omega
  rw [ofOffset_eq, ofOffset_eq, hclamp]

/-- Positions are in the strict order of the offsets into a text. The position of an offset counts
the line feeds in front of it, and names this offset only. An offset outside the text has the
position of the end it lies beyond, or of the place it counts back to. -/
theorem offset_of_position (text : List Char) :
    (∀ m n : Nat, m < n → n ≤ text.length → ofOffset text m < ofOffset text n) ∧
    (∀ n : Nat, n ≤ text.length →
      (ofOffset text n).line = (text.take n).count '\n' ∧
        ∀ m : Nat, m ≤ text.length → (Names text (ofOffset text n) m ↔ m = n)) ∧
    ∀ offset : Int,
      (text.length < offset → ofOffset text offset = ofOffset text text.length) ∧
      (offset < 0 → ofOffset text offset = ofOffset text (max (text.length + offset) 0)) := by
  refine ⟨fun m n => ofOffset_lt, fun n hn => ⟨?_, fun m hm => ?_⟩, fun offset => ?_⟩
  · rw [ofOffset_natCast hn]
    rfl
  · rw [names_iff hm]
    exact ⟨eq_of_ofOffset_eq hm hn, fun h => h ▸ rfl⟩
  · exact ⟨ofOffset_of_lt, ofOffset_of_neg⟩

/-- Behind a character of two units on the second line, the line feed itself has a position. -/
theorem offset_of_position_wide :
    let text := "x\ny😀\n".toList
    ofOffset text 4 = ⟨1, 3⟩ ∧ ofOffset text (-1) = ofOffset text 4 ∧
      ofOffset text 4 < ofOffset text 5 ∧ ∀ m : Nat, m ≤ 5 → Names text ⟨1, 3⟩ m → m = 4 := by
  intro text
  obtain ⟨hlt, hnames, hclamp⟩ := offset_of_position text
  have hposition : ofOffset text (4 : Nat) = ⟨1, 3⟩ := by decide
  have hlast := (hclamp (-1)).2 (by decide)
  exact ⟨hposition, hlast, hlt 4 5 (by decide) (by decide), fun m hm h =>
    ((hnames 4 (by decide)).2 m hm).1 (hposition ▸ h)⟩

end Position

end TokenStream
