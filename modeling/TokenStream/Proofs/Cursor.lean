import TokenStream.Lexer.Extent
import TokenStream.Proofs.Lexeme

/-!
# Readings as functions of the remaining text

Every cursor that is reached from the start of a text is `Cursor.atOffset` for
some offset, and what it reads depends only on the text from that offset on:
the blanks there are passed over, the longest lexeme behind them is munched, and
the cursor ends behind it. Main statements: `Cursor.advanceWhile_atOffset`,
`Cursor.read_atOffset` and `Cursor.pull_atOffset`.
-/

namespace TokenStream

/-- Is the lexeme a run of digits that is too long to be converted? -/
def isOverlong (raw : List Char) : Bool := raw.all Char.isDigit && Numeral.maxDigits < raw.length

/-- What reading a lexeme gives. -/
def outcomeOf (raw : List Char) : Except Numeral.Error Token :=
  if isOverlong raw then .error (.tooLongToRead raw.length) else .ok (.ofLexeme raw)

/-- The overflow that reading a lexeme at an offset records. -/
def overflowOf? (start : Nat) (raw : List Char) : Option Overflow :=
  if raw.all Char.isDigit ∧ isOverlong raw = false ∧ maxInt < Numeral.value raw then
    some ⟨.ofList raw, start⟩
  else none

theorem isOverlong_of_not_digit {c : Char} (hd : c.isDigit = false) (cs : List Char) :
    isOverlong (c :: cs) = false := by
  simp [isOverlong, hd]

theorem outcomeOf_of_not_digit {c : Char} (hd : c.isDigit = false) (cs : List Char) :
    outcomeOf (c :: cs) = .ok (.ofLexeme (c :: cs)) := by
  simp [outcomeOf, isOverlong_of_not_digit hd]

theorem overflowOf?_of_not_digit {c : Char} (hd : c.isDigit = false) (cs : List Char)
    (start : Nat) : overflowOf? start (c :: cs) = none := by
  simp [overflowOf?, hd]

namespace Cursor

/-- The cursor of a text at an offset, which may lie past the end of the text. -/
def atOffset (source : Array Char) (p : Nat) : Cursor := ⟨source, p, p + 1, source[p]?⟩

theorem ofText_eq (text : List Char) : ofText text = atOffset text.toArray 0 := rfl

@[simp] theorem position_atOffset (source : Array Char) (p : Nat) :
    (atOffset source p).position = p := rfl

@[simp] theorem advance_atOffset (source : Array Char) (p : Nat) :
    (atOffset source p).advance = atOffset source (p + 1) := rfl

theorem current?_atOffset (source : Array Char) (p : Nat) :
    (atOffset source p).current? = (source.toList.drop p).head? := by
  simp [atOffset]

theorem peek?_atOffset (source : Array Char) (p : Nat) :
    (atOffset source p).peek? = (source.toList.drop p).tail.head? := by
  simp [atOffset, peek?]

/-- The text behind the cursor of a text that goes on with `c :: cs`. -/
theorem drop_succ_of_drop {source : Array Char} {p : Nat} {c : Char} {cs : List Char}
    (h : source.toList.drop p = c :: cs) : source.toList.drop (p + 1) = cs := by
  rw [← List.drop_drop, h, List.drop_one, List.tail_cons]

theorem advanceWhile_eq (q : Char → Bool) (c : Cursor) :
    c.advanceWhile q =
      match c.current? with
      | some ch => if q ch then c.advance.advanceWhile q else c
      | none => c := by
  rw [advanceWhile]
  split <;> simp_all

/-- Moving on while the characters have a property leads behind the run of them. -/
theorem advanceWhile_atOffset (q : Char → Bool) (source : Array Char) (p : Nat) :
    (atOffset source p).advanceWhile q =
      atOffset source (p + ((source.toList.drop p).takeWhile q).length) := by
  induction hr : source.toList.drop p generalizing p with
  | nil => rw [advanceWhile_eq, current?_atOffset, hr]; rfl
  | cons c cs ih =>
    rw [advanceWhile_eq, current?_atOffset, hr, List.takeWhile_cons]
    simp only [List.head?_cons, advance_atOffset]
    split
    · rw [ih (p + 1) (drop_succ_of_drop hr), List.length_cons]
      congr 1
      omega
    · rfl

theorem textFrom_atOffset (q : Char → Bool) (source : Array Char) (p : Nat) :
    (atOffset source (p + ((source.toList.drop p).takeWhile q).length)).textFrom p =
      (source.toList.drop p).takeWhile q := by
  rw [textFrom, position_atOffset, Array.toList_extract, List.extract_eq_take_drop,
    Nat.add_sub_cancel_left]
  exact (List.prefix_iff_eq_take.1 (List.takeWhile_prefix q)).symm

theorem readWord_atOffset {source : Array Char} {p : Nat} {c : Char} {cs : List Char}
    (hr : source.toList.drop p = c :: cs) (hl : isLetter c = true) :
    (atOffset source p).readWord =
      ⟨.ok (.ofLexeme (munch (c :: cs))), atOffset source (p + (munch (c :: cs)).length),
        none⟩ := by
  have hw : (c :: cs).takeWhile isLetter ≠ [] := by simp [hl]
  rw [munch_of_letter hl, Token.ofLexeme_of_letters hw fun _ => of_mem_takeWhile, ← hr]
  simp only [readWord, advanceWhile_atOffset, position_atOffset, textFrom_atOffset]

theorem readNumber_atOffset {source : Array Char} {p : Nat} {c : Char} {cs : List Char}
    (hr : source.toList.drop p = c :: cs) (hd : c.isDigit = true) :
    (atOffset source p).readNumber =
      ⟨outcomeOf (munch (c :: cs)), atOffset source (p + (munch (c :: cs)).length),
        overflowOf? p (munch (c :: cs))⟩ := by
  have hne : (c :: cs).takeWhile Char.isDigit ≠ [] := by simp [hd]
  have hall : ((c :: cs).takeWhile Char.isDigit).all Char.isDigit = true := List.all_takeWhile
  rw [munch_of_digit hd]
  simp only [← hr] at hne hall ⊢
  simp only [readNumber, advanceWhile_atOffset, position_atOffset, textFrom_atOffset]
  generalize (source.toList.drop p).takeWhile Char.isDigit = ds at hne hall ⊢
  rw [outcomeOf, Token.ofLexeme_of_digits hne (List.all_eq_true.1 hall)]
  simp only [overflowOf?, isOverlong, hall, Bool.true_and, true_and, decide_eq_true_eq,
    decide_eq_false_iff_not, Numeral.read, Token.ofDigits]
  by_cases hlong : Numeral.maxDigits < ds.length
  · simp [hlong]
  · by_cases hv : maxInt < Numeral.value ds <;> simp [hlong, hv]

theorem readOperator_atOffset {source : Array Char} {p : Nat} {c : Char} {cs : List Char}
    (hr : source.toList.drop p = c :: cs) {alone withEquals : Kind}
    (ho : (c, alone, withEquals) ∈ Kind.operators) :
    (atOffset source p).readOperator c alone withEquals =
      ⟨.ok (.ofLexeme (munch (c :: cs))), atOffset source (p + (munch (c :: cs)).length),
        none⟩ := by
  obtain ⟨-, hl, hd, -⟩ := Kind.operators_apart _ ho
  have hp : (atOffset source p).peek? = cs.head? := by rw [peek?_atOffset, hr, List.tail_cons]
  simp only [readOperator, hp, munch_of_other hl hd, Kind.eq_of_mem_operators ho, true_and]
  split <;> simp [Token.ofLexeme_of_operator ho, emit]

theorem emit_atOffset {source : Array Char} {p : Nat} {c : Char} (hl : isLetter c = false)
    (hd : c.isDigit = false) (ho : Kind.operators.lookup c = none) (cs : List Char) :
    (atOffset source p).emit ⟨(Kind.symbols.lookup c).getD .illegal, .absent, .ofList [c]⟩ =
      ⟨.ok (.ofLexeme (munch (c :: cs))), atOffset source (p + (munch (c :: cs)).length),
        none⟩ := by
  have hm : munch (c :: cs) = [c] := by
    rw [munch_of_other hl hd, if_neg]
    rintro ⟨hc, -⟩
    obtain ⟨kinds, hk⟩ := Kind.mem_operators_of_eq hc
    simp [Kind.lookup_operators.2 hk] at ho
  rw [hm, Token.ofLexeme_of_other hl hd ho]
  rfl

/-- Reading at an offset munches the longest lexeme there. -/
theorem read_atOffset (source : Array Char) (p : Nat) :
    (atOffset source p).read =
      ⟨outcomeOf (munch (source.toList.drop p)),
        atOffset source (p + (munch (source.toList.drop p)).length),
        overflowOf? p (munch (source.toList.drop p))⟩ := by
  rw [read, current?_atOffset]
  cases hr : source.toList.drop p with
  | nil => rfl
  | cons c cs =>
    obtain ⟨raw, hraw⟩ := munch_cons c cs
    -- A lexeme that starts with no digit is neither refused nor recorded.
    have hplain : c.isDigit = false → ∀ cursor : Cursor,
        (⟨.ok (.ofLexeme (munch (c :: cs))), cursor, none⟩ : Pull) =
          ⟨outcomeOf (munch (c :: cs)), cursor, overflowOf? p (munch (c :: cs))⟩ := by
      intro hd cursor
      rw [hraw, outcomeOf_of_not_digit hd, overflowOf?_of_not_digit hd]
    simp only [List.head?_cons]
    split
    · rename_i alone withEquals ho
      have hm := Kind.lookup_operators.1 ho
      rw [readOperator_atOffset hr hm, hplain (Kind.operators_apart _ hm).2.2.1]
    · rename_i ho
      split
      · rename_i kind hs
        obtain ⟨-, hl, hd, -⟩ := Kind.symbols_apart _ (Kind.lookup_symbols.1 hs)
        rw [← hplain hd, ← emit_atOffset hl hd ho cs, hs, Option.getD_some]
      · rename_i hs
        split
        · rename_i hl
          have hd : c.isDigit = false :=
            Bool.eq_false_iff.2 fun hd => by simp [not_isLetter_of_isDigit hd] at hl
          rw [readWord_atOffset hr hl, hplain hd]
        · rename_i hl
          split
          · exact readNumber_atOffset hr ‹_›
          · rename_i hd
            rw [Bool.not_eq_true] at hl hd
            rw [← hplain hd, ← emit_atOffset hl hd ho cs, hs, Option.getD_none]

/-- A pull passes over the blanks and munches the longest lexeme behind them. -/
theorem pull_atOffset (source : Array Char) (p : Nat) :
    (atOffset source p).pull =
      let start := p + ((source.toList.drop p).takeWhile isBlank).length
      let raw := munch ((source.toList.drop p).dropWhile isBlank)
      ⟨outcomeOf raw, atOffset source (start + raw.length), overflowOf? start raw⟩ := by
  rw [pull, skipBlanks, advanceWhile_atOffset, read_atOffset, ← List.drop_drop,
    drop_length_takeWhile]

end Cursor

end TokenStream
