/-!
# Hexadecimal numbers of fixed width

The escapes of quoted texts give a code point or a code unit as a fixed number
of lower-case hexadecimal digits. Main statement: a number that fits the width
is read back from its digits (`ofHexDigits?_hexDigits`).
-/

namespace TokenStream

/-- The last `width` hexadecimal digits of a number. -/
def hexDigits : Nat → Nat → List Char
  | 0, _ => []
  | width + 1, n => hexDigits width (n / 16) ++ [Nat.digitChar (n % 16)]

/-- The value of a hexadecimal digit of either case. -/
def hexValue? (c : Char) : Option Nat :=
  if c.isDigit then some (c.toNat - 48)
  else if 'a' ≤ c ∧ c ≤ 'f' then some (c.toNat - 87)
  else if 'A' ≤ c ∧ c ≤ 'F' then some (c.toNat - 55)
  else none

/-- The number that a run of hexadecimal digits stands for. -/
def ofHexDigits? (cs : List Char) : Option Nat :=
  cs.foldlM (fun n c => (hexValue? c).map (16 * n + ·)) 0

@[simp] theorem length_hexDigits (width n : Nat) : (hexDigits width n).length = width := by
  induction width generalizing n with
  | zero => rfl
  | succ width ih => simp [hexDigits, ih]

theorem hexValue?_digitChar : ∀ d < 16, hexValue? (Nat.digitChar d) = some d := by decide

theorem ofHexDigits?_hexDigits {width n : Nat} (h : n < Nat.pow 16 width) :
    ofHexDigits? (hexDigits width n) = some n := by
  induction width generalizing n with
  | zero =>
    have : n = 0 := by simpa using h
    subst this
    rfl
  | succ width ih =>
    have hpow : Nat.pow 16 (width + 1) = Nat.pow 16 width * 16 := rfl
    have hw : n / 16 < Nat.pow 16 width := by omega
    have ih := ih hw
    simp only [ofHexDigits?] at ih ⊢
    rw [hexDigits, List.foldlM_append, ih]
    have hd := hexValue?_digitChar (n % 16) (Nat.mod_lt _ (by decide))
    simp only [List.foldlM_cons, List.foldlM_nil, Option.bind_eq_bind, Option.bind_some, hd,
      Option.map_some]
    congr 1
    omega

end TokenStream
