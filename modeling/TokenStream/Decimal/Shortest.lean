import TokenStream.Decimal.Binary64

/-!
# The shortest decimal of a binary number

Of all decimals that are rounded to a given binary number, the one with the
fewest digits stands for it, and of several with that many digits the one
nearest to the number. Grids of one, two, up to seventeen digits are tried in
turn; on each of them only the two neighbours of the number come into question.
-/

namespace TokenStream.Shortest

/-- A decimal `digits * 10 ^ scale`. -/
structure Decimal where
  digits : Nat
  scale : Int
deriving DecidableEq, Repr

/-- The decimals that are rounded to one number, as an interval of multiples of
the unit `unitNum / unitDen`, a quarter of the number's last binary place. -/
structure Interval where
  unitNum : Nat
  unitDen : Nat
  low : Nat
  value : Nat
  high : Nat
  /-- Do the ends belong to the interval? -/
  closed : Bool

/-- The interval of `significand * 2 ^ exponent`. Below a power of two the
neighbours are half as far apart as above it. -/
def interval (significand : Nat) (exponent : Int) : Interval where
  unitNum := 1 <<< (exponent - 2).toNat
  unitDen := 1 <<< (2 - exponent).toNat
  low :=
    if significand = 1 <<< 52 ∧ Binary64.minExponent < exponent then 4 * significand - 1
    else 4 * significand - 2
  value := 4 * significand
  high := 4 * significand + 2
  closed := significand % 2 = 0

/-- The point of the grid `10 ^ scale` that stands for the number, if one of
its two neighbours there is in the interval: the nearer one if both are, and
the even one if both are equally near. -/
def onGrid (i : Interval) (scale : Int) : Option Decimal :=
  -- on a common scale, a multiple `a` of the unit is `a * s` and the point `n` is `n * t`
  let s := i.unitNum * Nat.pow 10 (-scale).toNat
  let t := i.unitDen * Nat.pow 10 scale.toNat
  let isInside (n : Nat) : Bool :=
    if i.closed then i.low * s ≤ n * t ∧ n * t ≤ i.high * s
    else i.low * s < n * t ∧ n * t < i.high * s
  let below := i.value * s / t
  let above := below + 1
  let nearest := Binary64.roundDiv (i.value * s) t
  if isInside below && isInside above then some ⟨nearest, scale⟩
  else if isInside below then some ⟨below, scale⟩
  else if isInside above then some ⟨above, scale⟩
  else none

/-- The number of places before the point of a positive fraction; it is not
positive if zeros follow the point. -/
def places (num den : Nat) : Int :=
  if den ≤ num then (Nat.toDigits 10 (num / den)).length
  else 1 - (Nat.toDigits 10 (den / num)).length

/-- Takes `count` zeros off the end at most. -/
def strip : Nat → Decimal → Decimal
  | 0, d => d
  | count + 1, d => if d.digits % 10 = 0 then strip count ⟨d.digits / 10, d.scale + 1⟩ else d

/-- The shortest decimal of `significand * 2 ^ exponent`, for a positive significand. -/
def decimal (significand : Nat) (exponent : Int) : Decimal :=
  let i := interval significand exponent
  let whole := places (i.value * i.unitNum) i.unitDen
  let found := (List.range 17).findSome? fun (k : Nat) => onGrid i (whole - 1 - k)
  strip 17 (found.getD ⟨0, 0⟩)

end TokenStream.Shortest
