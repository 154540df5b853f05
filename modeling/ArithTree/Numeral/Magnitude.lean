/-!
# Binary64 numbers as exact magnitudes

A finite binary64 number is, up to its sign, a natural number times a power of two. The decimals
that are read as this number are those between the two midpoints towards its neighbours.
-/

namespace ArithTree.Numeral

structure Magnitude where
  mantissa : Nat
  exponent : Int
  /-- the neighbour below is half as far away as the neighbour above -/
  narrowBelow : Bool
  deriving DecidableEq, Repr

namespace Magnitude

/-- The magnitude in the bits of a finite number: eleven bits of exponent above the 52 stored bits
of the mantissa. -/
def ofBits (bits : UInt64) : Magnitude :=
  let exponent := ((bits >>> 52) &&& 0x7FF).toNat
  let fraction := (bits &&& 0xFFFFFFFFFFFFF).toNat
  if exponent = 0 then ⟨fraction, -1074, false⟩
  else ⟨0x10000000000000 + fraction, (exponent : Int) - 1075, fraction = 0 && 1 < exponent⟩

/-- Four times the mantissa less the way to the midpoint below, in units of a quarter. -/
def lowerEnd (x : Magnitude) : Nat := 4 * x.mantissa - if x.narrowBelow then 1 else 2

/-- Four times the mantissa and the way to the midpoint above, in units of a quarter. -/
def upperEnd (x : Magnitude) : Nat := 4 * x.mantissa + 2

/-- The midpoints themselves are read as the number whose mantissa is even. -/
def includesEnds (x : Magnitude) : Bool := x.mantissa % 2 = 0

end Magnitude

/-- The grid of the multiples of a power of ten, seen from the binary quarters of a magnitude: the
point `c` stands at `c * step` and `b` quarters stand at `b * quarter`. -/
structure Grid where
  step : Nat
  quarter : Nat
  deriving DecidableEq, Repr

namespace Grid

def of (ten two : Int) : Grid :=
  ⟨Nat.pow 10 ten.toNat * Nat.pow 2 (2 - two).toNat,
    Nat.pow 2 (two - 2).toNat * Nat.pow 10 (-ten).toNat⟩

def readsBack (g : Grid) (x : Magnitude) (c : Nat) : Bool :=
  if x.includesEnds then
    x.lowerEnd * g.quarter ≤ c * g.step && c * g.step ≤ x.upperEnd * g.quarter
  else
    x.lowerEnd * g.quarter < c * g.step && c * g.step < x.upperEnd * g.quarter

def floor (g : Grid) (x : Magnitude) : Nat := 4 * x.mantissa * g.quarter / g.step

def nearerBelow (g : Grid) (x : Magnitude) (c : Nat) : Bool :=
  2 * (4 * x.mantissa * g.quarter) < (2 * c + 1) * g.step

/-- The point of the grid that is read as `x` and nearest to it. Of two that are equally near the
greater is taken. -/
def nearest? (g : Grid) (x : Magnitude) : Option Nat :=
  let below := g.floor x
  match g.readsBack x below, g.readsBack x (below + 1) with
  | true, true => some (if g.nearerBelow x below then below else below + 1)
  | true, false => some below
  | false, true => some (below + 1)
  | false, false => none

theorem readsBack_of_nearest? {g : Grid} {x : Magnitude} {c : Nat} (h : g.nearest? x = some c) :
    g.readsBack x c = true := by
  simp only [nearest?] at h
  split at h
  · rename_i hbelow habove
    split at h <;> cases h <;> assumption
  · rename_i hbelow _
    cases h
    exact hbelow
  · rename_i _ habove
    cases h
    exact habove
  · contradiction

end Grid

end ArithTree.Numeral
