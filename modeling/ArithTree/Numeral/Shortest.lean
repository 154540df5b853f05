import ArithTree.Numeral.Magnitude

/-!
# The fewest digits that read back

Of all decimals that are read as a given magnitude, the ones with the fewest digits are looked
for, and of these the nearest. The search goes through the grids of the powers of ten, starting at
the leading digit of the magnitude, and every comparison is one of natural numbers.
-/

namespace ArithTree.Numeral

structure Decimal where
  digits : Nat
  exponent : Int
  deriving DecidableEq, Repr

namespace Magnitude

def belowPower (x : Magnitude) (ten : Int) : Bool :=
  4 * x.mantissa * (Grid.of ten x.exponent).quarter < (Grid.of ten x.exponent).step

/-- The first of the exponents from `ten` upwards whose power of ten is above `x`; the last one
if none of the first `tries` is. -/
def leastAbove (x : Magnitude) (ten : Int) : Nat → Int
  | 0 => ten
  | tries + 1 => if x.belowPower ten then ten else x.leastAbove (ten + 1) tries

/-- The number of digits before the point of a magnitude above zero; for a magnitude below one,
less the number of zeros behind the point. The first exponent tried comes from the binary
logarithm, with 0.30103 for the decimal logarithm of two, and is at most three too low. -/
def leadingExponent (x : Magnitude) : Int :=
  x.leastAbove ((((Nat.log2 x.mantissa : Nat) : Int) + x.exponent) * 30103 / 100000 - 1) 4

def exact (x : Magnitude) : Decimal :=
  if 0 ≤ x.exponent then ⟨x.mantissa * Nat.pow 2 x.exponent.toNat, 0⟩
  else ⟨x.mantissa * Nat.pow 5 (-x.exponent).toNat, x.exponent⟩

/-- The nearest point of the coarsest grid that has a point which reads back, among the `tries`
grids from `10 ^ ten` downwards; all digits if there is none. -/
def selectFrom (x : Magnitude) (ten : Int) : Nat → Decimal
  | 0 => x.exact
  | tries + 1 =>
      match (Grid.of ten x.exponent).nearest? x with
      | some c => ⟨c, ten⟩
      | none => x.selectFrom (ten - 1) tries

/-- The shortest decimal of a magnitude above zero. Seventeen digits tell all binary64 numbers
apart. -/
def shortest (x : Magnitude) : Decimal := x.selectFrom (x.leadingExponent - 1) 17

theorem selectFrom_readsBack (x : Magnitude) (ten : Int) (tries : Nat) :
    x.selectFrom ten tries = x.exact ∨
      (Grid.of (x.selectFrom ten tries).exponent x.exponent).readsBack x
        (x.selectFrom ten tries).digits = true := by
  induction tries generalizing ten with
  | zero => exact Or.inl rfl
  | succ tries ih =>
      unfold selectFrom
      split
      · rename_i c hc
        exact Or.inr (Grid.readsBack_of_nearest? hc)
      · exact ih (ten - 1)

end Magnitude

end ArithTree.Numeral
