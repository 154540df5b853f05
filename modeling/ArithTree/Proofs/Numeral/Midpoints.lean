import ArithTree.Numeral.Shortest
import Mathlib.Algebra.Order.Field.Power
import Mathlib.Algebra.Order.Field.Rat
import Mathlib.Tactic.FieldSimp
import Mathlib.Tactic.Linarith
import Mathlib.Tactic.Positivity
import Mathlib.Tactic.Ring

/-!
# Between the midpoints

The rationals that are read as a given binary64 number are those between the midpoints towards its
neighbours, and those are the midpoints that the search for the shortest decimal compares with.
Whatever this search comes to lies between them.
-/

namespace ArithTree.Numeral

theorem zpow_add_natCast (e : Int) (n : Nat) : (2 : Rat) ^ (e + n) = 2 ^ n * 2 ^ e := by
  rw [zpow_add₀ (by norm_num), zpow_natCast, mul_comm]

theorem lt_of_zpow_lt_zpow {b : Rat} (hb : 1 < b) {m n : Int} (h : b ^ m < b ^ n) : m < n :=
  (zpow_lt_zpow_iff_right₀ hb).1 h

theorem pow_toNat_eq {b : Rat} (hb : b ≠ 0) (e : Int) : b ^ e.toNat = b ^ e * b ^ (-e).toNat := by
  have hexp : (e.toNat : Int) = e + ((-e).toNat : Int) := by omega
  rw [← zpow_natCast, hexp, zpow_add₀ hb, zpow_natCast]

namespace Magnitude

def value (x : Magnitude) : Rat := x.mantissa * 2 ^ x.exponent

/-- The magnitude is one of a finite binary64 number above zero, with its mantissa as long as the
least exponent allows. -/
structure Canonical (x : Magnitude) : Prop where
  pos : 0 < x.mantissa
  lt : x.mantissa < 2 ^ 53
  normal : 2 ^ 52 ≤ x.mantissa ∨ x.exponent = -1074
  low : -1074 ≤ x.exponent
  high : x.exponent ≤ 971
  narrow : x.narrowBelow = true ↔ x.mantissa = 2 ^ 52 ∧ -1074 < x.exponent

/-- `q` lies between the midpoints; it may be one of them if the mantissa is even. -/
structure Covers (x : Magnitude) (q : Rat) : Prop where
  lower : (x.lowerEnd : Rat) * 2 ^ (x.exponent - 2) ≤ q
  upper : q ≤ (x.upperEnd : Rat) * 2 ^ (x.exponent - 2)
  inner : x.includesEnds = false →
    (x.lowerEnd : Rat) * 2 ^ (x.exponent - 2) < q ∧ q < (x.upperEnd : Rat) * 2 ^ (x.exponent - 2)

variable {x : Magnitude} {q : Rat}

theorem lowerEnd_bounds (hx : x.Canonical) :
    (4 * x.mantissa - 2 : Rat) ≤ x.lowerEnd ∧ (x.lowerEnd : Rat) < 4 * x.mantissa := by
  have hpos := hx.pos
  have hbounds : 4 * x.mantissa ≤ x.lowerEnd + 2 ∧ x.lowerEnd < 4 * x.mantissa := by
    unfold lowerEnd
    split <;> omega
  have hlow : (4 * x.mantissa : Rat) ≤ x.lowerEnd + 2 := by exact_mod_cast hbounds.1
  have hhigh : (x.lowerEnd : Rat) < 4 * x.mantissa := by exact_mod_cast hbounds.2
  exact ⟨by linarith, hhigh⟩

theorem lowerEnd_of_narrow (h : x.narrowBelow = true) : x.lowerEnd = 4 * x.mantissa - 1 := by
  simp [lowerEnd, h]

theorem upperEnd_cast (x : Magnitude) : (x.upperEnd : Rat) = 4 * x.mantissa + 2 := by
  simp [upperEnd]

theorem zpow_sub_two (e : Int) : (2 : Rat) ^ (e - 2) = 2 ^ e / 4 := by
  rw [zpow_sub₀ (by norm_num)]
  norm_num

/-- In units of the last place the midpoints are at most half a unit away from the mantissa. -/
theorem Covers.scaled (h : x.Covers q) (hx : x.Canonical) :
    (x.mantissa : Rat) - 1 / 2 ≤ q / 2 ^ x.exponent ∧ q / 2 ^ x.exponent ≤ x.mantissa + 1 / 2 ∧
      (x.mantissa % 2 = 1 →
        (x.mantissa : Rat) - 1 / 2 < q / 2 ^ x.exponent ∧
          q / 2 ^ x.exponent < x.mantissa + 1 / 2) := by
  obtain ⟨hlower, hupper, hinner⟩ := h
  have hunit : (0 : Rat) < 2 ^ x.exponent := by positivity
  have hend := mul_le_mul_of_nonneg_right (lowerEnd_bounds hx).1 hunit.le
  rw [upperEnd_cast, zpow_sub_two] at hupper
  rw [zpow_sub_two] at hlower
  refine ⟨?_, ?_, fun hodd => ?_⟩
  · rw [le_div_iff₀ hunit]
    linarith
  · rw [div_le_iff₀ hunit]
    linarith
  · have hends : x.includesEnds = false := by simp [includesEnds, hodd]
    obtain ⟨hlower', hupper'⟩ := hinner hends
    rw [upperEnd_cast, zpow_sub_two] at hupper'
    rw [zpow_sub_two] at hlower'
    rw [lt_div_iff₀ hunit, div_lt_iff₀ hunit]
    constructor <;> linarith

/-- The bounds of `scaled` without a division. -/
theorem Covers.bounds (h : x.Covers q) (hx : x.Canonical) :
    (x.mantissa - 1 / 2 : Rat) * 2 ^ x.exponent ≤ q ∧
      q ≤ (x.mantissa + 1 / 2 : Rat) * 2 ^ x.exponent := by
  have hunit : (0 : Rat) < 2 ^ x.exponent := by positivity
  obtain ⟨hlower, hupper, -⟩ := h.scaled hx
  exact ⟨(le_div_iff₀ hunit).1 hlower, (div_le_iff₀ hunit).1 hupper⟩

theorem Covers.lt_zpow (h : x.Covers q) (hx : x.Canonical) : q < 2 ^ (x.exponent + 53) := by
  have hmantissa : (x.mantissa : Rat) + 1 ≤ 2 ^ 53 := by exact_mod_cast hx.lt
  calc q ≤ (x.mantissa + 1 / 2) * 2 ^ x.exponent := (h.bounds hx).2
    _ < 2 ^ 53 * 2 ^ x.exponent := mul_lt_mul_of_pos_right (by linarith) (by positivity)
    _ = 2 ^ (x.exponent + 53) := (zpow_add_natCast _ 53).symm

theorem Covers.lt_two_zpow (h : x.Covers q) (hx : x.Canonical) : q < 2 ^ (1024 : Int) := by
  have hhigh := hx.high
  exact (h.lt_zpow hx).trans_le (zpow_le_zpow_right₀ (by norm_num) (by omega))

theorem Covers.two_zpow_le (h : x.Covers q) (hx : x.Canonical) : 2 ^ (-1075 : Int) ≤ q := by
  have hmantissa : (1 : Rat) ≤ x.mantissa := by exact_mod_cast hx.pos
  calc (2 : Rat) ^ (-1075 : Int) = 1 / 2 * 2 ^ (-1074 : Int) := by
        rw [show (-1075 : Int) = -1074 - 1 by norm_num, zpow_sub₀ (by norm_num), zpow_one]
        ring
    _ ≤ 1 / 2 * 2 ^ x.exponent :=
        mul_le_mul_of_nonneg_left (zpow_le_zpow_right₀ (by norm_num) hx.low) (by norm_num)
    _ ≤ (x.mantissa - 1 / 2) * 2 ^ x.exponent :=
        mul_le_mul_of_nonneg_right (by linarith) (by positivity)
    _ ≤ q := (h.bounds hx).1

theorem Covers.pos (h : x.Covers q) (hx : x.Canonical) : 0 < q :=
  lt_of_lt_of_le (by positivity) (h.two_zpow_le hx)

theorem covers_value (hx : x.Canonical) : x.Covers x.value := by
  have hunit : (0 : Rat) < 2 ^ x.exponent := by positivity
  have hlow : (x.lowerEnd : Rat) * 2 ^ (x.exponent - 2) < x.value := by
    have hmul := mul_lt_mul_of_pos_right (lowerEnd_bounds hx).2 hunit
    rw [zpow_sub_two, value]
    linarith
  have hhigh : x.value < (x.upperEnd : Rat) * 2 ^ (x.exponent - 2) := by
    rw [zpow_sub_two, upperEnd_cast, value]
    linarith
  exact ⟨hlow.le, hhigh.le, fun _ => ⟨hlow, hhigh⟩⟩

end Magnitude

/-! ## The shortest decimal -/

/-- Steps and quarters of a grid are a power of ten and one of two, multiplied by the same number to
make them whole. -/
theorem Grid.exists_scale (ten two : Int) : ∃ scale : Rat, 0 < scale ∧
    ((Grid.of ten two).step : Rat) = 10 ^ ten * scale ∧
    ((Grid.of ten two).quarter : Rat) = 2 ^ (two - 2) * scale := by
  refine ⟨10 ^ (-ten).toNat * 2 ^ (2 - two).toNat, by positivity, ?_, ?_⟩
  · show ((10 ^ ten.toNat * 2 ^ (2 - two).toNat : Nat) : Rat) = _
    push_cast
    rw [pow_toNat_eq (by norm_num), mul_assoc]
  · show ((2 ^ (two - 2).toNat * 10 ^ (-ten).toNat : Nat) : Rat) = _
    push_cast
    rw [pow_toNat_eq (by norm_num) (two - 2), neg_sub]
    ring

theorem Grid.covers_of_readsBack {x : Magnitude} {ten : Int} {c : Nat}
    (h : (Grid.of ten x.exponent).readsBack x c = true) : x.Covers (c * 10 ^ ten) := by
  obtain ⟨scale, hpos, hstep, hquarter⟩ := Grid.exists_scale ten x.exponent
  have hpoint : ((c * (Grid.of ten x.exponent).step : Nat) : Rat) = c * 10 ^ ten * scale := by
    rw [Nat.cast_mul, hstep, mul_assoc]
  have hend : ∀ a : Nat, ((a * (Grid.of ten x.exponent).quarter : Nat) : Rat) =
      a * 2 ^ (x.exponent - 2) * scale := by
    intro a
    rw [Nat.cast_mul, hquarter, mul_assoc]
  unfold readsBack at h
  split at h
  · rename_i hends
    rw [Bool.and_eq_true, decide_eq_true_iff, decide_eq_true_iff] at h
    have hlow : ((_ : Nat) : Rat) ≤ (_ : Nat) := Nat.cast_le.2 h.1
    have hhigh : ((_ : Nat) : Rat) ≤ (_ : Nat) := Nat.cast_le.2 h.2
    rw [hend, hpoint] at hlow
    rw [hend, hpoint] at hhigh
    refine ⟨le_of_mul_le_mul_right hlow hpos, le_of_mul_le_mul_right hhigh hpos, fun hodd => ?_⟩
    rw [hends] at hodd
    contradiction
  · rw [Bool.and_eq_true, decide_eq_true_iff, decide_eq_true_iff] at h
    have hlow : ((_ : Nat) : Rat) < (_ : Nat) := Nat.cast_lt.2 h.1
    have hhigh : ((_ : Nat) : Rat) < (_ : Nat) := Nat.cast_lt.2 h.2
    rw [hend, hpoint] at hlow
    rw [hend, hpoint] at hhigh
    have hlow' := lt_of_mul_lt_mul_right hlow hpos.le
    have hhigh' := lt_of_mul_lt_mul_right hhigh hpos.le
    exact ⟨hlow'.le, hhigh'.le, fun _ => ⟨hlow', hhigh'⟩⟩

def Decimal.value (d : Decimal) : Rat := d.digits * 10 ^ d.exponent

namespace Magnitude

theorem value_exact (x : Magnitude) : x.exact.value = x.value := by
  unfold exact
  split
  · rename_i hnonneg
    have hexp : (2 : Rat) ^ x.exponent = 2 ^ x.exponent.toNat := by
      rw [← zpow_natCast, Int.toNat_of_nonneg hnonneg]
    show ((x.mantissa * 2 ^ x.exponent.toNat : Nat) : Rat) * 10 ^ (0 : Int) = _
    rw [value, hexp]
    push_cast
    ring
  · rename_i hneg
    obtain ⟨k, hk⟩ : ∃ k : Nat, x.exponent = -k := ⟨(-x.exponent).toNat, by omega⟩
    show ((x.mantissa * 5 ^ (-x.exponent).toNat : Nat) : Rat) * 10 ^ x.exponent = _
    rw [value, hk, neg_neg, Int.toNat_natCast, zpow_neg, zpow_neg, zpow_natCast, zpow_natCast,
      show (10 : Rat) = 2 * 5 by norm_num, mul_pow]
    push_cast
    field_simp

/-- The search ends at a point that reads back or with all digits, and both lie between the
midpoints. -/
theorem covers_shortest {x : Magnitude} (hx : x.Canonical) : x.Covers x.shortest.value := by
  rcases x.selectFrom_readsBack (x.leadingExponent - 1) 17 with hexact | hreads
  · rw [shortest, hexact, value_exact]
    exact covers_value hx
  · exact Grid.covers_of_readsBack hreads

end Magnitude

end ArithTree.Numeral
