import ArithTree.Proofs.Numeral.Midpoints

/-!
# Rounding

A number that is rounded is given by its whole part, counted in units of some binary place, and by
two bits that tell how the rest compares with a half. Shifting keeps this up to the place at which
the number is rounded. So whatever lies between the midpoints of a magnitude is rounded to it.
-/

namespace ArithTree.Numeral

open Float.Model Float.Model.UnpackedFloat

/-- The mantissa is the whole part of `x`. The round bit is set if the rest is at least a half, and
the sticky bit if it is neither nothing nor a half. -/
structure Describes (em : ExtendedMantissa) (x : Rat) : Prop where
  le : (em.mantissa : Rat) ≤ x
  lt : x < em.mantissa + 1
  round : em.roundBit = true ↔ (em.mantissa : Rat) + 1 / 2 ≤ x
  sticky : em.stickyBit = true ↔ x ≠ em.mantissa ∧ x ≠ em.mantissa + 1 / 2

theorem describes_exact (m : Nat) : Describes (.ofMantissaAndAccuracy m .exact) m := by
  refine ⟨le_refl _, lt_add_one _, ?_, ?_⟩
  · simp [ExtendedMantissa.ofMantissaAndAccuracy]
  · simp [ExtendedMantissa.ofMantissaAndAccuracy]

theorem mantissa_ofMantissaAndAccuracy (m : Nat) (accuracy : Accuracy) :
    (ExtendedMantissa.ofMantissaAndAccuracy m accuracy).mantissa = m := by
  cases accuracy with
  | exact => rfl
  | inexact order => cases order <;> rfl

namespace Describes

variable {em : ExtendedMantissa} {x : Rat}

/-- The bits together say whether anything is left behind the whole part. -/
theorem bits (h : Describes em x) : (em.roundBit || em.stickyBit) = true ↔ x ≠ em.mantissa := by
  rw [Bool.or_eq_true, h.round, h.sticky]
  constructor
  · rintro (hhalf | ⟨hne, -⟩)
    · intro hx
      linarith
    · exact hne
  · intro hne
    by_cases hhalf : (em.mantissa : Rat) + 1 / 2 ≤ x
    · exact Or.inl hhalf
    · exact Or.inr ⟨hne, fun hx => hhalf hx.ge⟩

/-- The last place of the mantissa becomes the round bit, and what the bits have told before is left
to the sticky bit. -/
theorem shiftRightOne (h : Describes em x) : Describes em.shiftRightOne (x / 2) := by
  have hbits := h.bits
  obtain ⟨hle, hlt, -, -⟩ := h
  have hparts : (em.mantissa : Rat) = 2 * (em.mantissa / 2 : Nat) + (em.mantissa % 2 : Nat) := by
    exact_mod_cast (Nat.div_add_mod em.mantissa 2).symm
  rcases Nat.mod_two_eq_zero_or_one em.mantissa with heven | hodd
  · rw [heven, Nat.cast_zero, add_zero] at hparts
    refine ⟨?_, ?_, ?_, ?_⟩
    · simp only [ExtendedMantissa.shiftRightOne]
      linarith
    · simp only [ExtendedMantissa.shiftRightOne]
      linarith
    · simp only [ExtendedMantissa.shiftRightOne, heven, bne_self_eq_false, Bool.false_eq_true,
        false_iff]
      intro hhalf
      linarith
    · simp only [ExtendedMantissa.shiftRightOne, hbits]
      constructor
      · intro hne
        exact ⟨fun hx => hne (by linarith), fun hx => by linarith⟩
      · rintro ⟨hne, -⟩ hx
        exact hne (by linarith)
  · rw [hodd, Nat.cast_one] at hparts
    refine ⟨?_, ?_, ?_, ?_⟩
    · simp only [ExtendedMantissa.shiftRightOne]
      linarith
    · simp only [ExtendedMantissa.shiftRightOne]
      linarith
    · simp only [ExtendedMantissa.shiftRightOne, hodd]
      exact ⟨fun _ => by linarith, fun _ => rfl⟩
    · simp only [ExtendedMantissa.shiftRightOne, hbits]
      constructor
      · intro hne
        exact ⟨fun hx => by linarith, fun hx => hne (by linarith)⟩
      · rintro ⟨-, hne⟩ hx
        exact hne (by linarith)

theorem shiftRight (h : Describes em x) (n : Nat) : Describes (em >>> n) (x / 2 ^ n) := by
  show Describes (n.repeat ExtendedMantissa.shiftRightOne em) _
  induction n with
  | zero => simpa [Nat.repeat] using h
  | succ n ih =>
      have hnext := ih.shiftRightOne
      rwa [div_div, ← pow_succ] at hnext

/-- What is described is rounded to the nearest number, or to the even one of two that are equally
near. -/
theorem roundedMantissa_eq (h : Describes em x) {n : Nat} (hlow : (n : Rat) - 1 / 2 ≤ x)
    (hhigh : x ≤ n + 1 / 2) (hodd : n % 2 = 1 → (n : Rat) - 1 / 2 < x ∧ x < n + 1 / 2) :
    em.roundedMantissa = n := by
  obtain ⟨m, r, s⟩ := em
  obtain ⟨hle, hlt, hround, hsticky⟩ := h
  simp only at hle hlt hround hsticky
  have hmost : (m : Rat) < n + 1 := by linarith
  have hleast : (n : Rat) < m + 2 := by linarith
  have hmost' : m < n + 1 := by exact_mod_cast hmost
  have hleast' : n < m + 2 := by exact_mod_cast hleast
  have hcases : n = m ∨ n = m + 1 := by omega
  cases r with
  | false =>
      have hbelow : x < (m : Rat) + 1 / 2 := by
        by_contra hnot
        have hset := hround.2 (le_of_not_gt hnot)
        contradiction
      have hn : n = m := by
        rcases hcases with hn | hn
        · exact hn
        · rw [hn] at hlow
          push_cast at hlow
          linarith
      cases s <;> exact hn.symm
  | true =>
      have habove : (m : Rat) + 1 / 2 ≤ x := hround.1 rfl
      cases s with
      | true =>
          have hne := (hsticky.1 rfl).2
          have hn : n = m + 1 := by
            rcases hcases with hn | hn
            · rw [hn] at hhigh
              exact (hne (le_antisymm hhigh habove)).elim
            · exact hn
          exact hn.symm
      | false =>
          have htie : x = (m : Rat) + 1 / 2 := by
            by_contra hne
            have hset := hsticky.2 ⟨fun hx => by linarith, hne⟩
            contradiction
          have heven : ¬ n % 2 = 1 := by
            intro hn
            obtain ⟨hlow', hhigh'⟩ := hodd hn
            rcases hcases with hn | hn
            · rw [hn] at hhigh'
              linarith
            · rw [hn] at hlow'
              push_cast at hlow'
              linarith
          show m + m % 2 = n
          omega

end Describes

/-! ## The place at which a number is rounded -/

theorem targetExponent_eq (e : Int) :
    Format.binary64.targetExponent e = max (e - 53) (-1074) := rfl

theorem zpow_totalExponent (m : Nat) (e : Int) :
    (2 : Rat) ^ (totalExponent m e) = 2 ^ (m.log2 + 1) * 2 ^ e := by
  rw [totalExponent, add_comm, ← Nat.cast_add_one, zpow_add_natCast]

theorem lt_zpow_totalExponent {m : Nat} {e : Int} {q : Rat} (h : q / 2 ^ e < m + 1) :
    q < 2 ^ (totalExponent m e) := by
  have hlog : (m + 1 : Rat) ≤ 2 ^ (m.log2 + 1) := by exact_mod_cast Nat.lt_log2_self
  rw [div_lt_iff₀ (by positivity)] at h
  rw [zpow_totalExponent]
  exact h.trans_le (mul_le_mul_of_nonneg_right hlog (by positivity))

theorem zpow_totalExponent_le {m : Nat} (hm : 0 < m) {e : Int} {q : Rat}
    (h : (m : Rat) ≤ q / 2 ^ e) : (2 : Rat) ^ (totalExponent m e - 1) ≤ q := by
  have hlog : (2 : Rat) ^ m.log2 ≤ m := by exact_mod_cast Nat.log2_self_le hm.ne'
  have hexp : totalExponent m e - 1 = e + m.log2 := by
    unfold totalExponent
    ring
  rw [le_div_iff₀ (by positivity)] at h
  rw [hexp, zpow_add_natCast]
  exact (mul_le_mul_of_nonneg_right hlog (by positivity)).trans h

section Target

variable {x : Magnitude} {q : Rat} {m : Nat} {e : Int}

/-- What a magnitude covers is rounded at the last place of this magnitude; if it lies below the
least number that has this last place, then one place further down. -/
theorem targetExponent_cases (hx : x.Canonical) (hq : x.Covers q) (hle : (m : Rat) ≤ q / 2 ^ e)
    (hlt : q / 2 ^ e < m + 1) (he : e ≤ Format.binary64.targetExponent (totalExponent m e)) :
    Format.binary64.targetExponent (totalExponent m e) = x.exponent ∨
      (x.narrowBelow = true ∧ q < 2 ^ (x.exponent + 52) ∧
        Format.binary64.targetExponent (totalExponent m e) = x.exponent - 1) := by
  rw [targetExponent_eq] at he ⊢
  have hlow := hx.low
  have hunit : (0 : Rat) < 2 ^ x.exponent := by positivity
  have hlower := (hq.bounds hx).1
  have htotal : q < 2 ^ totalExponent m e := lt_zpow_totalExponent hlt
  have hmost : totalExponent m e ≤ x.exponent + 53 := by
    by_cases hm : m = 0
    · subst hm
      simp only [totalExponent, Nat.log2_zero] at he ⊢
      omega
    · have hbelow := zpow_totalExponent_le (Nat.pos_of_ne_zero hm) hle
      have hless := lt_of_zpow_lt_zpow (by norm_num) (hbelow.trans_lt (hq.lt_zpow hx))
      omega
  by_cases hsmall : x.exponent = -1074
  · left
    omega
  · have hnormal : (2 : Rat) ^ 52 ≤ x.mantissa := by
      exact_mod_cast hx.normal.resolve_right hsmall
    have hleast : x.exponent + 51 < totalExponent m e := by
      refine lt_of_zpow_lt_zpow (b := 2) (by norm_num) (lt_trans ?_ htotal)
      calc (2 : Rat) ^ (x.exponent + 51) = 2 ^ 51 * 2 ^ x.exponent := zpow_add_natCast _ 51
        _ < (x.mantissa - 1 / 2) * 2 ^ x.exponent := mul_lt_mul_of_pos_right (by linarith) hunit
        _ ≤ q := hlower
    by_cases htop : totalExponent m e = x.exponent + 53
    · left
      omega
    · have hbelow : q < 2 ^ (x.exponent + 52) := by
        rwa [show totalExponent m e = x.exponent + 52 by omega] at htotal
      have hscaled : q < 2 ^ 52 * 2 ^ x.exponent := hbelow.trans_eq (zpow_add_natCast _ 52)
      have hfirst : x.mantissa = 2 ^ 52 := by
        have hless := lt_of_mul_lt_mul_right (hlower.trans_lt hscaled) hunit.le
        have hmantissa : (x.mantissa : Rat) < 2 ^ 52 + 1 := by linarith
        have hmantissa' : x.mantissa < 2 ^ 52 + 1 := by exact_mod_cast hmantissa
        have hnormal' := hx.normal.resolve_right hsmall
        omega
      exact Or.inr ⟨hx.narrow.2 ⟨hfirst, by omega⟩, hbelow, by omega⟩

/-- Next to the least number that has its last place, half a unit is one of the place below. -/
theorem Magnitude.Covers.scaled_below (hq : x.Covers q) (hx : x.Canonical)
    (hnarrow : x.narrowBelow = true) (hbelow : q < 2 ^ (x.exponent + 52)) :
    ((2 ^ 53 : Nat) : Rat) - 1 / 2 ≤ q / 2 ^ (x.exponent - 1) ∧
      q / 2 ^ (x.exponent - 1) ≤ (2 ^ 53 : Nat) + 1 / 2 := by
  have hunit : (0 : Rat) < 2 ^ (x.exponent - 1) := by positivity
  have hlower := hq.lower
  rw [lowerEnd_of_narrow hnarrow, (hx.narrow.1 hnarrow).1] at hlower
  rw [le_div_iff₀ hunit, div_le_iff₀ hunit]
  constructor
  · refine le_trans (le_of_eq ?_) hlower
    rw [show x.exponent - 1 = x.exponent - 2 + (1 : Nat) by push_cast; ring, zpow_add_natCast]
    push_cast
    ring
  · have hupper : q < 2 ^ 53 * 2 ^ (x.exponent - 1) := by
      rw [← zpow_add_natCast]
      exact hbelow.trans_eq (congrArg _ (by push_cast; ring))
    refine hupper.le.trans (mul_le_mul_of_nonneg_right ?_ hunit.le)
    norm_num

end Target

/-! ## Rounding between the midpoints -/

section Shift

variable {m : Nat} {e : Int} {accuracy : Accuracy}

theorem shiftToTargetExponent_snd (accuracy : Accuracy)
    (he : e ≤ Format.binary64.targetExponent (totalExponent m e)) :
    (shiftToTargetExponent .binary64 m e accuracy).2 =
      Format.binary64.targetExponent (totalExponent m e) := by
  show e + ((Format.binary64.targetExponent (totalExponent m e) - e).toNat : Int) = _
  omega

theorem Describes.shiftToTargetExponent {q : Rat}
    (h : Describes (.ofMantissaAndAccuracy m accuracy) (q / 2 ^ e))
    (he : e ≤ Format.binary64.targetExponent (totalExponent m e)) :
    Describes (shiftToTargetExponent .binary64 m e accuracy).1
      (q / 2 ^ Format.binary64.targetExponent (totalExponent m e)) := by
  set target := Format.binary64.targetExponent (totalExponent m e) with htarget
  have hshift := h.shiftRight (target - e).toNat
  have hexp : e + ((target - e).toNat : Int) = target := by omega
  rw [div_div, mul_comm, ← zpow_add_natCast, hexp] at hshift
  exact hshift

theorem mantissa_shiftToTargetExponent {n : Nat}
    (hn : (Format.binary64.targetExponent (totalExponent m e) - e).toNat = n) :
    (shiftToTargetExponent .binary64 m e .exact).1.mantissa =
      (ExtendedMantissa.ofMantissaAndAccuracy m .exact >>> n).mantissa ∧
    (shiftToTargetExponent .binary64 m e .exact).2 = e + n := by
  subst hn
  exact ⟨rfl, rfl⟩

/-- A canonical magnitude is at its place already. -/
theorem Magnitude.Canonical.shiftToTargetExponent {x : Magnitude} (hx : x.Canonical) :
    (shiftToTargetExponent .binary64 x.mantissa x.exponent .exact).1.mantissa = x.mantissa ∧
      (shiftToTargetExponent .binary64 x.mantissa x.exponent .exact).2 = x.exponent := by
  have hlow := hx.low
  have hlog : x.mantissa.log2 < 53 := (Nat.log2_lt hx.pos.ne').2 hx.lt
  have hzero : (Format.binary64.targetExponent (totalExponent x.mantissa x.exponent) -
      x.exponent).toNat = 0 := by
    rw [targetExponent_eq, totalExponent]
    omega
  obtain ⟨hmantissa, hexponent⟩ := mantissa_shiftToTargetExponent hzero
  exact ⟨hmantissa, by rw [hexponent, Nat.cast_zero, add_zero]⟩

/-- A carry to a 54th place is shifted back by one. -/
theorem shiftToTargetExponent_carry (he : -1074 < e) :
    (shiftToTargetExponent .binary64 (2 ^ 53) (e - 1) .exact).1.mantissa = 2 ^ 52 ∧
      (shiftToTargetExponent .binary64 (2 ^ 53) (e - 1) .exact).2 = e := by
  have hone : (Format.binary64.targetExponent (totalExponent (2 ^ 53) (e - 1)) -
      (e - 1)).toNat = 1 := by
    rw [targetExponent_eq, totalExponent, Nat.log2_two_pow]
    omega
  obtain ⟨hmantissa, hexponent⟩ := mantissa_shiftToTargetExponent hone
  refine ⟨hmantissa, ?_⟩
  rw [hexponent, Nat.cast_one, sub_add_cancel]

end Shift

/-- Rounding is two shifts: to the place at which the mantissa is rounded, and on from there if the
mantissa has become too long. -/
theorem roundWithAccuracy_eq {mantissa m n : Nat} {exponent t e : Int} {accuracy : Accuracy}
    (hfirst : (shiftToTargetExponent .binary64 mantissa exponent accuracy).2 = t)
    (hrounded :
      (shiftToTargetExponent .binary64 mantissa exponent accuracy).1.roundedMantissa = n)
    (hsecond : (shiftToTargetExponent .binary64 n t .exact).1.mantissa = m ∧
      (shiftToTargetExponent .binary64 n t .exact).2 = e) (hm : 0 < m) (sign : Sign) :
    roundWithAccuracy .binary64 sign mantissa exponent accuracy = .finite sign m e hm := by
  subst hfirst hrounded
  obtain ⟨rfl, rfl⟩ := hsecond
  unfold roundWithAccuracy
  exact dif_neg hm.ne'

theorem roundWithAccuracy_of_covers {x : Magnitude} (hx : x.Canonical) {q : Rat} (hq : x.Covers q)
    {m : Nat} {e : Int} {accuracy : Accuracy}
    (h : Describes (.ofMantissaAndAccuracy m accuracy) (q / 2 ^ e))
    (he : e ≤ Format.binary64.targetExponent (totalExponent m e)) (sign : Sign) :
    roundWithAccuracy .binary64 sign m e accuracy =
      .finite sign x.mantissa x.exponent hx.pos := by
  have hle := h.le
  have hlt := h.lt
  rw [mantissa_ofMantissaAndAccuracy] at hle hlt
  have hshifted := h.shiftToTargetExponent he
  have hplace := shiftToTargetExponent_snd accuracy he
  rcases targetExponent_cases hx hq hle hlt he with htarget | ⟨hnarrow, hbelow, htarget⟩
  · rw [htarget] at hshifted hplace
    obtain ⟨hlower, hupper, hodd⟩ := hq.scaled hx
    exact roundWithAccuracy_eq hplace (hshifted.roundedMantissa_eq hlower hupper hodd)
      hx.shiftToTargetExponent hx.pos sign
  · rw [htarget] at hshifted hplace
    obtain ⟨hfirst, hhigher⟩ := hx.narrow.1 hnarrow
    obtain ⟨hlower, hupper⟩ := hq.scaled_below hx hnarrow hbelow
    have hcarry := shiftToTargetExponent_carry hhigher
    rw [← hfirst] at hcarry
    exact roundWithAccuracy_eq hplace (hshifted.roundedMantissa_eq hlower hupper (by norm_num))
      hcarry hx.pos sign

end ArithTree.Numeral
