import ArithTree.Numeral.Reader
import ArithTree.Proofs.Numeral.Packing
import ArithTree.Proofs.Numeral.Rounding

/-!
# How a decimal is rounded

The value of a decimal is a product or a quotient by a power of ten, and both are rounded once. So a
decimal between the midpoints of a magnitude comes to the number with this magnitude.
-/

namespace ArithTree.Numeral

open Float.Model Float.Model.UnpackedFloat

/-! ## Products and quotients -/

/-- The bits that stand for a remainder: whether it is at least half the divisor, and whether it is
neither nothing nor half the divisor. -/
theorem bits_accuracyOfFraction (k n d : Nat) :
    let em := ExtendedMantissa.ofMantissaAndAccuracy k (accuracyOfFraction n d)
    (em.roundBit = true ↔ n ≠ 0 ∧ d ≤ 2 * n) ∧ (em.stickyBit = true ↔ n ≠ 0 ∧ 2 * n ≠ d) := by
  unfold accuracyOfFraction
  by_cases hzero : n = 0
  · simp [hzero, ExtendedMantissa.ofMantissaAndAccuracy]
  · rw [if_neg hzero]
    rcases lt_trichotomy (2 * n) d with hlt | heq | hgt
    · rw [Nat.compare_eq_lt.2 hlt]
      simp [ExtendedMantissa.ofMantissaAndAccuracy, hzero, hlt, hlt.ne]
    · rw [Nat.compare_eq_eq.2 heq]
      simp [ExtendedMantissa.ofMantissaAndAccuracy, hzero, heq]
    · rw [Nat.compare_eq_gt.2 hgt]
      simp [ExtendedMantissa.ofMantissaAndAccuracy, hzero, hgt.le, hgt.ne']

theorem describes_fraction (n : Nat) {d : Nat} (hd : 0 < d) :
    Describes (.ofMantissaAndAccuracy (n / d) (accuracyOfFraction (n % d) d)) (n / d : Rat) := by
  have hd' : (0 : Rat) < d := by exact_mod_cast hd
  have hrest : ((n % d : Nat) : Rat) < d := by exact_mod_cast Nat.mod_lt n hd
  have hparts : (n : Rat) / d = (n / d : Nat) + ((n % d : Nat) : Rat) / d := by
    rw [eq_comm, ← mul_right_inj' hd'.ne', mul_add, mul_div_cancel₀ _ hd'.ne',
      mul_div_cancel₀ _ hd'.ne']
    exact_mod_cast Nat.div_add_mod n d
  obtain ⟨hround, hsticky⟩ := bits_accuracyOfFraction (n / d) (n % d) d
  refine ⟨?_, ?_, ?_, ?_⟩
  · rw [mantissa_ofMantissaAndAccuracy, hparts]
    exact le_add_of_nonneg_right (by positivity)
  · rw [mantissa_ofMantissaAndAccuracy, hparts, add_lt_add_iff_left, div_lt_one hd']
    exact hrest
  · rw [hround, mantissa_ofMantissaAndAccuracy, hparts, add_le_add_iff_left,
      div_le_div_iff₀ (by norm_num) hd', one_mul]
    norm_cast
    omega
  · rw [hsticky, mantissa_ofMantissaAndAccuracy, hparts]
    simp only [ne_eq]
    rw [add_eq_left, add_right_inj, div_eq_zero_iff, or_iff_left hd'.ne',
      div_eq_div_iff hd'.ne' (by norm_num), one_mul]
    norm_cast
    omega

section Operations

variable {x : Magnitude} {m₁ m₂ : Nat} {e₁ e₂ : Int}

/-- Two factors that have places enough have a product that has too. -/
theorem mul_of_covers (hx : x.Canonical) (h₁ : 0 < m₁) (h₂ : 0 < m₂)
    (hq : x.Covers (m₁ * 2 ^ e₁ * (m₂ * 2 ^ e₂))) (hplaces : 2 ^ 52 ≤ m₁ * m₂) :
    UnpackedFloat.mul .binary64 (.finite .positive m₁ e₁ h₁) (.finite .positive m₂ e₂ h₂) =
      .finite .positive x.mantissa x.exponent hx.pos := by
  have hproduct : (m₁ * 2 ^ e₁ * (m₂ * 2 ^ e₂) / 2 ^ (e₁ + e₂) : Rat) = (m₁ * m₂ : Nat) := by
    rw [zpow_add₀ (by norm_num), div_eq_iff (by positivity)]
    push_cast
    ring
  have hdescribes : Describes (.ofMantissaAndAccuracy (m₁ * m₂) .exact)
      (m₁ * 2 ^ e₁ * (m₂ * 2 ^ e₂) / 2 ^ (e₁ + e₂)) := by
    rw [hproduct]
    exact describes_exact _
  have he : e₁ + e₂ ≤ Format.binary64.targetExponent (totalExponent (m₁ * m₂) (e₁ + e₂)) := by
    have hlog : 52 ≤ (m₁ * m₂).log2 := (Nat.le_log2 (Nat.mul_pos h₁ h₂).ne').2 hplaces
    rw [targetExponent_eq, totalExponent]
    omega
  exact roundWithAccuracy_of_covers hx hq hdescribes he .positive

theorem zpow_totalExponent_sub_lt (h₁ : 0 < m₁) (h₂ : 0 < m₂) (e₁ e₂ : Int) :
    (2 : Rat) ^ (totalExponent m₁ e₁ - totalExponent m₂ e₂ - 1) <
      m₁ * 2 ^ e₁ / (m₂ * 2 ^ e₂) := by
  have hunit₁ : (0 : Rat) < 2 ^ e₁ := by positivity
  have hunit₂ : (0 : Rat) < 2 ^ e₂ := by positivity
  have hbelow : (2 : Rat) ^ (totalExponent m₁ e₁ - 1) ≤ m₁ * 2 ^ e₁ :=
    zpow_totalExponent_le h₁ (by rw [mul_div_cancel_right₀ _ hunit₁.ne'])
  have habove : (m₂ : Rat) * 2 ^ e₂ < 2 ^ totalExponent m₂ e₂ := by
    refine lt_zpow_totalExponent ?_
    rw [mul_div_cancel_right₀ _ hunit₂.ne']
    exact lt_add_one _
  rw [lt_div_iff₀ (mul_pos (by exact_mod_cast h₂) hunit₂)]
  calc (2 : Rat) ^ (totalExponent m₁ e₁ - totalExponent m₂ e₂ - 1) * (m₂ * 2 ^ e₂)
      < 2 ^ (totalExponent m₁ e₁ - totalExponent m₂ e₂ - 1) * 2 ^ totalExponent m₂ e₂ :=
        mul_lt_mul_of_pos_left habove (by positivity)
    _ = 2 ^ (totalExponent m₁ e₁ - 1) := by
        rw [← zpow_add₀ (by norm_num)]
        congr 1
        ring
    _ ≤ m₁ * 2 ^ e₁ := hbelow

/-- The dividend is extended until the quotient has all places that are kept, and the remainder
tells what comes after them. -/
theorem div_of_covers (hx : x.Canonical) (h₁ : 0 < m₁) (h₂ : 0 < m₂)
    (hq : x.Covers (m₁ * 2 ^ e₁ / (m₂ * 2 ^ e₂))) :
    UnpackedFloat.div .binary64 (.finite .positive m₁ e₁ h₁) (.finite .positive m₂ e₂ h₂) =
      .finite .positive x.mantissa x.exponent hx.pos := by
  set total := totalExponent m₁ e₁ - totalExponent m₂ e₂ with htotal
  set exponent := min (e₁ - e₂) (Format.binary64.targetExponent total) with hexponent
  set dividend := m₁ <<< (e₁ - e₂ - exponent).toNat with hdividend
  have hfraction : (m₁ * 2 ^ e₁ / (m₂ * 2 ^ e₂) / 2 ^ exponent : Rat) = dividend / m₂ := by
    have hshift : e₁ = exponent + e₂ + (e₁ - e₂ - exponent).toNat := by omega
    have hpower : (2 : Rat) ^ e₁ =
        2 ^ (e₁ - e₂ - exponent).toNat * (2 ^ exponent * 2 ^ e₂) := by
      conv_lhs => rw [hshift, zpow_add_natCast, zpow_add₀ (by norm_num)]
    have hm₂ : (m₂ : Rat) ≠ 0 := by exact_mod_cast h₂.ne'
    rw [hdividend, Nat.shiftLeft_eq, hpower]
    push_cast
    field_simp
  have hdescribes : Describes
      (.ofMantissaAndAccuracy (dividend / m₂) (accuracyOfFraction (dividend % m₂) m₂))
      (m₁ * 2 ^ e₁ / (m₂ * 2 ^ e₂) / 2 ^ exponent) := by
    rw [hfraction]
    exact describes_fraction dividend h₂
  have he : exponent ≤
      Format.binary64.targetExponent (totalExponent (dividend / m₂) exponent) := by
    have hlt := hdescribes.lt
    rw [mantissa_ofMantissaAndAccuracy] at hlt
    have hless := lt_of_zpow_lt_zpow (by norm_num)
      ((zpow_totalExponent_sub_lt h₁ h₂ e₁ e₂).trans (lt_zpow_totalExponent hlt))
    rw [targetExponent_eq] at hexponent ⊢
    omega
  exact roundWithAccuracy_of_covers hx hq hdescribes he .positive

end Operations

/-! ## Short decimals -/

/-- A natural number of at most 53 binary places, with its leading place moved to the front. -/
def Magnitude.ofNat (n : Nat) : Magnitude :=
  ⟨n <<< (52 - n.log2), n.log2 - 52, n <<< (52 - n.log2) = 2 ^ 52⟩

section OfNat

variable {n : Nat}

theorem Magnitude.two_pow_le_ofNat (hpos : 0 < n) : 2 ^ 52 ≤ (ofNat n).mantissa := by
  show 2 ^ 52 ≤ n <<< (52 - n.log2)
  rw [Nat.shiftLeft_eq]
  calc 2 ^ 52 ≤ 2 ^ (n.log2 + (52 - n.log2)) := Nat.pow_le_pow_right (by norm_num) (by omega)
    _ = 2 ^ n.log2 * 2 ^ (52 - n.log2) := pow_add _ _ _
    _ ≤ n * 2 ^ (52 - n.log2) := Nat.mul_le_mul_right _ (Nat.log2_self_le hpos.ne')

theorem Magnitude.canonical_ofNat (hpos : 0 < n) (hlt : n < 2 ^ 53) : (ofNat n).Canonical := by
  have hfront := two_pow_le_ofNat hpos
  have hlog : n.log2 < 53 := (Nat.log2_lt hpos.ne').2 hlt
  refine ⟨by omega, ?_, Or.inl hfront, ?_, ?_, ?_⟩
  · show n <<< (52 - n.log2) < 2 ^ 53
    rw [Nat.shiftLeft_eq]
    calc n * 2 ^ (52 - n.log2) < 2 ^ (n.log2 + 1) * 2 ^ (52 - n.log2) :=
          Nat.mul_lt_mul_of_pos_right Nat.lt_log2_self (by positivity)
      _ = 2 ^ 53 := by
          rw [← pow_add]
          congr 1
          omega
  · show -1074 ≤ (n.log2 - 52 : Int)
    omega
  · show (n.log2 - 52 : Int) ≤ 971
    omega
  · show decide (n <<< (52 - n.log2) = 2 ^ 52) = true ↔
      n <<< (52 - n.log2) = 2 ^ 52 ∧ (-1074 : Int) < n.log2 - 52
    rw [decide_eq_true_iff]
    exact ⟨fun h => ⟨h, by omega⟩, fun h => h.1⟩

theorem Magnitude.value_ofNat (hlt : n < 2 ^ 53) : (ofNat n).value = n := by
  have hexp : (n.log2 - 52 : Int) = -((52 - n.log2 : Nat) : Int) := by
    by_cases hzero : n = 0
    · rw [hzero, Nat.log2_zero]
      rfl
    · have hlog := (Nat.log2_lt hzero).2 hlt
      omega
  show ((n <<< (52 - n.log2) : Nat) : Rat) * 2 ^ (n.log2 - 52 : Int) = n
  rw [hexp, zpow_neg, zpow_natCast, Nat.shiftLeft_eq]
  push_cast
  field_simp

theorem unpack_toFloat (hpos : 0 < n) (hlt : n < 2 ^ 53) :
    n.toUInt64.toFloat.toModel.unpack = .finite .positive (Magnitude.ofNat n).mantissa
      (Magnitude.ofNat n).exponent (Magnitude.canonical_ofNat hpos hlt).pos := by
  have hx := Magnitude.canonical_ofNat hpos hlt
  have hlog : n.log2 < 53 := (Nat.log2_lt hpos.ne').2 hlt
  have hn : n.toUInt64.toNat = n := UInt64.toNat_ofNat_of_lt (hlt.trans (by decide))
  have hshift : (0 - Format.binary64.targetExponent (totalExponent n 0)).toNat = 52 - n.log2 := by
    rw [targetExponent_eq, totalExponent]
    omega
  have hround : UnpackedFloat.ofUInt64 .binary64 n.toUInt64 =
      roundWithAccuracy .binary64 .positive (n <<< (52 - n.log2)) (0 - (52 - n.log2 : Nat))
        .exact := by
    have hgt : compare (n : Int) 0 = .gt := Int.compare_eq_gt.2 (by exact_mod_cast hpos)
    show UnpackedFloat.normalize .binary64 (n.toUInt64.toNat : Int) 0 .positive = _
    rw [hn, UnpackedFloat.normalize, hgt, ← hshift]
    rfl
  have hcovers : (Magnitude.ofNat n).Covers n := by
    have hself := Magnitude.covers_value hx
    rwa [Magnitude.value_ofNat hlt] at hself
  have hscaled : (n : Rat) / 2 ^ (0 - (52 - n.log2 : Nat) : Int) = (n <<< (52 - n.log2) : Nat) := by
    rw [zero_sub, zpow_neg, zpow_natCast, div_inv_eq_mul, Nat.shiftLeft_eq]
    push_cast
    rfl
  have hdescribes : Describes (.ofMantissaAndAccuracy (n <<< (52 - n.log2)) .exact)
      ((n : Rat) / 2 ^ (0 - (52 - n.log2 : Nat) : Int)) := by
    rw [hscaled]
    exact describes_exact _
  have he : (0 - (52 - n.log2 : Nat) : Int) ≤ Format.binary64.targetExponent
      (totalExponent (n <<< (52 - n.log2)) (0 - (52 - n.log2 : Nat))) := by
    have hplaces : 52 ≤ (n <<< (52 - n.log2)).log2 :=
      (Nat.le_log2 hx.pos.ne').2 (Magnitude.two_pow_le_ofNat hpos)
    rw [targetExponent_eq, totalExponent]
    omega
  show (Float.Model.pack (UnpackedFloat.ofUInt64 .binary64 n.toUInt64)).unpack = _
  rw [hround, roundWithAccuracy_of_covers hx hcovers hdescribes he .positive]
  exact unpack_pack_of_canonical hx .positive

end OfNat

def isPowerOfTen (n : Nat) : UnpackedFloat → Bool
  | .finite .positive m e _ =>
      2 ^ 52 ≤ m && -52 ≤ e && m * 2 ^ (e + 52).toNat = 10 ^ n * 2 ^ 52
  | _ => false

theorem isPowerOfTen_exactlyRepresentable : ∀ n : Fin 23,
    isPowerOfTen n (Float.exactlyRepresentablePowersOfTen[n]).toModel.unpack = true := by
  decide

theorem exists_of_isPowerOfTen {n : Nat} {f : UnpackedFloat} (h : isPowerOfTen n f = true) :
    ∃ m e, ∃ hm : 0 < m, f = .finite .positive m e hm ∧ 2 ^ 52 ≤ m ∧
      (m : Rat) * 2 ^ e = 10 ^ n := by
  match f with
  | .finite .positive m e hm =>
      simp only [isPowerOfTen, Bool.and_eq_true, decide_eq_true_iff] at h
      obtain ⟨⟨hplaces, hlow⟩, hvalue⟩ := h
      have hexp : (2 : Rat) ^ (e + 52).toNat = 2 ^ 52 * 2 ^ e := by
        rw [← zpow_natCast, Int.toNat_of_nonneg (by omega)]
        exact zpow_add_natCast e 52
      have hvalue' : (m : Rat) * 2 ^ (e + 52).toNat = 10 ^ n * 2 ^ 52 := by exact_mod_cast hvalue
      rw [hexp] at hvalue'
      exact ⟨m, e, hm, rfl, hplaces, by linarith⟩
  | .finite .negative .. => simp [isPowerOfTen] at h
  | .zero _ => simp [isPowerOfTen] at h
  | .infinity _ => simp [isPowerOfTen] at h
  | .notANumber => simp [isPowerOfTen] at h

/-! ## All decimals -/

section Decimal

variable {x : Magnitude} {m : Nat}

/-- A decimal that a magnitude covers is neither so large nor so small that it is not computed. -/
theorem exponent_bounds_of_covers (hx : x.Canonical) (hm : 0 < m) {e : Int}
    (hq : x.Covers (m * 10 ^ e)) : e < 1024 ∧ -1076 - (m.log2 : Int) < e := by
  have hm' : (1 : Rat) ≤ m := by exact_mod_cast hm
  constructor
  · by_contra hlarge
    have hpower : (2 : Rat) ^ e ≤ 10 ^ e :=
      zpow_le_zpow_left₀ (by omega) (by norm_num) (by norm_num)
    have hle : (2 : Rat) ^ e ≤ m * 10 ^ e :=
      hpower.trans (le_mul_of_one_le_left (by positivity) hm')
    exact hlarge (lt_of_zpow_lt_zpow (by norm_num) (hle.trans_lt (hq.lt_two_zpow hx)))
  · by_contra hsmall
    have hpower : (10 : Rat) ^ e ≤ 2 ^ e := by
      rw [← neg_neg e, zpow_neg, zpow_neg 2]
      exact inv_anti₀ (by positivity) (zpow_le_zpow_left₀ (by omega) (by norm_num) (by norm_num))
    have hlog : (m : Rat) < 2 ^ (m.log2 + 1) := by exact_mod_cast Nat.lt_log2_self
    have hless : (2 : Rat) ^ (-1075 : Int) < 2 ^ (e + (m.log2 + 1 : Nat)) :=
      calc (2 : Rat) ^ (-1075 : Int) ≤ m * 10 ^ e := hq.two_zpow_le hx
        _ ≤ m * 2 ^ e := mul_le_mul_of_nonneg_left hpower (by positivity)
        _ < 2 ^ (m.log2 + 1) * 2 ^ e := mul_lt_mul_of_pos_right hlog (by positivity)
        _ = 2 ^ (e + (m.log2 + 1 : Nat)) := (zpow_add_natCast _ _).symm
    have hlast := lt_of_zpow_lt_zpow (by norm_num) hless
    omega

theorem unpackedOfScientific_of_covers (hx : x.Canonical) (hm : 0 < m) {e : Int}
    (hq : x.Covers (m * 10 ^ e)) :
    UnpackedFloat.ofScientific .binary64 m e =
      .finite .positive x.mantissa x.exponent hx.pos := by
  obtain ⟨hhigh, hlow⟩ := exponent_bounds_of_covers hx hm hq
  have hnotLarge : ¬ e > 2 ^ Format.binary64.exponentBits := by
    show ¬ (2 ^ 11 : Int) < e
    omega
  have hnotSmall : ¬ e < -(2 ^ Format.binary64.exponentBits + (m.log2 : Int)) := by
    show ¬ e < -(2 ^ 11 + (m.log2 : Int))
    omega
  unfold UnpackedFloat.ofScientific
  rw [dif_neg hm.ne', if_neg hnotLarge, if_neg hnotSmall]
  by_cases hnonneg : 0 ≤ e
  · rw [if_pos hnonneg]
    have hproduct : ∀ k : Nat, ((m <<< k : Nat) : Rat) * 2 ^ (-k : Int) *
        ((10 ^ e.toNat : Nat) * 2 ^ (0 : Int)) = m * 10 ^ e := by
      intro k
      have hexp : (10 : Rat) ^ e = 10 ^ e.toNat := by
        rw [← zpow_natCast, Int.toNat_of_nonneg hnonneg]
      rw [hexp, zpow_neg, zpow_natCast, Nat.shiftLeft_eq]
      push_cast
      field_simp
    refine mul_of_covers hx _ _ (by rwa [hproduct]) ?_
    rw [Nat.shiftLeft_eq, show Format.binary64.mantissaBits = 53 from rfl]
    calc 2 ^ 52 ≤ m * 2 ^ 53 := by omega
      _ ≤ m * 2 ^ 53 * 10 ^ e.toNat := Nat.le_mul_of_pos_right _ (by positivity)
  · rw [if_neg hnonneg]
    have hquotient : (m : Rat) * 2 ^ (0 : Int) / ((10 ^ (-e).toNat : Nat) * 2 ^ (0 : Int)) =
        m * 10 ^ e := by
      have hexp : (10 : Rat) ^ e = (10 ^ (-e).toNat)⁻¹ := by
        rw [← zpow_natCast, Int.toNat_of_nonneg (by omega), zpow_neg, inv_inv]
      rw [hexp, zpow_zero, mul_one, mul_one, div_eq_mul_inv]
      push_cast
      rfl
    exact div_of_covers hx _ _ (by rwa [hquotient])

/-- A decimal is rounded to the magnitude that covers it, on the short way for decimals of few
digits as on the long one. -/
theorem ofScientific_of_covers (hx : x.Canonical) (hm : 0 < m) {negative : Bool} {e : Nat}
    (hq : x.Covers (m * 10 ^ (if negative then -(e : Int) else e))) :
    Float.ofScientific m negative e =
      ⟨Float.Model.pack (.finite .positive x.mantissa x.exponent hx.pos)⟩ := by
  unfold Float.ofScientific
  split
  · rename_i h
    obtain ⟨m₂, e₂, h₂, hpower, hplaces, hten⟩ :=
      exists_of_isPowerOfTen (isPowerOfTen_exactlyRepresentable ⟨e, by omega⟩)
    have hfactor := unpack_toFloat hm h.1
    have hvalue := Magnitude.value_ofNat h.1
    have hpos := (Magnitude.canonical_ofNat hm h.1).pos
    cases negative with
    | true =>
        have hquotient : (Magnitude.ofNat m).value / (m₂ * 2 ^ e₂) = m * 10 ^ (-(e : Int)) := by
          rw [hvalue, hten, zpow_neg, zpow_natCast, div_eq_mul_inv]
        rw [if_pos rfl, ← hquotient] at hq
        have hdiv := div_of_covers hx hpos h₂ hq
        rw [← hfactor, ← hpower] at hdiv
        exact congrArg (fun f => Float.ofModel (Float.Model.pack f)) hdiv
    | false =>
        have hproduct : (Magnitude.ofNat m).value * (m₂ * 2 ^ e₂) = m * 10 ^ (e : Int) := by
          rw [hvalue, hten, zpow_natCast]
        rw [if_neg Bool.false_ne_true, ← hproduct] at hq
        have hplaces' : 2 ^ 52 ≤ (Magnitude.ofNat m).mantissa * m₂ :=
          hplaces.trans (Nat.le_mul_of_pos_left _ hpos)
        have hmul := mul_of_covers hx hpos h₂ hq hplaces'
        rw [← hfactor, ← hpower] at hmul
        exact congrArg (fun f => Float.ofModel (Float.Model.pack f)) hmul
  · have hscientific := unpackedOfScientific_of_covers hx hm hq
    cases negative with
    | true =>
        have hexp : Int.negOfNat e = -(e : Int) := by
          cases e <;> rfl
        show Float.ofModel (Float.Model.pack
          (UnpackedFloat.ofScientific .binary64 m (Int.negOfNat e))) = _
        rw [if_pos rfl] at hscientific
        rw [hexp, hscientific]
    | false => exact congrArg (fun f => Float.ofModel (Float.Model.pack f)) hscientific

end Decimal

end ArithTree.Numeral
