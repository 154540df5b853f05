import ArithTree.Proofs.Numeral.Midpoints
import Mathlib

/-!
# Numbers and their bits

The bits of a number are its sign, its exponent and its mantissa. What they say of a number that is
neither infinite nor NaN is its sign and its magnitude, and a canonical magnitude comes back from
its bits. The lemmas on the bits of `Float` come with the whole library only.
-/

namespace ArithTree.Numeral

open Float.Model Float.Model.UnpackedFloat

/-! ## From bits to a number -/

section Unpack

variable {bits : BitVec Format.binary64.numBits}

theorem toNat_one_append (m : BitVec 52) : (1#1 ++ m).toNat = 2 ^ 52 + m.toNat := by
  rw [BitVec.toNat_append, ← Nat.shiftLeft_add_eq_or_of_lt m.isLt, Nat.shiftLeft_eq]
  rfl

theorem unpack_of_normal (hmin : unpackExponent bits ≠ 0#11) (hmax : unpackExponent bits ≠ -1#11) :
    UnpackedFloat.unpack .binary64 bits =
      .finite (.ofBitVec (unpackSign bits)) (2 ^ 52 + (unpackMantissa bits).toNat)
        ((unpackExponent bits).toNat - 1075) (by omega) := by
  unfold UnpackedFloat.unpack
  simp only [if_neg hmax, if_neg hmin, toNat_one_append]
  congr 1

theorem unpack_of_subnormal (hmin : unpackExponent bits = 0#11)
    (hm : 0 < (unpackMantissa bits).toNat) :
    UnpackedFloat.unpack .binary64 bits =
      .finite (.ofBitVec (unpackSign bits)) (unpackMantissa bits).toNat (-1074) hm := by
  have hne : unpackMantissa bits ≠ 0#52 := by
    intro hzero
    rw [hzero] at hm
    exact absurd hm (by decide)
  unfold UnpackedFloat.unpack
  simp only [hmin, if_neg (show ¬ 0#11 = -1#11 by decide), if_true, dif_neg hne]
  rfl

theorem unpack_of_zero (hmin : unpackExponent bits = 0#11) (hm : unpackMantissa bits = 0#52) :
    UnpackedFloat.unpack .binary64 bits = .zero (.ofBitVec (unpackSign bits)) := by
  unfold UnpackedFloat.unpack
  simp only [hmin, if_neg (show ¬ 0#11 = -1#11 by decide), if_true, dif_pos hm]

theorem unpack_of_last (hmax : unpackExponent bits = -1#11) :
    UnpackedFloat.unpack .binary64 bits = .infinity (.ofBitVec (unpackSign bits)) ∨
      UnpackedFloat.unpack .binary64 bits = .notANumber := by
  unfold UnpackedFloat.unpack
  simp only [if_pos hmax]
  by_cases hm : unpackMantissa bits = 0#52
  · left
    rw [if_pos hm]
  · right
    rw [if_neg hm]

end Unpack

theorem eq_pack_unpack (x : Float) : x = ⟨Float.Model.pack x.toModel.unpack⟩ := by
  obtain ⟨⟨bits, hvalid⟩⟩ := x
  have hbits : UnpackedFloat.pack .binary64 (UnpackedFloat.unpack .binary64 bits.toBitVec) =
      bits.toBitVec := pack_unpack_of_valid hvalid
  simp only [Float.Model.pack, Float.Model.unpack, hbits]

/-! ## From a number to bits -/

/-- The exponent as it is stored; it is zero if the mantissa lacks its leading place. -/
def storedExponent (x : Magnitude) : Nat :=
  if 2 ^ 52 ≤ x.mantissa then (x.exponent + 1075).toNat else 0

section Pack

variable {x : Magnitude}

theorem storedExponent_lt (hx : x.Canonical) : storedExponent x < 2047 := by
  have hhigh := hx.high
  unfold storedExponent
  split <;> omega

theorem pack_of_canonical (hx : x.Canonical) (sign : Sign) :
    UnpackedFloat.pack .binary64 (.finite sign x.mantissa x.exponent hx.pos) =
      packComponents .binary64 sign (.ofNat 11 (storedExponent x)) (.ofNat 52 x.mantissa) := by
  have hlow := hx.low
  have hhigh := hx.high
  have hbiased : (x.exponent + Format.binary64.exponentBias +
      Format.binary64.mantissaBitsWithoutImplicit).toNat = (x.exponent + 1075).toNat := by
    rw [show (Format.binary64.exponentBias : Int) = 1023 by decide,
      show (Format.binary64.mantissaBitsWithoutImplicit : Int) = 52 from rfl]
    omega
  have hfits : ¬ 2 ^ Format.binary64.exponentBits ≤ (x.exponent + 1075).toNat + 1 := by
    show ¬ 2 ^ 11 ≤ _
    omega
  have hlog : x.mantissa.log2 + 1 = Format.binary64.mantissaBits ↔ 2 ^ 52 ≤ x.mantissa := by
    have hlt := (Nat.log2_lt hx.pos.ne').2 hx.lt
    rw [← Nat.le_log2 hx.pos.ne']
    show x.mantissa.log2 + 1 = 53 ↔ _
    omega
  unfold UnpackedFloat.pack storedExponent
  simp only [hbiased, if_neg hfits, hlog]
  split <;> rfl

/-- Nothing is lost in the bits of a canonical number. -/
theorem unpack_pack_of_canonical (hx : x.Canonical) (sign : Sign) :
    (Float.Model.pack (.finite sign x.mantissa x.exponent hx.pos)).unpack =
      .finite sign x.mantissa x.exponent hx.pos := by
  have hlt := hx.lt
  have hlow := hx.low
  have hstored := storedExponent_lt hx
  have hexponent : (BitVec.ofNat 11 (storedExponent x)).toNat = storedExponent x := by
    rw [BitVec.toNat_ofNat, Nat.mod_eq_of_lt (by omega)]
  show UnpackedFloat.unpack .binary64 (UnpackedFloat.pack .binary64 _) = _
  rw [pack_of_canonical hx]
  by_cases hnormal : 2 ^ 52 ≤ x.mantissa
  · have hbiased : (storedExponent x : Int) = x.exponent + 1075 := by
      unfold storedExponent
      rw [if_pos hnormal]
      omega
    have hmantissa : 2 ^ 52 + (BitVec.ofNat 52 x.mantissa).toNat = x.mantissa := by
      rw [BitVec.toNat_ofNat]
      omega
    have hmin : BitVec.ofNat 11 (storedExponent x) ≠ 0#11 := by
      intro h
      have hzero : storedExponent x = 0 := by rw [← hexponent, h, BitVec.toNat_zero]
      omega
    have hmax : BitVec.ofNat 11 (storedExponent x) ≠ -1#11 := by
      intro h
      have hlast : storedExponent x = 2047 := by
        rw [← hexponent, h]
        rfl
      omega
    rw [unpack_of_normal (by rwa [unpackExponent_packComponents])
      (by rwa [unpackExponent_packComponents])]
    simp only [unpackMantissa_packComponents, unpackExponent_packComponents,
      unpackSign_packComponents, Sign.ofBitVec_toBitVec, hexponent, hbiased, hmantissa,
      add_sub_cancel_right]
  · have hexp : x.exponent = -1074 := hx.normal.resolve_left hnormal
    have hmin : BitVec.ofNat 11 (storedExponent x) = 0#11 := by
      unfold storedExponent
      rw [if_neg hnormal]
    have hmantissa : (BitVec.ofNat 52 x.mantissa).toNat = x.mantissa := by
      rw [BitVec.toNat_ofNat, Nat.mod_eq_of_lt (by omega)]
    rw [unpack_of_subnormal (by rwa [unpackExponent_packComponents])
      (by rw [unpackMantissa_packComponents, hmantissa]; exact hx.pos)]
    simp only [unpackMantissa_packComponents, unpackSign_packComponents,
      Sign.ofBitVec_toBitVec, hmantissa, hexp]

theorem neg_of_canonical (hx : x.Canonical) :
    -(⟨Float.Model.pack (.finite .positive x.mantissa x.exponent hx.pos)⟩ : Float) =
      ⟨Float.Model.pack (.finite .negative x.mantissa x.exponent hx.pos)⟩ := by
  have hneg : ((Float.Model.pack (.finite .positive x.mantissa x.exponent hx.pos)).unpack).neg =
      .finite .negative x.mantissa x.exponent hx.pos := by
    rw [unpack_pack_of_canonical hx]
    rfl
  exact congrArg (fun f => Float.ofModel (Float.Model.pack f)) hneg

end Pack

/-! ## What the bits say -/

def signOf (bits : UInt64) : Sign := if bits >>> 63 = 1 then .negative else .positive

section Bits

variable (bits : UInt64)

theorem toNat_unpackExponent :
    (@unpackExponent .binary64 bits.toBitVec).toNat =
      ((bits >>> 52) &&& 0x7FF).toNat := by
  rw [unpackExponent, BitVec.toNat_cast, BitVec.extractLsb_toNat, UInt64.toNat_and,
    UInt64.toNat_shiftRight]
  exact (Nat.and_two_pow_sub_one_eq_mod (bits.toNat >>> 52) 11).symm

theorem toNat_unpackMantissa :
    (@unpackMantissa .binary64 bits.toBitVec).toNat =
      (bits &&& 0xFFFFFFFFFFFFF).toNat := by
  rw [unpackMantissa, BitVec.toNat_cast, BitVec.extractLsb_toNat, UInt64.toNat_and]
  exact (Nat.and_two_pow_sub_one_eq_mod bits.toNat 52).symm

theorem ofBitVec_unpackSign :
    Sign.ofBitVec (@unpackSign .binary64 bits.toBitVec) = signOf bits := by
  have hbit : (@unpackSign .binary64 bits.toBitVec).toNat = (bits >>> 63).toNat := by
    have hlt : bits.toNat < 2 ^ 64 := bits.toNat_lt
    rw [unpackSign, BitVec.toNat_cast, BitVec.extractLsb_toNat, UInt64.toNat_shiftRight]
    show bits.toNat >>> 63 % 2 ^ 1 = bits.toNat >>> 63
    rw [Nat.shiftRight_eq_div_pow]
    omega
  have hrange := (@unpackSign .binary64 bits.toBitVec).isLt
  unfold Sign.ofBitVec signOf
  by_cases hone : bits >>> 63 = 1
  · rw [if_pos hone, if_neg]
    intro hzero
    rw [hzero, hone] at hbit
    contradiction
  · rw [if_neg hone, if_pos]
    have hne : (bits >>> 63).toNat ≠ 1 := fun h => hone (UInt64.toNat_inj.1 h)
    apply BitVec.eq_of_toNat_eq
    show _ = 0
    omega

variable {bits}

theorem Magnitude.ofBits_of_zero (h : ((bits >>> 52) &&& 0x7FF).toNat = 0) :
    Magnitude.ofBits bits = ⟨(bits &&& 0xFFFFFFFFFFFFF).toNat, -1074, false⟩ := by
  simp only [ofBits, h, if_true]

theorem Magnitude.ofBits_of_ne_zero (h : ((bits >>> 52) &&& 0x7FF).toNat ≠ 0) :
    Magnitude.ofBits bits =
      ⟨2 ^ 52 + (bits &&& 0xFFFFFFFFFFFFF).toNat, (((bits >>> 52) &&& 0x7FF).toNat : Int) - 1075,
        decide ((bits &&& 0xFFFFFFFFFFFFF).toNat = 0) &&
          decide (1 < ((bits >>> 52) &&& 0x7FF).toNat)⟩ := by
  simp only [ofBits, if_neg h]
  rfl

end Bits

/-- A number is infinite, NaN or zero, or its magnitude is canonical. -/
theorem unpack_toModel (x : Float) :
    x.toModel.unpack = .infinity (signOf x.toBits) ∨ x.toModel.unpack = .notANumber ∨
    (x.toModel.unpack = .zero (signOf x.toBits) ∧ (Magnitude.ofBits x.toBits).mantissa = 0) ∨
    ∃ hx : (Magnitude.ofBits x.toBits).Canonical,
      x.toModel.unpack = .finite (signOf x.toBits) (Magnitude.ofBits x.toBits).mantissa
        (Magnitude.ofBits x.toBits).exponent hx.pos := by
  show UnpackedFloat.unpack .binary64 x.toBits.toBitVec = _ ∨
    UnpackedFloat.unpack .binary64 x.toBits.toBitVec = _ ∨
    (UnpackedFloat.unpack .binary64 x.toBits.toBitVec = _ ∧ _) ∨
    ∃ hx : (Magnitude.ofBits x.toBits).Canonical,
      UnpackedFloat.unpack .binary64 x.toBits.toBitVec = .finite _ _ _ hx.pos
  generalize x.toBits = bits
  have hexponent := toNat_unpackExponent bits
  have hmantissa := toNat_unpackMantissa bits
  have hsign := ofBitVec_unpackSign bits
  have hplaces : (@unpackMantissa .binary64 bits.toBitVec).toNat < 2 ^ 52 :=
    (@unpackMantissa .binary64 bits.toBitVec).isLt
  have hrange : (@unpackExponent .binary64 bits.toBitVec).toNat < 2 ^ 11 :=
    (@unpackExponent .binary64 bits.toBitVec).isLt
  by_cases hmax : @unpackExponent .binary64 bits.toBitVec = -1#11
  · have hlast := unpack_of_last hmax
    rw [hsign] at hlast
    rcases hlast with hinfinite | hnan
    · exact Or.inl hinfinite
    · exact Or.inr (Or.inl hnan)
  · refine Or.inr (Or.inr ?_)
    by_cases hmin : @unpackExponent .binary64 bits.toBitVec = 0#11
    · have hstored : ((bits >>> 52) &&& 0x7FF).toNat = 0 := by
        rw [← hexponent, hmin]
        rfl
      have hofBits := Magnitude.ofBits_of_zero hstored
      rw [← hmantissa] at hofBits
      by_cases hzero : @unpackMantissa .binary64 bits.toBitVec = 0#52
      · left
        rw [unpack_of_zero hmin hzero, hsign, hofBits, hzero]
        exact ⟨rfl, rfl⟩
      · have hpos : 0 < (@unpackMantissa .binary64 bits.toBitVec).toNat :=
          Nat.pos_of_ne_zero fun h => hzero (BitVec.eq_of_toNat_eq h)
        right
        rw [unpack_of_subnormal hmin hpos, hsign, hofBits]
        refine ⟨⟨hpos, ?_, Or.inr rfl, le_refl _, by norm_num, by simp⟩, rfl⟩
        exact hplaces.trans (by norm_num)
    · have hne : (@unpackExponent .binary64 bits.toBitVec).toNat ≠ 0 :=
        fun h => hmin (BitVec.eq_of_toNat_eq h)
      have hnotLast : (@unpackExponent .binary64 bits.toBitVec).toNat ≠ 2047 :=
        fun h => hmax (BitVec.eq_of_toNat_eq h)
      have hstored : ((bits >>> 52) &&& 0x7FF).toNat ≠ 0 := by rwa [← hexponent]
      have hofBits := Magnitude.ofBits_of_ne_zero hstored
      rw [← hmantissa, ← hexponent] at hofBits
      right
      rw [unpack_of_normal hmin hmax, hsign, hofBits]
      refine ⟨⟨?_, ?_, Or.inl ?_, ?_, ?_, ?_⟩, rfl⟩
      · exact Nat.add_pos_left (by norm_num) _
      · show 2 ^ 52 + _ < 2 ^ 53
        omega
      · exact Nat.le_add_right _ _
      · show (-1074 : Int) ≤ _ - 1075
        omega
      · show (_ - 1075 : Int) ≤ 971
        omega
      · simp only [Bool.and_eq_true, decide_eq_true_iff]
        omega

end ArithTree.Numeral
