import ArithTree.Numeral.Reader
import ArithTree.Proofs.Numeral.Arithmetic

/-!
# What is read as a number

Rounding always gives a number, and so does a product or a quotient by a finite number other than
zero. The value of a literal is rounded once, so no literal is read as NaN. A number is the same as
itself exactly if it is not NaN, and being the same is symmetric and transitive.
-/

namespace ArithTree.Numeral

open Float.Model

/-- Packing makes nothing a NaN: the exponent of a packed NaN is the greatest and its mantissa is
not zero, and one of the two fails for anything else. -/
theorem isNaN_pack {x : UnpackedFloat} (h : x.isNaN = false) : (pack x).isNaN = false := by
  have hvalid : Format.binary64.Valid (UnpackedFloat.pack .binary64 x) := UnpackedFloat.valid_pack
  show (UnpackedFloat.unpack .binary64 (UnpackedFloat.pack .binary64 x)).isNaN = false
  rw [Bool.eq_false_iff, Ne, UnpackedFloat.isNaN_unpack_iff_of_valid hvalid]
  intro hnan
  have hmantissa := congrArg UnpackedFloat.unpackMantissa hnan
  have hexponent := congrArg UnpackedFloat.unpackExponent hnan
  rw [UnpackedFloat.packedNaN, UnpackedFloat.unpackMantissa_packComponents] at hmantissa
  rw [UnpackedFloat.packedNaN, UnpackedFloat.unpackExponent_packComponents] at hexponent
  cases x with
  | notANumber => contradiction
  | infinity sign =>
      rw [UnpackedFloat.pack, UnpackedFloat.packedInfinity,
        UnpackedFloat.unpackMantissa_packComponents] at hmantissa
      revert hmantissa
      decide
  | zero sign =>
      rw [UnpackedFloat.pack, UnpackedFloat.packedZero,
        UnpackedFloat.unpackExponent_packComponents] at hexponent
      revert hexponent
      decide
  | finite sign mantissa exponent pos =>
      unfold UnpackedFloat.pack at hmantissa hexponent
      dsimp only at hmantissa hexponent
      split at hexponent
      · rename_i hlarge
        rw [if_pos hlarge, UnpackedFloat.packedInfinity,
          UnpackedFloat.unpackMantissa_packComponents] at hmantissa
        revert hmantissa
        decide
      · rename_i hsmall
        split at hexponent
        · rw [UnpackedFloat.unpackExponent_packComponents] at hexponent
          have hbiased := congrArg BitVec.toNat hexponent
          simp only [BitVec.toNat_ofNat] at hbiased hsmall
          have hgreatest : (-1#11).toNat = 2 ^ 11 - 1 := by decide
          rw [hgreatest, Nat.mod_eq_of_lt (by omega)] at hbiased
          omega
        · rw [UnpackedFloat.unpackExponent_packComponents] at hexponent
          revert hexponent
          decide

/-! ## Products and quotients -/

theorem isNaN_roundWithAccuracy (sign : UnpackedFloat.Sign) (mantissa : Nat) (exponent : Int)
    (accuracy : UnpackedFloat.Accuracy) :
    (UnpackedFloat.roundWithAccuracy .binary64 sign mantissa exponent accuracy).isNaN = false := by
  unfold UnpackedFloat.roundWithAccuracy
  dsimp only
  split <;> rfl

section Operations

variable {x y : UnpackedFloat} {sign : UnpackedFloat.Sign} {mantissa : Nat} {exponent : Int}
  {pos : 0 < mantissa}

theorem isNaN_mul_finite (hx : x.isNaN = false) (hy : y = .finite sign mantissa exponent pos) :
    (UnpackedFloat.mul .binary64 x y).isNaN = false := by
  subst hy
  cases x with
  | notANumber => contradiction
  | infinity => rfl
  | zero => rfl
  | finite => exact isNaN_roundWithAccuracy ..

theorem isNaN_div_finite (hx : x.isNaN = false) (hy : y = .finite sign mantissa exponent pos) :
    (UnpackedFloat.div .binary64 x y).isNaN = false := by
  subst hy
  cases x with
  | notANumber => contradiction
  | infinity => rfl
  | zero => rfl
  | finite => exact isNaN_roundWithAccuracy ..

end Operations

/-! ## Literals -/

theorem isNaN_toFloat (n : UInt64) : n.toFloat.isNaN = false := by
  refine isNaN_pack ?_
  show (UnpackedFloat.normalize .binary64 (n.toNat : Int) 0 .positive).isNaN = false
  unfold UnpackedFloat.normalize
  split
  · exact isNaN_roundWithAccuracy ..
  · rfl
  · exact isNaN_roundWithAccuracy ..

theorem isNaN_unpackedOfScientific (m : Nat) (e : Int) :
    (UnpackedFloat.ofScientific .binary64 m e).isNaN = false := by
  unfold UnpackedFloat.ofScientific
  split
  · rfl
  · split
    · rfl
    · split
      · rfl
      · split
        · exact isNaN_mul_finite rfl rfl
        · exact isNaN_div_finite rfl rfl

theorem isNaN_ofScientific (m : Nat) (negative : Bool) (e : Nat) :
    (Float.ofScientific m negative e).isNaN = false := by
  unfold Float.ofScientific
  split
  · rename_i h
    obtain ⟨_, _, _, hpower, -⟩ :=
      exists_of_isPowerOfTen (isPowerOfTen_exactlyRepresentable ⟨e, by omega⟩)
    cases negative with
    | true => exact isNaN_pack (isNaN_div_finite (isNaN_toFloat _) hpower)
    | false => exact isNaN_pack (isNaN_mul_finite (isNaN_toFloat _) hpower)
  · exact isNaN_pack (isNaN_unpackedOfScientific ..)

theorem isNaN_value (l : Literal) : l.value.isNaN = false := by
  unfold Literal.value
  dsimp only
  split
  · rfl
  · split
    · rfl
    · exact isNaN_ofScientific ..

theorem beq_self_eq_not_isNaN (x : Float) : (x == x) = !x.isNaN := by
  have h : (x == x) = true ↔ ¬ x.isNaN = true := by
    show x.toModel.unpack.beq x.toModel.unpack = true ↔ ¬ x.toModel.unpack.isNaN = true
    rw [UnpackedFloat.beq_iff_ne_notANumber_and_eq, UnpackedFloat.isNaN_iff]
    simp
  rw [Bool.eq_iff_iff, h]
  simp

theorem beq_symm {x y : Float} (h : (x == y) = true) : (y == x) = true := by
  change x.toModel.unpack.beq y.toModel.unpack = true at h
  show y.toModel.unpack.beq x.toModel.unpack = true
  rw [UnpackedFloat.beq_iff_ne_notANumber_and_eq] at h ⊢
  obtain ⟨hx, hy, heq | ⟨hx', hy'⟩ | ⟨hx', hy'⟩⟩ := h
  · exact ⟨hy, hx, Or.inl heq.symm⟩
  · exact ⟨hy, hx, Or.inr (Or.inr ⟨hy', hx'⟩)⟩
  · exact ⟨hy, hx, Or.inr (Or.inl ⟨hy', hx'⟩)⟩

/-- Only the two zeros are the same without being equal, and there is no third. -/
theorem beq_trans {x y z : Float} (h : (x == y) = true) (h' : (y == z) = true) :
    (x == z) = true := by
  change x.toModel.unpack.beq y.toModel.unpack = true at h
  change y.toModel.unpack.beq z.toModel.unpack = true at h'
  show x.toModel.unpack.beq z.toModel.unpack = true
  rw [UnpackedFloat.beq_iff_ne_notANumber_and_eq] at h h' ⊢
  obtain ⟨hx, -, hxy⟩ := h
  obtain ⟨-, hz, hyz⟩ := h'
  refine ⟨hx, hz, ?_⟩
  rcases hxy with heq | ⟨hx', hy'⟩ | ⟨hx', hy'⟩
  · rwa [heq]
  · rcases hyz with heq | ⟨hy'', -⟩ | ⟨-, hz'⟩
    · exact Or.inr (Or.inl ⟨hx', heq ▸ hy'⟩)
    · rw [hy'] at hy''
      cases hy''
    · exact Or.inl (hx'.trans hz'.symm)
  · rcases hyz with heq | ⟨-, hz'⟩ | ⟨hy'', -⟩
    · exact Or.inr (Or.inr ⟨hx', heq ▸ hy'⟩)
    · exact Or.inl (hx'.trans hz'.symm)
    · rw [hy'] at hy''
      cases hy''

end ArithTree.Numeral
