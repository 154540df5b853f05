import ArithTree.Proofs.Numeral.Arithmetic
import ArithTree.Proofs.Numeral.Digits

/-!
# Numbers are read as they were written

The shortest decimal of a number lies between the midpoints of its magnitude, it is written
positionally without a loss, and what lies between the midpoints is rounded to the number. Infinity,
NaN and the two zeros have texts of their own.
-/

namespace ArithTree.Numeral

open Float.Model Float.Model.UnpackedFloat

/-! ## The value of a literal -/

theorem two_zpow_lt_ten_zpow : (2 : Rat) ^ (1024 : Int) < 10 ^ (310 : Int) := by
  have h : 2 ^ 1024 < 10 ^ 310 := by decide +kernel
  exact_mod_cast h

theorem ten_zpow_lt_two_zpow : (10 : Rat) ^ (-330 : Int) < 2 ^ (-1075 : Int) := by
  have h : 2 ^ 1075 < 10 ^ 330 := by decide +kernel
  have h' : (2 : Rat) ^ (1075 : Int) < 10 ^ (330 : Int) := by exact_mod_cast h
  rw [zpow_neg, zpow_neg]
  exact inv_strictAnti₀ (by positivity) h'

section Literal

variable {x : Magnitude} {d : Char} {ds : List Char} {scale : Int}

/-- The leading digit of a decimal that a magnitude covers counts a power of ten that is neither too
small nor too large to be computed. -/
theorem leading_bounds_of_covers (hx : x.Canonical) (hdigits : ∀ c ∈ d :: ds, c.isDigit = true)
    (hne : d ≠ '0') (hq : x.Covers (natOfDigits (d :: ds) * 10 ^ scale)) :
    -330 < (ds.length + 1 : Int) + scale ∧ (ds.length : Int) + scale < 310 := by
  have hunit : (0 : Rat) < 10 ^ scale := by positivity
  have hleast : (10 : Rat) ^ ds.length ≤ natOfDigits (d :: ds) := by
    exact_mod_cast pow_le_natOfDigits (hdigits d List.mem_cons_self) hne
  have hmost : (natOfDigits (d :: ds) : Rat) < 10 ^ (ds.length + 1) := by
    exact_mod_cast natOfDigits_lt hdigits
  constructor
  · refine lt_of_zpow_lt_zpow (b := 10) (by norm_num) ?_
    calc (10 : Rat) ^ (-330 : Int) < 2 ^ (-1075 : Int) := ten_zpow_lt_two_zpow
      _ ≤ natOfDigits (d :: ds) * 10 ^ scale := hq.two_zpow_le hx
      _ < 10 ^ (ds.length + 1) * 10 ^ scale := mul_lt_mul_of_pos_right hmost hunit
      _ = 10 ^ ((ds.length + 1 : Int) + scale) := by
          rw [zpow_add₀ (by norm_num), ← Nat.cast_add_one, zpow_natCast]
  · refine lt_of_zpow_lt_zpow (b := 10) (by norm_num) ?_
    calc (10 : Rat) ^ ((ds.length : Int) + scale) = 10 ^ ds.length * 10 ^ scale := by
          rw [zpow_add₀ (by norm_num), zpow_natCast]
      _ ≤ natOfDigits (d :: ds) * 10 ^ scale := mul_le_mul_of_nonneg_right hleast hunit.le
      _ < 2 ^ (1024 : Int) := hq.lt_two_zpow hx
      _ < 10 ^ (310 : Int) := two_zpow_lt_ten_zpow

/-- The value of a literal is the number whose magnitude covers it. -/
theorem Literal.value_of_covers (hx : x.Canonical) {l : Literal}
    (hdigits : ∀ c ∈ l.digits, c.isDigit = true) (hq : x.Covers l.rational) :
    l.value = ⟨Float.Model.pack (.finite .positive x.mantissa x.exponent hx.pos)⟩ := by
  have hq' : x.Covers (natOfDigits (l.digits.dropWhile (· = '0')) * 10 ^ l.scale) := by
    rwa [natOfDigits_dropWhile]
  have hscale : (if l.scale < 0 then -(l.scale.natAbs : Int) else l.scale.natAbs) = l.scale := by
    split <;> omega
  have hsignificant : ∀ c ∈ l.digits.dropWhile (· = '0'), c.isDigit = true :=
    fun c hc => hdigits c ((List.dropWhile_suffix _).subset hc)
  unfold Literal.value
  cases hdrop : l.digits.dropWhile (· = '0') with
  | nil =>
      have hpos := hq'.pos hx
      rw [hdrop] at hpos
      simp [natOfDigits] at hpos
  | cons d ds =>
      rw [hdrop] at hq' hsignificant
      have hne : d ≠ '0' := by
        have hhead := List.head?_dropWhile_not (· = '0') l.digits
        rw [hdrop] at hhead
        simpa using hhead
      have hpos : 0 < natOfDigits (d :: ds) :=
        (Nat.pow_pos (by norm_num)).trans_le
          (pow_le_natOfDigits (hsignificant d List.mem_cons_self) hne)
      obtain ⟨hlow, hhigh⟩ := leading_bounds_of_covers hx hsignificant hne hq'
      have hnotZero : ¬ ((d :: ds).isEmpty ||
          decide (((d :: ds).length : Int) + l.scale < -330)) = true := by
        simp
        omega
      have hnotInfinite : ¬ 310 < ((d :: ds).length : Int) + l.scale := by
        simp
        omega
      show (if _ then _ else if _ then _ else _) = _
      rw [if_neg hnotZero, if_neg hnotInfinite]
      exact ofScientific_of_covers hx hpos (by simpa only [decide_eq_true_iff, hscale] using hq')

end Literal

/-! ## Reading what was written -/

theorem readUnsigned?_shortest {x : Magnitude} (hx : x.Canonical) :
    ∃ first rest, x.shortest.positional = first :: rest ∧ first.isDigit = true ∧
      readUnsigned? (first :: rest) =
        some ⟨Float.Model.pack (.finite .positive x.mantissa x.exponent hx.pos)⟩ := by
  obtain ⟨whole, fraction, hne, hdigits, hpositional, hvalue⟩ := x.shortest.positional_spec
  have hcovers : x.Covers (Literal.rational ⟨whole ++ fraction, -fraction.length⟩) := by
    rw [Literal.rational, hvalue]
    exact Magnitude.covers_shortest hx
  have hread : readUnsigned? (pointed whole fraction) =
      some ⟨Float.Model.pack (.finite .positive x.mantissa x.exponent hx.pos)⟩ := by
    rw [readUnsigned?, readLiteral?_pointed hne hdigits]
    exact congrArg some (Literal.value_of_covers hx hdigits hcovers)
  obtain ⟨first, rest, rfl⟩ := List.exists_cons_of_ne_nil hne
  have hfirst : first.isDigit = true := hdigits first (by simp)
  cases fraction with
  | nil => exact ⟨first, rest, hpositional, hfirst, hread⟩
  | cons f fs => exact ⟨first, rest ++ '.' :: f :: fs, hpositional, hfirst, hread⟩

/-- Only a sign in front of a number is looked at before the number is read. -/
theorem read?_ofList {first : Char} (h : first.isDigit = true) (rest : List Char) :
    read? (String.ofList (first :: rest)) = readUnsigned? (first :: rest) ∧
      read? (String.ofList ('-' :: first :: rest)) =
        (readUnsigned? (first :: rest)).map fun x => -x := by
  unfold read?
  rw [String.toList_ofList, String.toList_ofList]
  refine ⟨?_, rfl⟩
  split
  · rename_i hminus
    cases hminus
    contradiction
  · rename_i hplus
    cases hplus
    contradiction
  · rfl

section Write

variable {x : Float} {f : UnpackedFloat}

theorem write_eq (h : x.toModel.unpack = f) :
    write x = if f.isNaN then "NaN" else
      match signOf x.toBits with
      | .negative => String.ofList ('-' :: writeMagnitude x)
      | .positive => String.ofList (writeMagnitude x) := by
  subst h
  show (if x.isNaN then _ else _) = if x.isNaN then _ else _
  unfold signOf
  by_cases hnan : x.isNaN = true
  · rw [if_pos hnan, if_pos hnan]
  · rw [if_neg hnan, if_neg hnan]
    split <;> rfl

theorem writeMagnitude_eq (h : x.toModel.unpack = f) :
    writeMagnitude x = if f.isInf then ['i', 'n', 'f'] else
      if (Magnitude.ofBits x.toBits).mantissa = 0 then ['0']
      else (Magnitude.ofBits x.toBits).shortest.positional := by
  subst h
  rfl

end Write

/-- Every number is read as it was written: infinity, both zeros and NaN too. -/
theorem read?_write (x : Float) : read? (write x) = some x := by
  have hpack := eq_pack_unpack x
  rcases unpack_toModel x with hinf | hnan | ⟨hzero, hmantissa⟩ | ⟨hx, hfinite⟩
  · rw [write_eq hinf, writeMagnitude_eq hinf]
    rw [hinf] at hpack
    generalize signOf x.toBits = sign at hpack ⊢
    rw [hpack]
    cases sign <;> decide +kernel
  · rw [write_eq hnan]
    rw [hnan] at hpack
    rw [hpack]
    decide +kernel
  · rw [write_eq hzero, writeMagnitude_eq hzero, hmantissa]
    rw [hzero] at hpack
    generalize signOf x.toBits = sign at hpack ⊢
    rw [hpack]
    cases sign <;> decide +kernel
  · obtain ⟨first, rest, hshortest, hfirst, hmagnitude⟩ := readUnsigned?_shortest hx
    obtain ⟨hplain, hsigned⟩ := read?_ofList hfirst rest
    rw [write_eq hfinite, writeMagnitude_eq hfinite, if_neg (by simp [UnpackedFloat.isNaN]),
      if_neg (by simp [UnpackedFloat.isInf]), if_neg hx.pos.ne', hshortest]
    rw [hfinite] at hpack
    cases hsign : signOf x.toBits with
    | positive =>
        rw [hsign] at hpack
        show read? (String.ofList (first :: rest)) = some x
        rw [hplain, hmagnitude, ← hpack]
    | negative =>
        rw [hsign] at hpack
        show read? (String.ofList ('-' :: first :: rest)) = some x
        rw [hsigned, hmagnitude, Option.map_some, neg_of_canonical hx, ← hpack]

end ArithTree.Numeral
