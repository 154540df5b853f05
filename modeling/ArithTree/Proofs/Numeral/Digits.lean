import ArithTree.Numeral.Reader
import ArithTree.Numeral.Written
import ArithTree.Proofs.Numeral.Midpoints
import Mathlib.Data.List.TakeWhile

/-!
# Runs of digits

A run of digits counts in powers of ten, and zeros in front of it add nothing. A decimal that is
written positionally is read as the same decimal: its zeros are where they have to be, and those
that end the fraction can be left out.
-/

namespace ArithTree.Numeral

theorem natOfDigits_append (ds es : List Char) :
    natOfDigits (ds ++ es) = 10 ^ es.length * natOfDigits ds + natOfDigits es := by
  show Nat.ofDigitChars 10 (ds ++ es) 0 = _
  rw [Nat.ofDigitChars_append, Nat.ofDigitChars_eq_ofDigitChars_zero]
  rfl

theorem natOfDigits_cons (d : Char) (ds : List Char) :
    natOfDigits (d :: ds) = 10 ^ ds.length * (d.toNat - '0'.toNat) + natOfDigits ds := by
  rw [← List.singleton_append, natOfDigits_append]
  simp [natOfDigits]

theorem natOfDigits_replicate (n : Nat) : natOfDigits (List.replicate n '0') = 0 := by
  show Nat.ofDigitChars 10 (List.replicate n '0') 0 = 0
  rw [Nat.ofDigitChars_replicate_zero, Nat.mul_zero]

theorem natOfDigits_toDigits (n : Nat) : natOfDigits (Nat.toDigits 10 n) = n :=
  Nat.ofDigitChars_ten_toDigits

theorem natOfDigits_leftpad (n : Nat) (ds : List Char) :
    natOfDigits (List.leftpad n '0' ds) = natOfDigits ds := by
  rw [List.leftpad, natOfDigits_append, natOfDigits_replicate, Nat.mul_zero, Nat.zero_add]

theorem natOfDigits_dropWhile (ds : List Char) :
    natOfDigits (ds.dropWhile (· = '0')) = natOfDigits ds := by
  induction ds with
  | nil => rfl
  | cons d ds ih =>
      by_cases hd : d = '0'
      · rw [List.dropWhile_cons_of_pos (by simpa using hd), ih, natOfDigits_cons, hd]
        simp
      · rw [List.dropWhile_cons_of_neg (by simpa using hd)]

theorem toNat_of_isDigit {d : Char} (h : d.isDigit = true) : 48 ≤ d.toNat ∧ d.toNat ≤ 57 := by
  simpa [Char.isDigit, UInt32.le_iff_toNat_le] using h

theorem natOfDigits_lt {ds : List Char} (h : ∀ d ∈ ds, d.isDigit = true) :
    natOfDigits ds < 10 ^ ds.length := by
  induction ds with
  | nil => simp [natOfDigits]
  | cons d ds ih =>
      have hd := toNat_of_isDigit (h d List.mem_cons_self)
      have hrest := ih fun e he => h e (List.mem_cons_of_mem _ he)
      have hzero : '0'.toNat = 48 := rfl
      have hdigit : d.toNat - '0'.toNat ≤ 9 := by omega
      have hmul := Nat.mul_le_mul_left (10 ^ ds.length) hdigit
      rw [natOfDigits_cons, List.length_cons, pow_succ]
      omega

theorem pow_le_natOfDigits {d : Char} {ds : List Char} (hd : d.isDigit = true) (hne : d ≠ '0') :
    10 ^ ds.length ≤ natOfDigits (d :: ds) := by
  have hrange := toNat_of_isDigit hd
  have hzero : '0'.toNat = 48 := rfl
  have hne' : d.toNat ≠ 48 := fun h => hne (Char.ext (UInt32.toNat_inj.1 h))
  have hdigit : 1 ≤ d.toNat - '0'.toNat := by omega
  have hmul := Nat.mul_le_mul_left (10 ^ ds.length) hdigit
  rw [natOfDigits_cons]
  omega

/-! ## Positional notation -/

/-- Digits before a point and behind it; there is no point if nothing is behind it. -/
def pointed (whole : List Char) : List Char → List Char
  | [] => whole
  | fraction => whole ++ '.' :: fraction

theorem isDigit_of_mem_toDigits {n : Nat} {d : Char} (h : d ∈ Nat.toDigits 10 n) :
    d.isDigit = true :=
  Nat.isDigit_of_mem_toDigits (by decide) (by decide) h

theorem isDigit_of_mem_replicate {n : Nat} {d : Char} (h : d ∈ List.replicate n '0') :
    d.isDigit = true := by
  rw [List.eq_of_mem_replicate h]
  rfl

theorem isDigit_of_mem_leftpad {n width : Nat} {d : Char}
    (h : d ∈ List.leftpad width '0' (Nat.toDigits 10 n)) : d.isDigit = true := by
  rcases List.mem_append.1 h with hzero | hdigit
  · exact isDigit_of_mem_replicate hzero
  · exact isDigit_of_mem_toDigits hdigit

theorem exists_dropLastZeros_append (ds : List Char) :
    ∃ k, ds = dropLastZeros ds ++ List.replicate k '0' := by
  have hzeros : ds.reverse.takeWhile (· = '0') =
      List.replicate (ds.reverse.takeWhile (· = '0')).length '0' := by
    refine List.eq_replicate_of_mem fun d hd => ?_
    simpa using List.mem_takeWhile_imp hd
  have hsplit := congrArg List.reverse
    (@List.takeWhile_append_dropWhile _ (· = '0') ds.reverse)
  rw [List.reverse_append, List.reverse_reverse, hzeros, List.reverse_replicate] at hsplit
  exact ⟨_, hsplit.symm⟩

/-- The last `n` digits are what is left of them without the zeros at their end, and these zeros. -/
theorem exists_zeros_of_fraction {ds : List Char} {n : Nat} (h : n ≤ ds.length) :
    let fraction := dropLastZeros (ds.drop (ds.length - n))
    ∃ zeros, fraction.length + zeros = n ∧
      ds = ds.take (ds.length - n) ++ fraction ++ List.replicate zeros '0' := by
  obtain ⟨zeros, hzeros⟩ := exists_dropLastZeros_append (ds.drop (ds.length - n))
  refine ⟨zeros, ?_, ?_⟩
  · have hsum := congrArg List.length hzeros
    rw [List.length_append, List.length_replicate, List.length_drop] at hsum
    omega
  · rw [List.append_assoc, ← hzeros, List.take_append_drop]

/-- A decimal written positionally is digits with a point among them, and these are the decimal with
its last digit counted by the number of digits behind the point. -/
theorem Decimal.positional_spec (d : Decimal) : ∃ whole fraction, whole ≠ [] ∧
    (∀ c ∈ whole ++ fraction, c.isDigit = true) ∧ d.positional = pointed whole fraction ∧
    (natOfDigits (whole ++ fraction) : Rat) * 10 ^ (-fraction.length : Int) = d.value := by
  obtain ⟨c, e⟩ := d
  cases e with
  | ofNat zeros =>
      refine ⟨Nat.toDigits 10 c ++ List.replicate zeros '0', [], ?_, ?_, rfl, ?_⟩
      · simp [Nat.toDigits_ne_nil]
      · intro d hd
        rw [List.append_nil] at hd
        rcases List.mem_append.1 hd with hdigit | hzero
        · exact isDigit_of_mem_toDigits hdigit
        · exact isDigit_of_mem_replicate hzero
      · show _ = (c : Rat) * 10 ^ (zeros : Int)
        rw [List.append_nil, natOfDigits_append, natOfDigits_replicate, natOfDigits_toDigits,
          List.length_replicate, List.length_nil]
        push_cast
        rw [zpow_natCast]
        ring
  | negSucc n =>
      set digits := List.leftpad (n + 2) '0' (Nat.toDigits 10 c) with hpadded
      set whole := digits.take (digits.length - (n + 1)) with hwhole
      set fraction := dropLastZeros (digits.drop (digits.length - (n + 1))) with hfraction
      have hlength : n + 2 ≤ digits.length := by
        rw [hpadded, List.length_leftpad]
        exact le_max_left _ _
      obtain ⟨zeros, hcount, hparts⟩ := @exists_zeros_of_fraction digits (n + 1) (by omega)
      rw [← hwhole, ← hfraction] at hparts
      rw [← hfraction] at hcount
      refine ⟨whole, fraction, ?_, ?_, ?_, ?_⟩
      · rw [← List.length_pos_iff, hwhole, List.length_take]
        omega
      · intro d hd
        refine @isDigit_of_mem_leftpad c (n + 2) d ?_
        rw [← hpadded, hparts]
        exact List.mem_append_left _ hd
      · show (match fraction with
          | [] => _
          | fraction => _) = _
        cases fraction <;> rfl
      · have hvalue : natOfDigits (whole ++ fraction) * 10 ^ zeros = c := by
          have hall := natOfDigits_leftpad (n + 2) (Nat.toDigits 10 c)
          rw [← hpadded, hparts, natOfDigits_append, natOfDigits_replicate, natOfDigits_toDigits,
            List.length_replicate, Nat.add_zero, Nat.mul_comm] at hall
          exact hall
        have hexp : (-fraction.length : Int) = zeros + Int.negSucc n := by omega
        show _ = (c : Rat) * 10 ^ Int.negSucc n
        rw [hexp, zpow_add₀ (by norm_num), zpow_natCast, ← mul_assoc]
        congr 1
        exact_mod_cast hvalue

/-! ## Reading -/

def Literal.rational (l : Literal) : Rat := natOfDigits l.digits * 10 ^ l.scale

theorem readLiteral?_pointed {whole fraction : List Char} (hne : whole ≠ [])
    (h : ∀ d ∈ whole ++ fraction, d.isDigit = true) :
    readLiteral? (pointed whole fraction) = some ⟨whole ++ fraction, -fraction.length⟩ := by
  have hwhole : ∀ d ∈ whole, d.isDigit = true := fun d hd => h d (List.mem_append_left _ hd)
  have hfraction : ∀ d ∈ fraction, d.isDigit = true := fun d hd => h d (List.mem_append_right _ hd)
  cases fraction with
  | nil =>
      rw [pointed, readLiteral?_digits hne hwhole, List.append_nil]
      rfl
  | cons f fs =>
      have hpoint : ¬ '.'.isDigit = true := by decide
      have htake : (whole ++ '.' :: f :: fs).takeWhile Char.isDigit = whole := by
        rw [List.takeWhile_append_of_pos hwhole, List.takeWhile_cons_of_neg hpoint,
          List.append_nil]
      have hdrop : (whole ++ '.' :: f :: fs).dropWhile Char.isDigit = '.' :: f :: fs := by
        rw [List.dropWhile_append_of_pos hwhole, List.dropWhile_cons_of_neg hpoint]
      have htake' : (f :: fs).takeWhile Char.isDigit = f :: fs :=
        List.takeWhile_eq_self_iff.2 hfraction
      have hdrop' : (f :: fs).dropWhile Char.isDigit = [] := List.dropWhile_eq_nil_iff.2 hfraction
      show readLiteral? (whole ++ '.' :: f :: fs) = _
      unfold readLiteral?
      simp only [htake, hdrop, htake', hdrop', readExponent?]
      rw [if_neg (by simp)]
      simp

end ArithTree.Numeral
