import ArithTree.Proofs.Tree.Agreement
import Mathlib.Logic.Function.Iterate

/-!
# Trees that are alike

Two trees are alike if they have one shape, the same operators at their operations and related
operands at their leaves. The loop that compares trees takes one pair of the list at a time and ends
with the first difference, or when the list is used up; it comes to whether the trees are alike.
-/

namespace ArithTree.Tree

variable {α β : Type}

/-- The trees have one shape, operations stand where operations do and have the same operators, and
operands stand where operands do and are related. -/
inductive Alike (related : α → β → Prop) : Tree α → Tree β → Prop where
  | operand {x : α} {y : β} (h : related x y) : Alike related (.operand x) (.operand y)
  | operation {left right : Tree α} {left' right' : Tree β} (op : Operator)
      (hl : Alike related left left') (hr : Alike related right right') :
      Alike related (.operation op left right) (.operation op left' right')

namespace Alike

variable {related : α → α → Prop} {t u v : Tree α}

theorem symm (hsymm : ∀ x y, related x y → related y x) (h : Alike related t u) :
    Alike related u t := by
  induction h with
  | operand h => exact .operand (hsymm _ _ h)
  | operation op _ _ ihl ihr => exact .operation op ihl ihr

theorem trans (htrans : ∀ x y z, related x y → related y z → related x z)
    (h : Alike related t u) (h' : Alike related u v) : Alike related t v := by
  induction h generalizing v with
  | operand h =>
      cases h' with
      | operand h' => exact .operand (htrans _ _ _ h h')
  | operation op _ _ ihl ihr =>
      cases h' with
      | operation _ hl hr => exact .operation op (ihl hl) (ihr hr)

end Alike

theorem corresponds_iff_alike {same : α → α → Bool} {t u : Tree α} :
    t.corresponds same u = true ↔ Alike (fun x y => same x y = true) t u := by
  constructor
  · intro h
    induction t generalizing u with
    | operand x =>
        cases u with
        | operand y => exact .operand h
        | operation op left right => contradiction
    | operation op left right ihl ihr =>
        cases u with
        | operand y => contradiction
        | operation op' left' right' =>
            simp only [corresponds, Bool.and_eq_true, beq_iff_eq] at h
            obtain ⟨⟨rfl, hl⟩, hr⟩ := h
            exact .operation op (ihl hl) (ihr hr)
  · intro h
    induction h with
    | operand h => exact h
    | operation op _ _ ihl ihr => simp [corresponds, ihl, ihr]

/-! ## The loop -/

/-- A comparison in the middle: some pairs are to be compared, the last one put there first, or it
is known how the comparison ends. -/
inductive Comparison (α : Type) where
  | pending (pairs : List (Tree α × Tree α))
  | decided (agree : Bool)

/-- One turn of the loop. Two operations with one operator leave their operands to be compared, the
right ones next. -/
def Comparison.turn (same : α → α → Bool) : Comparison α → Comparison α
  | pending [] => decided true
  | pending ((.operand x, .operand y) :: rest) =>
      if same x y then pending rest else decided false
  | pending ((.operation op left right, .operation op' left' right') :: rest) =>
      if op = op' then pending ((right, right') :: (left, left') :: rest) else decided false
  | pending ((.operand _, .operation ..) :: _) => decided false
  | pending ((.operation .., .operand _) :: _) => decided false
  | decided agree => decided agree

/-- The loop comes to an end, after at most one turn for each place of the first trees and one for
the empty list, and what it decides is whether all pairs agree. -/
theorem Comparison.exists_iterate_turn (same : α → α → Bool) (pairs : List (Tree α × Tree α)) :
    ∃ turns ≤ firstSizes pairs + 1,
      (turn same)^[turns] (pending pairs) = decided (allAgree same pairs) := by
  fun_induction allAgree same pairs with
  | case1 => exact ⟨1, by simp [firstSizes], rfl⟩
  | case2 x y rest ih =>
      by_cases hsame : same x y = true
      · obtain ⟨turns, hle, hturns⟩ := ih
        refine ⟨turns + 1, ?_, ?_⟩
        · simp only [firstSizes, size]
          omega
        · rw [Function.iterate_succ_apply, turn, if_pos hsame, hturns, hsame, Bool.true_and]
      · refine ⟨1, by omega, ?_⟩
        rw [Function.iterate_one, turn, if_neg hsame, Bool.eq_false_of_not_eq_true hsame,
          Bool.false_and]
  | case3 op left right op' left' right' rest ih =>
      by_cases hop : op = op'
      · obtain ⟨turns, hle, hturns⟩ := ih
        refine ⟨turns + 1, ?_, ?_⟩
        · simp only [firstSizes, size] at hle ⊢
          omega
        · rw [Function.iterate_succ_apply, turn, if_pos hop, hturns, beq_iff_eq.2 hop,
            Bool.true_and]
      · refine ⟨1, by omega, ?_⟩
        rw [Function.iterate_one, turn, if_neg hop, beq_eq_false_iff_ne.2 hop, Bool.false_and]
  | case4 => exact ⟨1, by omega, rfl⟩
  | case5 => exact ⟨1, by omega, rfl⟩

/-- Trees of numbers agree exactly if they are alike with the same numbers, in the sense in which
both zeros are the same and NaN is not. The loop that compares them always ends, whatever their
shapes. Agreement is symmetric and transitive, and a tree agrees with itself exactly if no operand
is NaN. -/
theorem agrees_iff_alike (t u : Tree Float) :
    (t.agrees u = true ↔ Alike (fun x y => (x == y) = true) t u) ∧
      (∃ turns ≤ t.size + 1,
        (Comparison.turn fun x y => x == y)^[turns] (.pending [(t, u)]) =
          .decided (t.agrees u)) ∧
      (t.agrees u = true → u.agrees t = true) ∧
      (∀ v, t.agrees u = true → u.agrees v = true → t.agrees v = true) ∧
      (t.agrees t = true ↔ ∀ x ∈ t.operands, x.isNaN = false) := by
  have halike (a b : Tree Float) :
      a.agrees b = true ↔ Alike (fun x y => (x == y) = true) a b := by
    rw [agrees, agreesWith_eq_corresponds, corresponds_iff_alike]
  refine ⟨halike t u, Comparison.exists_iterate_turn _ [(t, u)], fun h => ?_, fun v h h' => ?_,
    agrees_self_iff⟩
  · exact (halike u t).2 (((halike t u).1 h).symm fun _ _ => Numeral.beq_symm)
  · exact (halike t v).2
      (((halike t u).1 h).trans (fun _ _ _ => Numeral.beq_trans) ((halike u v).1 h'))

/-- Three differences of zeros agree in turn, so the first agrees with the last. None of them is
another, since the zeros have different signs. -/
theorem agrees_iff_alike_of_zeros :
    let t : Tree Float := .operation .subtract (.operand 0.0) (.operand (-0.0))
    let u : Tree Float := .operation .subtract (.operand (-0.0)) (.operand 0.0)
    let v : Tree Float := .operation .subtract (.operand 0.0) (.operand 0.0)
    t.agrees u = true ∧ u.agrees v = true ∧ u.agrees t = true ∧ t.agrees v = true ∧
      Alike (fun x y => (x == y) = true) t v := by
  intro t u v
  have hzeros : ((0.0 : Float) == -0.0) = true := by decide +kernel
  have hzero : ((0.0 : Float) == 0.0) = true := by decide +kernel
  have htu : t.agrees u = true :=
    (agrees_iff_alike t u).1.2 (.operation _ (.operand hzeros) (.operand (Numeral.beq_symm hzeros)))
  have huv : u.agrees v = true :=
    (agrees_iff_alike u v).1.2 (.operation _ (.operand (Numeral.beq_symm hzeros)) (.operand hzero))
  obtain ⟨-, -, hsymm, htrans, -⟩ := agrees_iff_alike t u
  have htv := htrans v htu huv
  exact ⟨htu, huv, hsymm htu, htv, (agrees_iff_alike t v).1.1 htv⟩

end ArithTree.Tree
