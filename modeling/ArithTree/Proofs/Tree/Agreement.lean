import ArithTree.Proofs.Numeral.Value
import ArithTree.Tree.Count
import ArithTree.Tree.Equality

/-!
# Trees that agree with themselves

A tree agrees with itself exactly if each of its operands is the same as itself. Among numbers that
is all but what is no number.
-/

namespace ArithTree.Tree

theorem corresponds_self_iff {α : Type} {same : α → α → Bool} {t : Tree α} :
    t.corresponds same t = true ↔ ∀ x ∈ t.operands, same x x = true := by
  induction t with
  | operand value => simp [corresponds]
  | operation op left right ihl ihr =>
      simp only [corresponds, beq_self_eq_true, Bool.true_and, Bool.and_eq_true, ihl, ihr,
        operands_operation, List.mem_append, or_imp, forall_and]

theorem agrees_self_iff {t : Tree Float} :
    t.agrees t = true ↔ ∀ x ∈ t.operands, x.isNaN = false := by
  rw [agrees, agreesWith_eq_corresponds, corresponds_self_iff]
  simp only [Numeral.beq_self_eq_not_isNaN, Bool.not_eq_true']

end ArithTree.Tree
