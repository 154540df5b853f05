import ArithTree.Token

/-!
# Postfix expressions

Which lists of tokens are postfix expressions: where operands and operators may stand, whatever is
written in the operands.
-/

namespace ArithTree.Postfix

theorem length_eq_countP_isOperand_add (ts : List Token) :
    ts.length = ts.countP Token.isOperand + ts.countP fun t => !t.isOperand := by
  have h := List.length_eq_countP_add_countP Token.isOperand (l := ts)
  simpa only [Bool.not_eq_true, Bool.decide_eq_false] using h

inductive WellFormed : List Token → Prop where
  | operand (text : String) : WellFormed [.operand text]
  | operation {ts us : List Token} (op : Operator) (left : WellFormed ts)
      (right : WellFormed us) : WellFormed (ts ++ us ++ [.operator op])

/-- There is one operand more than there are other tokens. -/
theorem WellFormed.countP_isOperand {ts : List Token} (h : WellFormed ts) :
    ts.countP Token.isOperand = ts.countP (fun t => !t.isOperand) + 1 := by
  induction h with
  | operand text => rfl
  | operation op _ _ ihl ihr =>
      have hoperator : (Token.operator op).isOperand = false := rfl
      simp only [List.countP_append, List.countP_singleton, hoperator]
      simp only [Bool.not_false, if_true, Bool.false_eq_true, if_false]
      omega

/-- It is one operand, or it begins with two operands and ends with an operator. -/
theorem WellFormed.ends {ts : List Token} (h : WellFormed ts) :
    (∃ text, ts = [.operand text]) ∨ ∃ first second middle op,
      ts = .operand first :: .operand second :: (middle ++ [.operator op]) := by
  induction h with
  | operand text => exact Or.inl ⟨text, rfl⟩
  | @operation ts us op _ _ ihl ihr =>
      refine Or.inr ?_
      rcases ihl with ⟨x, rfl⟩ | ⟨x, y, middle, op', rfl⟩
      · rcases ihr with ⟨y, rfl⟩ | ⟨y, z, middle, op', rfl⟩
        · exact ⟨x, y, [], op, rfl⟩
        · exact ⟨x, y, .operand z :: (middle ++ [.operator op']), op, rfl⟩
      · exact ⟨x, y, middle ++ [.operator op'] ++ us, op, rfl⟩

end ArithTree.Postfix
