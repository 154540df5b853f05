import ArithTree.Proofs.Expression.Line
import ArithTree.Proofs.Workbench.Consistency

/-!
# Comparing the expressions on a shelf

An expression that was put on a shelf by commands is decided by its text: two of them with one text
are the same in all parts. Such an expression agrees with itself, since no operand that is written
in digits is NaN, though its value may be. So two of them agree exactly if they have one text.
-/

namespace ArithTree

namespace Expression

theorem parse_source_empty :
    parse empty.source = .error (.whileBuilding "" .invalidExpression) := rfl

/-- The empty text cannot be parsed, so no expression with a tree has the text of the empty one. -/
theorem Consistent.eq_of_source_eq {e f : Expression} (he : e.Consistent) (hf : f.Consistent)
    (h : e.source = f.source) : e = f := by
  rcases he with rfl | he
  · rcases hf with rfl | hf
    · rfl
    · rw [← h, parse_source_empty] at hf
      contradiction
  · rcases hf with rfl | hf
    · rw [h, parse_source_empty] at he
      contradiction
    · rw [h, hf] at he
      exact (Except.ok.inj he).symm

theorem Consistent.agrees_self {e : Expression} (h : e.Consistent) : e.agrees e = true := by
  rcases h with rfl | h
  · rfl
  · obtain ⟨ts, root, htext, hbuild, he⟩ := parse_eq_ok_iff.1 h
    have hdigits : ∀ text, .operand text ∈ ts → Numeral.IsDigits text :=
      fun _ => isDigits_of_ofText htext
    have hroot : root.agrees root = true :=
      Tree.agrees_self_iff.2 (Tree.isNaN_of_mem_operands hdigits hbuild)
    rw [he]
    simp [agrees, hroot]

theorem source_eq_of_agrees {e f : Expression} (h : e.agrees f = true) : e.source = f.source := by
  simp only [agrees, Bool.and_eq_true, beq_iff_eq] at h
  exact h.1.2

theorem Consistent.agrees_iff {e f : Expression} (he : e.Consistent) (hf : f.Consistent) :
    e.agrees f = true ↔ e.source = f.source := by
  constructor
  · exact source_eq_of_agrees
  · intro h
    rw [he.eq_of_source_eq hf h]
    exact hf.agrees_self

end Expression

namespace Shelf

/-- Two expressions that commands have put on shelves agree exactly if their texts are the same. A
copy agrees with what it was made of, and expressions that agree are shown alike: they have the same
line, the same drawing and the same value. -/
theorem agrees_iff_source_eq {m n : Nat} {steps others : List (Nat × Command)} {e f : Expression}
    (he : e ∈ (empty m).run steps) (hf : f ∈ (empty n).run others) :
    (e.agrees f = true ↔ e.source = f.source) ∧
      (e.copy.agrees e = true ∧ e.agrees e.copy = true) ∧
      (e.agrees f = true → e.line = f.line ∧
        e.root.map Tree.drawing = f.root.map Tree.drawing ∧ e.evaluate = f.evaluate) := by
  have hec := consistent_run_empty m steps e he
  have hfc := consistent_run_empty n others f hf
  refine ⟨hec.agrees_iff hfc, ?_, fun h => ?_⟩
  · rw [e.copy_eq]
    exact ⟨hec.agrees_self, hec.agrees_self⟩
  · rw [hec.eq_of_source_eq hfc (Expression.source_eq_of_agrees h)]
    exact ⟨rfl, rfl, rfl⟩

/-- A copy of the expression `0 / 0` agrees with an expression that was given this text and that an
attempt to give it the text `0 /` has not changed. The value of both is NaN. -/
theorem agrees_of_quotient_of_zeros :
    let copied := (empty 2).run [(0, .put "0 / 0"), (1, .clone 0)]
    let rebound := (empty 1).run [(0, .rebind "0 / 0"), (0, .rebind "0 /")]
    ∃ e f, copied[1]? = some e ∧ rebound[0]? = some f ∧ e.source = f.source ∧
      e.agrees f = true ∧ ∃ x, e.evaluate = .ok x ∧ x.isNaN = true := by
  intro copied rebound
  let root : Tree Float := .operation .divide (.operand 0.0) (.operand 0.0)
  have hparse : Expression.parse "0 / 0" = .ok ⟨some root, "0 / 0", "0 0 /"⟩ :=
    Expression.parse_eq_ok_iff.2 ⟨[.operand "0", .operand "0", .operator .divide], root, by rfl,
      Postfix.build_eq_ok_iff.2 rfl, rfl⟩
  have hfailed : Expression.parse "0 /" = .error (.whileBuilding "0 /" .invalidExpression) := by
    rfl
  have hcopied : copied[1]? = some ⟨some root, "0 / 0", "0 0 /"⟩ := by
    simp [copied, run, obey, obeyAt, empty, place, hparse, Expression.copy_eq]
  have hrebound : rebound[0]? = some ⟨some root, "0 / 0", "0 0 /"⟩ := by
    simp [rebound, run, obey, obeyAt, empty, place, Expression.rebind_of_ok hparse,
      Expression.rebind_of_error hfailed]
  obtain ⟨hagrees, -, -⟩ :=
    agrees_iff_source_eq (List.mem_of_getElem? hcopied) (List.mem_of_getElem? hrebound)
  have hvalue : root.evaluate.isNaN = true := by
    simp only [root, Tree.evaluate_operation, Tree.evaluate_operand, Operator.apply]
    decide +kernel
  exact ⟨_, _, hcopied, hrebound, rfl, hagrees.2 rfl, root.evaluate, rfl, hvalue⟩

end Shelf

end ArithTree
