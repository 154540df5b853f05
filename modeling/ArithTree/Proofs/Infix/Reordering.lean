import ArithTree.Proofs.Infix.Layers
import ArithTree.Proofs.Postfix.OperatorStack
import ArithTree.Tree.Tokens

/-!
# Reordering a derivation

What a layer derives is taken in on top of any stack that its rank may be put on: the stack is left
as it was below some operators of at least that rank, and with these let through, exactly the tokens
of the derived tree have come out.
-/

namespace ArithTree.Infix

open Postfix Postfix.Reorder

theorem run_of_derives {layer : Layer} {ts : List Token} {t : Tree String}
    (h : Derives layer ts t) (output waiting : List Token) (hw : Admits layer.rank waiting) :
    ∃ ops : List Operator, ∃ out, (∀ op ∈ ops, layer.rank ≤ op.rank) ∧
      run ⟨output, waiting⟩ ts = .ok ⟨out, ops.map .operator ++ waiting⟩ ∧
      (ops.map .operator).reverse ++ out = (t.tokensWith id).reverse ++ output := by
  induction h generalizing output waiting with
  | operand text => exact ⟨[], .operand text :: output, by simp, rfl, by simp⟩
  | @group ts t inner ih =>
      obtain ⟨ops, out, -, hrun, hout⟩ := ih output (.opening :: waiting) trivial
      refine ⟨[], (t.tokensWith id).reverse ++ output, by simp, ?_, rfl⟩
      -- the closing parenthesis lets through exactly what waits above the opening one
      have hclose : step ⟨out, ops.map .operator ++ .opening :: waiting⟩ .closing =
          .ok ⟨(t.tokensWith id).reverse ++ output, waiting⟩ := by
        show closeGroup out (ops.map .operator ++ .opening :: waiting) = _
        rw [closeGroup_of_open, hout]
      rw [List.cons_append, run_cons]
      show run ⟨output, .opening :: waiting⟩ (ts ++ [.closing]) = _
      rw [run_append, hrun]
      show run ⟨out, ops.map .operator ++ .opening :: waiting⟩ [.closing] = _
      rw [run_singleton, hclose]
      rfl
  | @single layer ts t inner ih =>
      obtain ⟨ops, out, hops, hrun, hout⟩ := ih output waiting (hw.mono (rank_le_rank_inner layer))
      exact ⟨ops, out, fun op hop => Nat.le_trans (rank_le_rank_inner layer) (hops op hop), hrun,
        hout⟩
  | @chain ts us t u op left right ihl ihr =>
      have hrank := rank_layerOf op
      obtain ⟨ops, out, hops, hrun, hout⟩ :=
        ihl output waiting (hw.mono (rank_le_rank_inner _))
      obtain ⟨ops', out', hops', hrun', hout'⟩ :=
        ihr ((t.tokensWith id).reverse ++ output) (.operator op :: waiting)
          (by simp [Admits, hrank])
      -- `op` lets through all that the left operand has left, and nothing below
      have hreleased : ∀ other ∈ ops, op.rank < other.rank := fun other hother =>
        Nat.lt_of_lt_of_le (rank_lt_rank_inner_layerOf op) (hops other hother)
      have hpush : step ⟨out, ops.map .operator ++ waiting⟩ (.operator op) =
          .ok ⟨(t.tokensWith id).reverse ++ output, .operator op :: waiting⟩ := by
        show pushOperator op out (ops.map .operator ++ waiting) = _
        rw [pushOperator_of_released hreleased (hrank ▸ hw), hout]
      refine ⟨ops' ++ [op], out', ?_, ?_, ?_⟩
      · intro other hother
        rcases List.mem_append.1 hother with hother | hother
        · exact hops' other hother
        · rw [List.mem_singleton.1 hother]
          exact Nat.le_of_eq hrank
      · rw [run_append, hrun]
        show run ⟨out, ops.map .operator ++ waiting⟩ (.operator op :: us) = _
        rw [run_cons, hpush]
        show run ⟨_, .operator op :: waiting⟩ us = _
        rw [hrun']
        simp
      · rw [List.map_append, List.reverse_append, List.append_assoc, hout']
        simp

/-- The reordering of an expression is the postfix form of its tree. -/
theorem ofInfix_eq_of_derives {ts : List Token} {t : Tree String} (h : Derives .sum ts t) :
    ofInfix ts = .ok (t.tokensWith id) := by
  obtain ⟨ops, out, -, hrun, hout⟩ := run_of_derives h [] [] trivial
  have hpostfix : out.reverse ++ ops.map .operator = t.tokensWith id := by
    simpa using congrArg List.reverse hout
  rw [ofInfix]
  show (run ⟨[], []⟩ ts).bind finish = _
  rw [hrun, List.append_nil]
  show finish ⟨out, ops.map .operator⟩ = _
  rw [finish_of_none_open, hpostfix]

end ArithTree.Infix
