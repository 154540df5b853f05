import ArithTree.Proofs.Tree.Visits
import ArithTree.Tree.Copy

/-!
# Folding without falling short

In the middle of a walk that folds a tree, what is on the stack and what the frames still stand for
come to one result, and no step changes it. So there are always two entries on the stack when an
operation is left, and exactly the result when the frames are used up: what a visitor does on a
stack that is too short is never done. Copies are made in this way, and they are the trees
themselves.
-/

namespace ArithTree

variable {α β : Type}

/-- The stack that the frames come to. There is none if an operation would be left before both of
its operands are on the stack. -/
def Frame.settle? (leaf : α → β) (node : Operator → β → β → β) :
    List (Frame α) → List β → Option (List β)
  | [], stack => some stack
  | .visit tree :: rest, stack => settle? leaf node rest (tree.fold leaf node :: stack)
  | .leave op :: rest, right :: left :: stack =>
      settle? leaf node rest (node op left right :: stack)
  | .leave _ :: _, _ => none

section Settling

variable {leaf : α → β} {node : Operator → β → β → β} {result : List β}

theorem Frame.settle?_visit (t : Tree α) (stack : List β) :
    settle? leaf node [.visit t] stack = some (t.fold leaf node :: stack) := rfl

theorem Frame.exists_of_settle?_leave {op : Operator} {rest : List (Frame α)} {stack : List β}
    (h : settle? leaf node (.leave op :: rest) stack = some result) :
    ∃ right left below, stack = right :: left :: below ∧
      settle? leaf node rest (node op left right :: below) = some result := by
  match stack with
  | [] => contradiction
  | [right] => contradiction
  | right :: left :: below => exact ⟨right, left, below, rfl, h⟩

namespace Visitor.Folds

variable {v : Visitor α (List β)} (hv : v.Folds leaf node)

include hv

/-- The result stays as it is in every step. -/
theorem settle?_of_step {w next : Walk α (List β)} (hstep : w.step v = some next)
    (h : Frame.settle? leaf node w.frames w.state = some result) :
    Frame.settle? leaf node next.frames next.state = some result := by
  obtain ⟨frames, stack⟩ := w
  match frames with
  | [] => contradiction
  | .visit (.operand value) :: rest =>
      cases hstep
      rw [hv.operand]
      exact h
  | .visit (.operation op left right) :: rest =>
      cases hstep
      rw [hv.enter]
      exact h
  | .leave op :: rest =>
      obtain ⟨right, left, below, rfl, hrest⟩ := Frame.exists_of_settle?_leave h
      cases hstep
      rw [hv.leave]
      exact hrest

theorem settle?_of_after {k : Nat} {w next : Walk α (List β)}
    (hafter : Walk.after v k w = some next)
    (h : Frame.settle? leaf node w.frames w.state = some result) :
    Frame.settle? leaf node next.frames next.state = some result := by
  induction k generalizing w with
  | zero =>
      cases hafter
      exact h
  | succ k ih =>
      obtain ⟨middle, hstep, hrest⟩ := Option.bind_eq_some_iff.1 hafter
      exact ih hrest (hv.settle?_of_step hstep h)

/-- Both operands of an operation are on the stack when it is left. -/
theorem exists_operands_of_after {t : Tree α} {stack : List β} {k : Nat} {w : Walk α (List β)}
    (hafter : Walk.after v k ⟨[.visit t], stack⟩ = some w) {op : Operator} {rest : List (Frame α)}
    (hframes : w.frames = .leave op :: rest) :
    ∃ right left below, w.state = right :: left :: below ∧
      w.step v = some ⟨rest, node op left right :: below⟩ := by
  have hsettle := hv.settle?_of_after hafter (Frame.settle?_visit t stack)
  obtain ⟨frames, entries⟩ := w
  subst hframes
  obtain ⟨right, left, below, rfl, -⟩ := Frame.exists_of_settle?_leave hsettle
  refine ⟨right, left, below, rfl, ?_⟩
  rw [← hv.leave]
  rfl

theorem state_of_after {t : Tree α} {stack : List β} {k : Nat} {w : Walk α (List β)}
    (hafter : Walk.after v k ⟨[.visit t], stack⟩ = some w) (hframes : w.frames = []) :
    w.state = t.fold leaf node :: stack := by
  have hsettle := hv.settle?_of_after hafter (Frame.settle?_visit t stack)
  rw [hframes] at hsettle
  exact Option.some.inj hsettle

/-- Visiting a tree in the middle of a walk adds one entry to the stack. -/
theorem after_visit (t : Tree α) (rest : List (Frame α)) (stack : List β) :
    Walk.after v (t.operandCount + 2 * t.operationCount) ⟨.visit t :: rest, stack⟩ =
      some ⟨rest, t.fold leaf node :: stack⟩ := by
  rw [← Tree.steps_eq_counts, Walk.after_visit, hv.traverse]

end Visitor.Folds

end Settling

/-! ## Copies -/

/-- A copy is the tree itself, whatever stands in for a copy that is missing. None is ever missing:
a walk that copies finds two copies whenever it leaves an operation, joins them as left and right
operand and drops nothing, and in the end the copy of the tree is on top. -/
theorem Tree.copy_is_identical (t : Tree Float) :
    t.copy = t ∧ (∀ missing, t.copyWith missing = t) ∧
      (∀ rest trees,
        Walk.after copier (t.operandCount + 2 * t.operationCount) ⟨.visit t :: rest, trees⟩ =
          some ⟨rest, t :: trees⟩) ∧
      ∀ k w trees, Walk.after copier k ⟨[.visit t], trees⟩ = some w →
        (∀ op rest, w.frames = .leave op :: rest → ∃ right left below,
          w.state = right :: left :: below ∧
            w.step copier = some ⟨rest, .operation op left right :: below⟩) ∧
        (w.frames = [] → w.state = t :: trees) := by
  refine ⟨t.copy_eq, fun missing => t.copyWith_eq missing, fun rest trees => ?_,
    fun k w trees hafter => ⟨fun op rest hframes => ?_, fun hframes => ?_⟩⟩
  · rw [copier_folds.after_visit, fold_constructors]
  · exact copier_folds.exists_operands_of_after hafter hframes
  · rw [copier_folds.state_of_after hafter hframes, fold_constructors]

/-- The left operand of the quotient is NaN, and so it is in the copy. -/
theorem Tree.copy_is_identical_of_nan :
    let nan : Float := 0.0 / 0.0
    let t : Tree Float := .operation .divide (.operand nan) (.operand 1.0)
    nan.isNaN = true ∧ t.copy = t ∧
      (∃ w, Walk.after copier 3 ⟨[.visit t], []⟩ = some w ∧ w.frames = [.leave .divide] ∧
        ∃ right left below, w.state = right :: left :: below ∧
          w.step copier = some ⟨[], .operation .divide left right :: below⟩) ∧
      ∃ w, Walk.after copier 4 ⟨[.visit t], []⟩ = some w ∧ w.frames = [] ∧ w.state = [t] := by
  intro nan t
  obtain ⟨hcopy, -, -, hwalk⟩ := t.copy_is_identical
  refine ⟨by decide +kernel, hcopy,
    ⟨⟨[.leave .divide], [.operand 1.0, .operand nan]⟩, rfl, rfl, ?_⟩, ⟨[], [t]⟩, rfl, rfl, ?_⟩
  · exact (hwalk 3 _ [] rfl).1 .divide [] rfl
  · exact (hwalk 4 ⟨[], [t]⟩ [] rfl).2 rfl

end ArithTree
