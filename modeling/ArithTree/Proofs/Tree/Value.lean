import ArithTree.Proofs.Postfix.Meaning
import ArithTree.Proofs.Tree.Folding
import ArithTree.Tree.Evaluation

/-!
# The value of a tree and the calculator

The value that a walk finds is the one that recursion on the tree gives, and no value is ever
missing on the way. A list of tokens in postfix order need not become a tree to be evaluated: a
calculator that reads it from the left and keeps numbers on a stack comes to the value of the tree
that is built from it.
-/

namespace ArithTree

/-- The value of a tree by recursion: that of an operand is the operand, and that of an operation is
the operator's value at those of the left and the right operand. -/
def Tree.value (t : Tree Float) : Float := t.fold id Operator.apply

namespace Postfix

def calculateStep (values : List Float) : Token → Option (List Float)
  | .operand text => (Numeral.read? text).map fun value => value :: values
  | .operator op =>
      match values with
      | right :: left :: rest => some (op.apply left right :: rest)
      | _ => none
  | .opening => none
  | .closing => none

def calculate? (tokens : List Token) : Option Float :=
  match tokens.foldlM calculateStep [] with
  | some [value] => some value
  | _ => none

/-- The calculator keeps the values of the trees that the postfix machine keeps. -/
theorem calculateStep_map_evaluate (stack : List (Tree Float)) (t : Token) :
    calculateStep (stack.map Tree.evaluate) t =
      (machineStep Numeral.read? stack t).map (List.map Tree.evaluate) := by
  cases t with
  | operand text => cases hread : Numeral.read? text <;> simp [calculateStep, machineStep, hread]
  | operator op =>
      rcases stack with _ | ⟨right, _ | ⟨left, rest⟩⟩
      · rfl
      · rfl
      · simp [calculateStep, machineStep]
  | opening => rfl
  | closing => rfl

theorem foldlM_calculateStep_map_evaluate (stack : List (Tree Float)) (ts : List Token) :
    ts.foldlM calculateStep (stack.map Tree.evaluate) =
      (machineRun Numeral.read? stack ts).map (List.map Tree.evaluate) := by
  induction ts generalizing stack with
  | nil => rfl
  | cons t ts ih =>
      rw [List.foldlM_cons, calculateStep_map_evaluate, machineRun, List.foldlM_cons]
      cases machineStep Numeral.read? stack t with
      | none => rfl
      | some next => exact ih next

theorem calculate?_eq_map_evaluate (ts : List Token) :
    calculate? ts = (meaning? Numeral.read? ts).map Tree.evaluate := by
  have hrun := foldlM_calculateStep_map_evaluate [] ts
  rw [List.map_nil] at hrun
  rw [calculate?, meaning?, hrun]
  rcases machineRun Numeral.read? [] ts with _ | (_ | ⟨tree, _ | ⟨other, rest⟩⟩)
  · rfl
  · rfl
  · rfl
  · rfl

theorem calculate?_eq_some_iff {ts : List Token} {x : Float} :
    calculate? ts = some x ↔ ∃ tree, build ts = .ok tree ∧ tree.evaluate = x := by
  rw [calculate?_eq_map_evaluate, Option.map_eq_some_iff]
  simp only [build_eq_ok_iff]

end Postfix

/-- The value of a tree is the one that recursion gives. Visiting a tree with any values on the
stack and any frames below puts its value on the stack and touches nothing else. In a walk that
evaluates, two values are there whenever an operation is left, and it takes the lower one as left
operand; in the end the value of the tree is on top. So no value ever stands in for a missing one. A
list of tokens is built into a tree exactly if the calculator comes to a number, which is the tree's
value. -/
theorem Tree.evaluate_eq_value (t : Tree Float) :
    t.evaluate = t.value ∧
      (∀ rest values,
        Walk.after evaluator (t.operandCount + 2 * t.operationCount) ⟨.visit t :: rest, values⟩ =
          some ⟨rest, t.value :: values⟩) ∧
      (∀ k w values, Walk.after evaluator k ⟨[.visit t], values⟩ = some w →
        (∀ op rest, w.frames = .leave op :: rest → ∃ right left below,
          w.state = right :: left :: below ∧
            w.step evaluator = some ⟨rest, op.apply left right :: below⟩) ∧
        (w.frames = [] → w.state = t.value :: values)) ∧
      ∀ ts x, Postfix.calculate? ts = some x ↔ ∃ tree, Postfix.build ts = .ok tree ∧
        tree.evaluate = x := by
  refine ⟨t.evaluate_eq_fold, fun rest values => ?_,
    fun k w values hafter => ⟨fun op rest hframes => ?_, fun hframes => ?_⟩,
    fun ts x => Postfix.calculate?_eq_some_iff⟩
  · exact evaluator_folds.after_visit t rest values
  · exact evaluator_folds.exists_operands_of_after hafter hframes
  · exact evaluator_folds.state_of_after hafter hframes

/-- In `8 - (3 - 2)` the inner difference is left when three values are on the stack, of which it
takes two. -/
theorem Tree.evaluate_eq_value_of_difference :
    let t : Tree Float :=
      .operation .subtract (.operand 8.0) (.operation .subtract (.operand 3.0) (.operand 2.0))
    t.evaluate = 8.0 - (3.0 - 2.0) ∧
      (∃ w, Walk.after evaluator 5 ⟨[.visit t], []⟩ = some w ∧ w.state = [2.0, 3.0, 8.0] ∧
        w.frames = [.leave .subtract, .leave .subtract] ∧
        ∃ right left below, w.state = right :: left :: below ∧
          w.step evaluator =
            some ⟨[.leave .subtract], Operator.subtract.apply left right :: below⟩) ∧
      ∃ w, Walk.after evaluator 7 ⟨[.visit t], []⟩ = some w ∧ w.frames = [] ∧
        w.state = [t.value] := by
  intro t
  obtain ⟨hvalue, -, hwalk, -⟩ := t.evaluate_eq_value
  refine ⟨hvalue, ⟨⟨[.leave .subtract, .leave .subtract], [2.0, 3.0, 8.0]⟩, rfl, rfl, rfl, ?_⟩,
    ⟨[], [t.value]⟩, rfl, rfl, ?_⟩
  · exact (hwalk 5 _ [] rfl).1 .subtract [.leave .subtract] rfl
  · exact (hwalk 7 ⟨[], [t.value]⟩ [] rfl).2 rfl

end ArithTree
