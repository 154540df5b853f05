import ArithTree.Tree.Fold

/-!
# The value of a tree

A walk keeps the values of the finished trees on a stack, and leaving an operation replaces the two
topmost values by its result. A value that is missing counts as no number; the walk of a whole tree
never meets that case.
-/

namespace ArithTree.Tree

/-- What stands in for a value that is not there. -/
def missingValue : Float := 0.0 / 0.0

/-- Replaces the two topmost values, the right operand first, by the operator's value at them. -/
def applyTop (op : Operator) (values : List Float) : List Float :=
  op.apply (values.tail.headD missingValue) (values.headD missingValue) :: values.tail.tail

/-- Evaluates on a stack of values, its top first. -/
def evaluator : Visitor Float (List Float) where
  operand value values := value :: values
  enter _ values := values
  leave op values := applyTop op values

def evaluate (t : Tree Float) : Float :=
  (t.accept evaluator []).headD missingValue

theorem evaluator_folds : evaluator.Folds id Operator.apply :=
  ⟨fun _ _ => rfl, fun _ _ => rfl, fun _ _ _ _ => rfl⟩

theorem evaluate_eq_fold (t : Tree Float) : t.evaluate = t.fold id Operator.apply := by
  rw [evaluate, accept_eq_traverse, evaluator_folds.traverse]
  rfl

@[simp] theorem evaluate_operand (value : Float) : (operand value).evaluate = value := by
  rw [evaluate_eq_fold, fold, id]

@[simp] theorem evaluate_operation (op : Operator) (left right : Tree Float) :
    (operation op left right).evaluate = op.apply left.evaluate right.evaluate := by
  rw [evaluate_eq_fold, evaluate_eq_fold, evaluate_eq_fold, fold]

end ArithTree.Tree
