import ArithTree.Tree.Fold

/-!
# Copying

A copy is built from the bottom by a walk, with the finished copies on a stack. Leaving an
operation joins the two topmost copies; were one of them missing, both places would be lost. The
walk of a whole tree leaves exactly one copy.
-/

namespace ArithTree.Tree

variable {α : Type}

def joinTop (op : Operator) : List (Tree α) → List (Tree α)
  | right :: left :: rest => operation op left right :: rest
  | _ => []

/-- Copies onto a stack of trees, its top first. -/
def copier : Visitor α (List (Tree α)) where
  operand value trees := operand value :: trees
  enter _ trees := trees
  leave op trees := joinTop op trees

/-- A copy of the tree; `missing` is the operand that stands in for a copy that is not there. -/
def copyWith (missing : α) (t : Tree α) : Tree α :=
  (t.accept copier []).headD (operand missing)

def copy (t : Tree Float) : Tree Float := t.copyWith (0.0 / 0.0)

theorem copier_folds : (copier : Visitor α _).Folds operand operation :=
  ⟨fun _ _ => rfl, fun _ _ => rfl, fun _ _ _ _ => rfl⟩

/-- Visiting a tree puts a copy of it on the stack and leaves what is below untouched. -/
theorem traverse_copier (t : Tree α) (trees : List (Tree α)) :
    t.traverse copier trees = t :: trees := by
  rw [copier_folds.traverse, fold_constructors]

theorem copyWith_eq (missing : α) (t : Tree α) : t.copyWith missing = t := by
  rw [copyWith, accept_eq_traverse, traverse_copier]
  rfl

theorem copy_eq (t : Tree Float) : t.copy = t := copyWith_eq _ t

end ArithTree.Tree
