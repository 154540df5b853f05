import ArithTree.Operator

/-!
# Expression trees

A tree is an operand or an operation on two trees. The type of the operands is left open: trees of
numbers are evaluated, trees of texts keep how the operands were written.
-/

namespace ArithTree

inductive Tree (α : Type) where
  | operand (value : α)
  | operation (op : Operator) (left right : Tree α)
  deriving DecidableEq, Repr

namespace Tree

variable {α β : Type}

def map (f : α → β) : Tree α → Tree β
  | operand value => operand (f value)
  | operation op left right => operation op (left.map f) (right.map f)

def size : Tree α → Nat
  | operand _ => 1
  | operation _ left right => left.size + right.size + 1

theorem size_pos (t : Tree α) : 0 < t.size := by
  cases t <;> simp [size]

@[simp] theorem size_map (f : α → β) (t : Tree α) : (t.map f).size = t.size := by
  induction t with
  | operand value => rfl
  | operation op left right ihl ihr => simp [map, size, ihl, ihr]

theorem map_id (t : Tree α) : t.map id = t := by
  induction t with
  | operand value => rfl
  | operation op left right ihl ihr => simp [map, ihl, ihr]

end Tree

end ArithTree
