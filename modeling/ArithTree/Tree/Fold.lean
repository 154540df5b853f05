import ArithTree.Tree.Walk

/-!
# Visitors that work on a list

A visitor may keep its finished work on a stack: an operand puts an entry there, and leaving an
operation joins the two topmost entries. Visiting a tree then adds one entry to the stack, the one
that recursion on the tree gives, and touches nothing below. Or it only puts entries on a list, and
those of a tree are the same on every list.
-/

namespace ArithTree

variable {α β : Type}

def Tree.fold (leaf : α → β) (node : Operator → β → β → β) : Tree α → β
  | .operand value => leaf value
  | .operation op left right => node op (left.fold leaf node) (right.fold leaf node)

theorem Tree.fold_constructors (t : Tree α) : t.fold operand operation = t := by
  induction t with
  | operand value => rfl
  | operation op left right ihl ihr => rw [fold, ihl, ihr]

/-- The visitor folds on a stack, its top first, with the right operand above the left one. What it
does on a stack that is too short is left open. -/
structure Visitor.Folds (v : Visitor α (List β)) (leaf : α → β) (node : Operator → β → β → β) :
    Prop where
  operand (value : α) (stack : List β) : v.operand value stack = leaf value :: stack
  enter (op : Operator) (stack : List β) : v.enter op stack = stack
  leave (op : Operator) (right left : β) (stack : List β) :
    v.leave op (right :: left :: stack) = node op left right :: stack

theorem Visitor.Folds.traverse {v : Visitor α (List β)} {leaf : α → β}
    {node : Operator → β → β → β} (h : v.Folds leaf node) (t : Tree α) (stack : List β) :
    t.traverse v stack = t.fold leaf node :: stack := by
  induction t generalizing stack with
  | operand value => exact h.operand value stack
  | operation op left right ihl ihr =>
      rw [Tree.traverse, h.enter, ihl, ihr, h.leave, Tree.fold]

/-- The visitor only puts entries on a list, and the same ones whatever the list is. -/
structure Visitor.Pushes (v : Visitor α (List β)) : Prop where
  operand (value : α) (list : List β) : v.operand value list = v.operand value [] ++ list
  enter (op : Operator) (list : List β) : v.enter op list = v.enter op [] ++ list
  leave (op : Operator) (list : List β) : v.leave op list = v.leave op [] ++ list

theorem Visitor.Pushes.traverse {v : Visitor α (List β)} (h : v.Pushes) (t : Tree α)
    (list : List β) : t.traverse v list = t.traverse v [] ++ list := by
  induction t generalizing list with
  | operand value => exact h.operand value list
  | operation op left right ihl ihr =>
      rw [Tree.traverse, Tree.traverse, h.enter, ihl, ihr, h.leave, ihl (v.enter op []),
        ihr (left.traverse v [] ++ v.enter op []),
        h.leave op (right.traverse v [] ++ (left.traverse v [] ++ v.enter op []))]
      simp only [List.append_assoc]

end ArithTree
