import ArithTree.Numeral.Written
import ArithTree.Token
import ArithTree.Tree.Fold

/-!
# The tokens of a tree

A tree is written in postfix order by a walk. The operands of a tree of numbers are written from
their values, so leading zeros and digits beyond the precision of a number do not come back.
-/

namespace ArithTree.Tree

variable {α : Type}

def tokenWriter (write : α → String) : Visitor α (List Token) where
  operand value tokens := .operand (write value) :: tokens
  enter _ tokens := tokens
  leave op tokens := .operator op :: tokens

/-- The tokens of the tree in postfix order, with the given way to write an operand. -/
def tokensWith (write : α → String) (t : Tree α) : List Token :=
  (t.accept (tokenWriter write) []).reverse

def tokens (t : Tree Float) : List Token := t.tokensWith Numeral.write

theorem tokenWriter_pushes (write : α → String) : (tokenWriter write).Pushes :=
  ⟨fun _ _ => rfl, fun _ _ => rfl, fun _ _ => rfl⟩

@[simp] theorem tokensWith_operand (write : α → String) (value : α) :
    (operand value).tokensWith write = [.operand (write value)] := by
  simp [tokensWith, accept_eq_traverse, traverse, tokenWriter]

@[simp] theorem tokensWith_operation (write : α → String) (op : Operator) (left right : Tree α) :
    (operation op left right).tokensWith write =
      left.tokensWith write ++ right.tokensWith write ++ [.operator op] := by
  have h : (operation op left right).traverse (tokenWriter write) [] =
      .operator op :: (right.traverse (tokenWriter write) [] ++
        left.traverse (tokenWriter write) []) :=
    congrArg (Token.operator op :: ·) ((tokenWriter_pushes write).traverse right _)
  simp only [tokensWith, accept_eq_traverse, h, List.reverse_cons, List.reverse_append]

end ArithTree.Tree
