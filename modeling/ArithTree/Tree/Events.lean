import ArithTree.Numeral.Written
import ArithTree.Tree.Walk

/-!
# The events of a walk

What a walk does at each place, in order. The events tell a walk apart from every other order of
visiting the same places.
-/

namespace ArithTree

inductive Event (α : Type) where
  | enter (op : Operator)
  | operand (value : α)
  | leave (op : Operator)
  deriving DecidableEq, Repr

def Event.text : Event Float → String
  | enter op => "enter " ++ op.name
  | operand value => "operand " ++ Numeral.write value
  | leave op => "exit " ++ op.name

namespace Tree

variable {α : Type}

def recorder : Visitor α (List (Event α)) where
  operand value events := .operand value :: events
  enter op events := .enter op :: events
  leave op events := .leave op :: events

def events (t : Tree α) : List (Event α) := (t.accept recorder []).reverse

end Tree

end ArithTree
