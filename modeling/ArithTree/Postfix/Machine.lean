import ArithTree.Tree.Count
import ArithTree.Tree.Tokens

/-!
# The postfix machine

Postfix order read from the left on a stack of trees: an operand is put on the stack, an operator
joins the two topmost trees, and one tree has to be left at the end. This is what a list in postfix
order means.
-/

namespace ArithTree.Postfix

variable {α : Type}

/-- Reads one token. A parenthesis has no meaning. -/
def machineStep (read : String → Option α) (stack : List (Tree α)) : Token → Option (List (Tree α))
  | .operand text => (read text).map fun value => .operand value :: stack
  | .operator op =>
      match stack with
      | right :: left :: rest => some (.operation op left right :: rest)
      | _ => none
  | .opening => none
  | .closing => none

def machineRun (read : String → Option α) (stack : List (Tree α)) (tokens : List Token) :
    Option (List (Tree α)) :=
  tokens.foldlM (machineStep read) stack

/-- The tree that a list of tokens means in postfix order. -/
def meaning? (read : String → Option α) (tokens : List Token) : Option (Tree α) :=
  match machineRun read [] tokens with
  | some [tree] => some tree
  | _ => none

variable {read : String → Option α}

theorem machineRun_append (stack : List (Tree α)) (tokens more : List Token) :
    machineRun read stack (tokens ++ more) =
      (machineRun read stack tokens).bind fun next => machineRun read next more := by
  simp only [machineRun, List.foldlM_append]
  rfl

theorem machineRun_singleton (stack : List (Tree α)) (t : Token) :
    machineRun read stack [t] = machineStep read stack t := by
  simp [machineRun]

/-- The tokens of a tree put the tree of the values that its operands are read as on the stack,
whatever is below. -/
theorem machineRun_tokensWith {β : Type} (write : β → String) (value : β → α) (t : Tree β)
    (h : ∀ x ∈ t.operands, read (write x) = some (value x)) (stack : List (Tree α)) :
    machineRun read stack (t.tokensWith write) = some (t.map value :: stack) := by
  induction t generalizing stack with
  | operand x => simp [machineRun, machineStep, h x, Tree.map]
  | operation op left right ihl ihr =>
      simp only [Tree.operands_operation, List.mem_append] at h
      rw [Tree.tokensWith_operation, machineRun_append, machineRun_append,
        ihl fun x hx => h x (Or.inl hx), Option.bind_some, ihr fun x hx => h x (Or.inr hx),
        Option.bind_some]
      rfl

theorem meaning?_tokensWith {β : Type} (write : β → String) (value : β → α) (t : Tree β)
    (h : ∀ x ∈ t.operands, read (write x) = some (value x)) :
    meaning? read (t.tokensWith write) = some (t.map value) := by
  simp [meaning?, machineRun_tokensWith write value t h]

end ArithTree.Postfix
