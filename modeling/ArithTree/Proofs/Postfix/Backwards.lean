import ArithTree.Postfix.Machine
import ArithTree.Scaffold.Placement
import Mathlib.Data.List.Induction

/-!
# Postfix order read from the end

Read backwards, a postfix expression names every operation before its operands, the right operand
before the left. At each token one tree is awaited, in a slot of the operations that have been
begun, or the tree of the whole list is complete and nothing may follow. Reading from the end comes
to the same tree as the machine that reads from the left.
-/

namespace ArithTree.Postfix

variable {α : Type}

/-- A slot whose tree is being read. The right slot of an operation comes first; when the left one
is reached the right operand is known. -/
inductive Slot (α : Type) where
  | right (op : Operator)
  | left (op : Operator) (right : Tree α)

inductive Reading (α : Type) where
  /-- a tree is awaited, in the first of the slots; each slot lies in the operation of the next -/
  | awaiting (slots : List (Slot α))
  | complete (tree : Tree α)

namespace Reading

/-- Puts a tree into the first slot. An operation whose left slot is filled is a tree itself. -/
def fill (tree : Tree α) : List (Slot α) → Reading α
  | [] => complete tree
  | .right op :: slots => awaiting (.left op tree :: slots)
  | .left op right :: slots => fill (.operation op tree right) slots

/-- What a token puts into the first slot: an operand a tree, an operator an operation whose own
slots come first. -/
def place (slots : List (Slot α)) : Content α → Reading α
  | .operand value => fill (.operand value) slots
  | .operation op => awaiting (.right op :: slots)

def step (read : String → Option α) (s : Reading α) (t : Token) : Option (Reading α) :=
  match s with
  | awaiting slots => (t.content? read).map (place slots)
  | complete _ => none

def run (read : String → Option α) (s : Reading α) (tokens : List Token) : Option (Reading α) :=
  tokens.foldlM (step read) s

def tree? : Reading α → Option (Tree α)
  | awaiting _ => none
  | complete tree => some tree

/-- The tree that comes about if the unread tokens have left these trees on the machine's stack. -/
def close : Reading α → List (Tree α) → Option (Tree α)
  | complete tree, [] => some tree
  | complete _, _ :: _ => none
  | awaiting _, [] => none
  | awaiting slots, tree :: stack => (fill tree slots).close stack
termination_by _ stack => stack.length

variable {read : String → Option α}

theorem run_cons (s : Reading α) (t : Token) (rest : List Token) :
    s.run read (t :: rest) = (s.step read t).bind fun next => next.run read rest := rfl

theorem close_nil (s : Reading α) : s.close [] = s.tree? := by
  cases s <;> simp [close, tree?]

/-- An operation that is begun takes two trees off the stack, as the machine does. -/
theorem close_right (op : Operator) (slots : List (Slot α)) (stack : List (Tree α)) :
    (awaiting (.right op :: slots)).close stack =
      match stack with
      | right :: left :: rest => (awaiting slots).close (.operation op left right :: rest)
      | _ => none := by
  match stack with
  | [] => simp [close]
  | [right] => simp [close, fill]
  | right :: left :: rest => simp [close, fill]

/-- One token read from the end is one token read by the machine, as long as the machine's stack is
what the tokens before have left. -/
theorem close_step (s : Reading α) (t : Token) (stack : List (Tree α)) :
    ((s.step read t).bind fun next => next.close stack) =
      (machineStep read stack t).bind s.close := by
  cases s with
  | complete tree =>
      cases t with
      | operand text => cases h : read text <;> simp [step, machineStep, h, close]
      | operator op =>
          cases stack with
          | nil => rfl
          | cons right stack => cases stack <;> simp [step, machineStep, close]
      | opening => rfl
      | closing => rfl
  | awaiting slots =>
      cases t with
      | operand text =>
          cases h : read text with
          | none => simp [step, machineStep, Token.content?, h]
          | some value => simp [step, machineStep, Token.content?, h, place, close]
      | operator op =>
          simp only [step, Token.content?, Option.map_some, place, Option.bind_some]
          rw [close_right]
          cases stack with
          | nil => rfl
          | cons right stack => cases stack <;> rfl
      | opening => rfl
      | closing => rfl

/-- The induction follows the reading, from the last token to the first: what has been read from
the end closes over what the machine makes of the rest. -/
theorem run_reverse (s : Reading α) (tokens : List Token) :
    (s.run read tokens.reverse).bind tree? = (machineRun read [] tokens).bind s.close := by
  induction tokens using List.reverseRecOn generalizing s with
  | nil => exact (close_nil s).symm
  | append_singleton tokens t ih =>
      have hrun : (s.run read (tokens ++ [t]).reverse).bind tree? =
          (s.step read t).bind fun next => (next.run read tokens.reverse).bind tree? := by
        rw [List.reverse_append, List.reverse_singleton, List.singleton_append, run_cons,
          Option.bind_assoc]
      rw [hrun, machineRun_append]
      simp only [ih, machineRun_singleton]
      cases machineRun read [] tokens with
      | none => cases s.step read t <;> rfl
      | some stack => exact close_step s t stack

/-- Read from the end, a list comes to the tree that it means. -/
theorem run_reverse_eq_meaning? (read : String → Option α) (tokens : List Token) :
    ((awaiting []).run read tokens.reverse).bind tree? = meaning? read tokens := by
  rw [run_reverse, meaning?]
  cases machineRun read [] tokens with
  | none => rfl
  | some stack =>
      cases stack with
      | nil => simp [close]
      | cons tree stack => cases stack <;> simp [close, fill]

end Reading

end ArithTree.Postfix
