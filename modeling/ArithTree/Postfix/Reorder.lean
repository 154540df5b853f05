import ArithTree.Token

/-!
# From infix to postfix order

Operands pass straight through; operators and opened groups wait on a stack. An arriving operator
first lets through the waiting operators that bind more tightly, so that operators of equal rank
are grouped from the right. A closed group lets through what waits above its opening, and the end
of the list lets through all that still waits. The stack is a list of tokens like any other, and
what should not be on it is refused when it is met.
-/

namespace ArithTree.Postfix

/-- The reordering in the middle of a list of tokens. -/
structure Reorder where
  /-- the tokens that have been let through, the last one first -/
  output : List Token
  /-- the operator stack, its top first -/
  waiting : List Token
  deriving DecidableEq, Repr

namespace Reorder

def start : Reorder := ⟨[], []⟩

/-- Lets through the operators at the top of the stack that bind more tightly than `op`, as far as
the next opened group, and puts `op` in their place. -/
def pushOperator (op : Operator) (output waiting : List Token) : Except Cause Reorder :=
  match waiting.head? with
  | none | some .opening => .ok ⟨output, .operator op :: waiting⟩
  | some top =>
      match top.operator? with
      | none => .error (.unreadableToken .stray)
      | some other =>
          if op.rank < other.rank then
            match waiting with
            | [] => .error (.unreadableToken .gone)
            | popped :: rest => pushOperator op (popped :: output) rest
          else .ok ⟨output, .operator op :: waiting⟩

/-- Lets through what waits above the innermost opened group and closes that group. -/
def closeGroup (output : List Token) : List Token → Except Cause Reorder
  | [] => .error .mismatchedParenthesis
  | .opening :: rest => .ok ⟨output, rest⟩
  | top :: rest => closeGroup (top :: output) rest

def flush (output : List Token) : List Token → Except Cause (List Token)
  | [] => .ok output
  | .opening :: _ | .closing :: _ => .error .mismatchedParenthesis
  | top :: rest => flush (top :: output) rest

def step (r : Reorder) (t : Token) : Except Cause Reorder :=
  match t with
  | .operand _ => .ok ⟨t :: r.output, r.waiting⟩
  | .opening => .ok ⟨r.output, t :: r.waiting⟩
  | .closing => closeGroup r.output r.waiting
  | _ =>
      match t.operator? with
      | some op => pushOperator op r.output r.waiting
      | none => .error (.unreadableToken (.noOperator t.text))

def run (r : Reorder) (tokens : List Token) : Except Cause Reorder := tokens.foldlM step r

def finish (r : Reorder) : Except Cause (List Token) :=
  (flush r.output r.waiting).map List.reverse

theorem run_cons (r : Reorder) (t : Token) (rest : List Token) :
    r.run (t :: rest) = (r.step t).bind fun next => next.run rest := rfl

theorem run_singleton (r : Reorder) (t : Token) : r.run [t] = r.step t := by
  rw [run_cons]
  cases r.step t <;> rfl

/-- A list is taken in by taking in its parts in turn. -/
theorem run_append (r : Reorder) (tokens more : List Token) :
    r.run (tokens ++ more) = (r.run tokens).bind fun next => next.run more := by
  simp only [run, List.foldlM_append]
  rfl

end Reorder

/-- The tokens of an infix expression in postfix order. Nothing but the pairing of the parentheses
is checked. -/
def ofInfix (tokens : List Token) : Except Cause (List Token) :=
  (Reorder.start.run tokens).bind Reorder.finish

end ArithTree.Postfix
