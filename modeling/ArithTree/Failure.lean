import ArithTree.Text.Quoted

/-!
# What can go wrong

A failure is a cause and, where it arose while the tree of an expression was being built, that
expression. Each cause has one wording. Four causes are of a kind of their own; every other one is a
token that cannot be read where it stands.
-/

namespace ArithTree

inductive Misreading where
  /-- a text that is neither a symbol nor a number -/
  | unknown (text : String)
  /-- a token in the place of an operator -/
  | noOperator (text : String)
  /-- a token that waits among the operators and is none of them -/
  | stray
  /-- an operator that was seen waiting and waits no more -/
  | gone
  deriving DecidableEq, Repr

def Misreading.message : Misreading → String
  | unknown text => "'" ++ text ++ "' is neither an operator nor a number"
  | noOperator text => "Expected an operator, found " ++ text
  | stray => "Found non-operator in operator stack"
  | gone => "No operators left."

inductive Cause where
  | invalidExpression
  | uninitializedTree
  /-- some parenthesis has no partner -/
  | mismatchedParenthesis
  /-- a character that starts no token; `position` characters stand before it -/
  | unexpectedCharacter (character : Char) (position : Nat)
  | unreadableToken (misreading : Misreading)
  deriving DecidableEq, Repr

def Cause.message : Cause → String
  | invalidExpression => "Invalid expression"
  | uninitializedTree => "Attempting to evaluate uninitialized tree"
  | mismatchedParenthesis => "Mismatched parenthesis"
  | unexpectedCharacter c position =>
      "Unexpected character '" ++ c.toString ++ "' at position " ++ toString position
  | unreadableToken misreading => misreading.message

structure Failure where
  cause : Cause
  /-- the expression whose tree could not be built -/
  building : Option String
  deriving DecidableEq, Repr

namespace Failure

def bare (cause : Cause) : Failure := ⟨cause, none⟩

def whileBuilding (source : String) (cause : Cause) : Failure := ⟨cause, some source⟩

/-- The statements that describe the failure, from the context to the cause. -/
def layers (failure : Failure) : List String :=
  match failure.building with
  | none => [failure.cause.message]
  | some source => ["Could not build a tree from " ++ Text.quote source, failure.cause.message]

def message (failure : Failure) : String := ": ".intercalate failure.layers

theorem layers_bare (cause : Cause) : (bare cause).layers = [cause.message] := rfl

end Failure

/-! ## Computations in stages -/

section Stages

variable {ε α β : Type} {x : Except ε α} {b : β}

/-- Two stages have a result exactly if both of them have one. -/
theorem bind_eq_ok_iff {f : α → Except ε β} :
    x.bind f = .ok b ↔ ∃ a, x = .ok a ∧ f a = .ok b := by
  cases x <;> simp [Except.bind]

theorem map_eq_ok_iff {f : α → β} : x.map f = .ok b ↔ ∃ a, x = .ok a ∧ f a = b := by
  cases x <;> simp [Except.map]

end Stages

end ArithTree
