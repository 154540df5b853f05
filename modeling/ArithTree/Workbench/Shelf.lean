import ArithTree.Expression

/-!
# A shelf of expressions

Expressions stand in numbered slots, all of them empty at first. Each command concerns one slot. A
text that cannot be parsed leaves its slot as it was, and a command on a slot that is not there
changes nothing.
-/

namespace ArithTree

abbrev Shelf := List Expression

namespace Shelf

def empty (slots : Nat) : Shelf := List.replicate slots Expression.empty

inductive Command where
  | clear
  /-- puts a newly parsed expression into the slot -/
  | put (source : String)
  /-- gives the expression in the slot another text -/
  | rebind (source : String)
  /-- puts a copy of another slot's expression into the slot -/
  | clone (other : Nat)
  | report
  | evaluate
  /-- whether the slot's expression agrees with another slot's -/
  | compare (other : Nat)
  | line
  | describe

inductive Answer where
  | report (report : Expression.Report)
  | failed (failure : Failure)
  | value (x : Float)
  | agree (same : Bool)
  | text (text : String)
  /-- the shelf has no such slot -/
  | noSuchSlot

def place (shelf : Shelf) (slot : Nat) (e : Expression) : Shelf × Answer :=
  (shelf.set slot e, .report e.report)

def obeyAt (shelf : Shelf) (slot : Nat) (e : Expression) : Command → Shelf × Answer
  | .clear => shelf.place slot .empty
  | .put source =>
      match Expression.parse source with
      | .ok next => shelf.place slot next
      | .error failure => (shelf, .failed failure)
  | .rebind source =>
      match e.rebind source with
      | (next, .ok ()) => shelf.place slot next
      | (next, .error failure) => (shelf.set slot next, .failed failure)
  | .clone other =>
      match shelf[other]? with
      | some o => shelf.place slot o.copy
      | none => (shelf, .noSuchSlot)
  | .report => (shelf, .report e.report)
  | .evaluate =>
      match e.evaluate with
      | .ok x => (shelf, .value x)
      | .error failure => (shelf, .failed failure)
  | .compare other =>
      match shelf[other]? with
      | some o => (shelf, .agree (e.agrees o))
      | none => (shelf, .noSuchSlot)
  | .line => (shelf, .text e.line)
  | .describe => (shelf, .text e.describe)

def obey (shelf : Shelf) (slot : Nat) (command : Command) : Shelf × Answer :=
  match shelf[slot]? with
  | some e => shelf.obeyAt slot e command
  | none => (shelf, .noSuchSlot)

end Shelf

end ArithTree
