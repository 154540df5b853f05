import ArithTree.Scaffold.Basic

/-!
# Taking a scaffold apart into a tree

The places are finished from the last to the first, so that both operands of an operation are
finished before the operation. A finished tree waits at its place until its parent takes it, and
it can be taken once.
-/

namespace ArithTree

variable {α : Type}

/-- The finished trees that have not been taken, each at its place. -/
abbrev Finished (α : Type) := Array (Option (Tree α))

namespace Finished

/-- Takes the tree that waits at a place, if there is one. -/
def take? (finished : Finished α) (place : Option Nat) : Option (Tree α × Finished α) :=
  match place with
  | none => none
  | some number =>
      match finished[number]?.join with
      | none => none
      | some tree => some (tree, finished.setIfInBounds number none)

/-- Finishes one place: an operation takes its left operand and then its right one. -/
def finish? (finished : Finished α) (number : Nat) (place : Place α) : Option (Finished α) :=
  match place.content with
  | .operand value => some (finished.setIfInBounds number (some (.operand value)))
  | .operation op => do
      let (left, finished) ← finished.take? place.left
      let (right, finished) ← finished.take? place.right
      return finished.setIfInBounds number (some (.operation op left right))

end Finished

namespace Scaffold

def finishFirst? (s : Scaffold α) : Nat → Finished α → Option (Finished α)
  | 0, finished => some finished
  | number + 1, finished => do
      let finished ← finished.finish? number (← s.places[number]?)
      s.finishFirst? number finished

/-- The tree at the root, if both slots of every operation are filled. -/
def toTree? (s : Scaffold α) : Option (Tree α) := do
  let finished ← s.finishFirst? s.places.size (.replicate s.places.size none)
  let (root, _) ← finished.take? (some 0)
  return root

end Scaffold

end ArithTree
