import ArithTree.Tree.Fold

/-!
# Counting

The numbers of operands and operations of a tree, and its operands in order, found by a walk.
-/

namespace ArithTree.Tree

variable {α : Type}

structure Tally where
  operands : Nat
  operations : Nat
  deriving DecidableEq, Repr

/-- Counts every place once, an operation when it is entered. -/
def counter : Visitor α Tally where
  operand _ tally := { tally with operands := tally.operands + 1 }
  enter _ tally := { tally with operations := tally.operations + 1 }
  leave _ tally := tally

def tally (t : Tree α) : Tally := t.accept counter ⟨0, 0⟩

def operandCount (t : Tree α) : Nat := t.tally.operands

def operationCount (t : Tree α) : Nat := t.tally.operations

def operandCollector : Visitor α (List α) where
  operand value values := value :: values
  enter _ values := values
  leave _ values := values

def operands (t : Tree α) : List α := (t.accept operandCollector []).reverse

theorem traverse_counter (t : Tree α) (tally : Tally) :
    t.traverse counter tally =
      ⟨tally.operands + t.operandCount, tally.operations + t.operationCount⟩ := by
  suffices h : ∃ m n, ∀ tally : Tally,
      t.traverse counter tally = ⟨tally.operands + m, tally.operations + n⟩ by
    obtain ⟨m, n, h⟩ := h
    simp [operandCount, operationCount, Tree.tally, accept_eq_traverse, h]
  induction t with
  | operand value => exact ⟨1, 0, fun _ => rfl⟩
  | operation op left right ihl ihr =>
      obtain ⟨ml, nl, hl⟩ := ihl
      obtain ⟨mr, nr, hr⟩ := ihr
      refine ⟨ml + mr, nl + nr + 1, fun tally => ?_⟩
      rw [traverse, hl, hr]
      simp [counter, Nat.add_assoc, Nat.add_comm, Nat.add_left_comm]

@[simp] theorem operandCount_operand (value : α) : (operand value).operandCount = 1 := by
  simp [operandCount, tally, accept_eq_traverse, traverse, counter]

@[simp] theorem operationCount_operand (value : α) : (operand value).operationCount = 0 := by
  simp [operationCount, tally, accept_eq_traverse, traverse, counter]

@[simp] theorem operandCount_operation (op : Operator) (left right : Tree α) :
    (operation op left right).operandCount = left.operandCount + right.operandCount := by
  have h := congrArg Tally.operands (traverse_counter (operation op left right) ⟨0, 0⟩)
  rw [traverse, traverse_counter, traverse_counter] at h
  simpa [counter] using h.symm

@[simp] theorem operationCount_operation (op : Operator) (left right : Tree α) :
    (operation op left right).operationCount =
      left.operationCount + right.operationCount + 1 := by
  have h := congrArg Tally.operations (traverse_counter (operation op left right) ⟨0, 0⟩)
  rw [traverse, traverse_counter, traverse_counter] at h
  simp only [counter, Nat.zero_add] at h
  omega

@[simp] theorem operationCount_map {β : Type} (f : α → β) (t : Tree α) :
    (t.map f).operationCount = t.operationCount := by
  induction t with
  | operand value => simp [map]
  | operation op left right ihl ihr => simp [map, ihl, ihr]

theorem operandCollector_pushes : (operandCollector : Visitor α _).Pushes :=
  ⟨fun _ _ => rfl, fun _ _ => rfl, fun _ _ => rfl⟩

@[simp] theorem operands_operand (value : α) : (operand value).operands = [value] := by
  simp [operands, accept_eq_traverse, traverse, operandCollector]

@[simp] theorem operands_operation (op : Operator) (left right : Tree α) :
    (operation op left right).operands = left.operands ++ right.operands := by
  have h : (operation op left right).traverse operandCollector [] =
      right.traverse operandCollector [] ++ left.traverse operandCollector [] :=
    operandCollector_pushes.traverse right _
  simp only [operands, accept_eq_traverse, h, List.reverse_append]

end ArithTree.Tree
