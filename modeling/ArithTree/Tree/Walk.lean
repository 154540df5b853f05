import ArithTree.Tree.Basic

/-!
# Walking a tree

A walk visits every place of a tree. It enters an operation before its left operand and leaves it
after its right operand, so that entering follows the pre-order and leaving the post-order. What
remains to be done is kept on a stack of frames, and the depth of a tree is no limit. Each step
takes exactly one from the number of steps that remain.
-/

namespace ArithTree

/-- What is done at the places of a tree, on a state that is passed along. -/
structure Visitor (α σ : Type) where
  operand : α → σ → σ
  /-- at an operation, before its operands -/
  enter : Operator → σ → σ
  /-- at an operation, after its operands -/
  leave : Operator → σ → σ

inductive Frame (α : Type) where
  /-- to visit a tree -/
  | visit (tree : Tree α)
  /-- to leave an operation whose operands have been visited -/
  | leave (op : Operator)

structure Walk (α σ : Type) where
  /-- what remains to be done, the next frame first -/
  frames : List (Frame α)
  state : σ

variable {α σ : Type}

def Tree.steps : Tree α → Nat
  | .operand _ => 1
  | .operation _ left right => left.steps + right.steps + 2

def Frame.steps : Frame α → Nat
  | visit tree => tree.steps
  | leave _ => 1

def Frame.stepsOf : List (Frame α) → Nat
  | [] => 0
  | frame :: rest => frame.steps + stepsOf rest

namespace Walk

def remaining (w : Walk α σ) : Nat := Frame.stepsOf w.frames

/-- One step: the frame on top of the stack, if there is one. -/
def step (v : Visitor α σ) : Walk α σ → Option (Walk α σ)
  | ⟨[], _⟩ => none
  | ⟨.visit (.operand value) :: rest, state⟩ => some ⟨rest, v.operand value state⟩
  | ⟨.visit (.operation op left right) :: rest, state⟩ =>
      some ⟨.visit left :: .visit right :: .leave op :: rest, v.enter op state⟩
  | ⟨.leave op :: rest, state⟩ => some ⟨rest, v.leave op state⟩

theorem remaining_of_step {v : Visitor α σ} {w next : Walk α σ} (h : w.step v = some next) :
    w.remaining = next.remaining + 1 := by
  unfold step at h
  split at h
  · contradiction
  · cases h
    simp only [remaining, Frame.stepsOf, Frame.steps, Tree.steps]
    omega
  · cases h
    simp only [remaining, Frame.stepsOf, Frame.steps, Tree.steps]
    omega
  · cases h
    simp only [remaining, Frame.stepsOf, Frame.steps]
    omega

def run (v : Visitor α σ) (w : Walk α σ) : σ :=
  match _hstep : w.step v with
  | none => w.state
  | some next => run v next
termination_by w.remaining
decreasing_by
  have := remaining_of_step _hstep
  omega

theorem run_of_step {v : Visitor α σ} {w next : Walk α σ} (h : w.step v = some next) :
    w.run v = next.run v := by
  rw [run]
  split
  · rename_i hnone
    rw [h] at hnone
    contradiction
  · rename_i other hother
    rw [h] at hother
    cases hother
    rfl

@[simp] theorem run_nil (v : Visitor α σ) (state : σ) : run v ⟨[], state⟩ = state := by
  rw [run]
  rfl

@[simp] theorem run_operand (v : Visitor α σ) (value : α) (rest : List (Frame α)) (state : σ) :
    run v ⟨.visit (.operand value) :: rest, state⟩ = run v ⟨rest, v.operand value state⟩ :=
  run_of_step rfl

@[simp] theorem run_operation (v : Visitor α σ) (op : Operator) (left right : Tree α)
    (rest : List (Frame α)) (state : σ) :
    run v ⟨.visit (.operation op left right) :: rest, state⟩ =
      run v ⟨.visit left :: .visit right :: .leave op :: rest, v.enter op state⟩ :=
  run_of_step rfl

@[simp] theorem run_leave (v : Visitor α σ) (op : Operator) (rest : List (Frame α)) (state : σ) :
    run v ⟨.leave op :: rest, state⟩ = run v ⟨rest, v.leave op state⟩ :=
  run_of_step rfl

end Walk

/-- The same visits by recursion on the tree. -/
def Tree.traverse (v : Visitor α σ) : Tree α → σ → σ
  | .operand value, state => v.operand value state
  | .operation op left right, state =>
      v.leave op (right.traverse v (left.traverse v (v.enter op state)))

/-- A walk that visits a tree goes on as if the tree had been visited by recursion. -/
theorem Walk.run_visit (v : Visitor α σ) (t : Tree α) (rest : List (Frame α)) (state : σ) :
    Walk.run v ⟨.visit t :: rest, state⟩ = Walk.run v ⟨rest, t.traverse v state⟩ := by
  induction t generalizing rest state with
  | operand value => simp [Tree.traverse]
  | operation op left right ihl ihr => simp [Tree.traverse, ihl, ihr]

def Tree.accept (t : Tree α) (v : Visitor α σ) (state : σ) : σ :=
  Walk.run v ⟨[.visit t], state⟩

theorem Tree.accept_eq_traverse (t : Tree α) (v : Visitor α σ) (state : σ) :
    t.accept v state = t.traverse v state := by
  rw [accept, Walk.run_visit, Walk.run_nil]

end ArithTree
