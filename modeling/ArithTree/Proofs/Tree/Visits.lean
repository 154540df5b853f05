import ArithTree.Tree.Count
import ArithTree.Tree.Events

/-!
# The visits of a walk

The frames of a walk stand for the visits that remain of a traversal by recursion. A step makes the
first of them, whatever the visitor and its state, and leaves the others for later. So a walk makes
the visits of the traversal one after the other, one in each step, and it ends with the last.
-/

namespace ArithTree

variable {α σ : Type}

def Visitor.respond (v : Visitor α σ) (state : σ) : Event α → σ
  | .enter op => v.enter op state
  | .operand value => v.operand value state
  | .leave op => v.leave op state

def Tree.visits : Tree α → List (Event α)
  | .operand value => [.operand value]
  | .operation op left right => .enter op :: (left.visits ++ right.visits ++ [.leave op])

namespace Tree

theorem traverse_eq_foldl (v : Visitor α σ) (t : Tree α) (state : σ) :
    t.traverse v state = t.visits.foldl v.respond state := by
  induction t generalizing state with
  | operand value => rfl
  | operation op left right ihl ihr =>
      simp only [traverse, visits, ihl, ihr, List.foldl_cons, List.foldl_append, List.foldl_nil,
        Visitor.respond]

theorem length_visits (t : Tree α) : t.visits.length = t.steps := by
  induction t with
  | operand value => rfl
  | operation op left right ihl ihr =>
      simp only [visits, steps, List.length_cons, List.length_append, List.length_nil, ihl, ihr]

theorem steps_pos (t : Tree α) : 0 < t.steps := by
  cases t <;> simp [steps]

theorem steps_eq_counts (t : Tree α) : t.steps = t.operandCount + 2 * t.operationCount := by
  induction t with
  | operand value => simp [steps]
  | operation op left right ihl ihr =>
      rw [steps, ihl, ihr, operandCount_operation, operationCount_operation]
      omega

/-- What a recorder puts down are the events of the traversal. -/
theorem events_eq_visits (t : Tree α) : t.events = t.visits := by
  have hrecord : (recorder : Visitor α _).respond = fun events event => event :: events := by
    funext events event
    cases event <;> rfl
  rw [events, accept_eq_traverse, traverse_eq_foldl, hrecord]
  simp

end Tree

def Frame.visits : Frame α → List (Event α)
  | visit tree => tree.visits
  | leave op => [.leave op]

theorem Frame.length_visits (frame : Frame α) : frame.visits.length = frame.steps := by
  cases frame with
  | visit tree => exact tree.length_visits
  | leave op => rfl

namespace Walk

def pending (w : Walk α σ) : List (Event α) := w.frames.flatMap Frame.visits

theorem length_pending (w : Walk α σ) : w.pending.length = w.remaining := by
  obtain ⟨frames, state⟩ := w
  simp only [pending, remaining]
  induction frames with
  | nil => rfl
  | cons frame rest ih =>
      rw [List.flatMap_cons, List.length_append, ih, frame.length_visits, Frame.stepsOf]

theorem frames_eq_nil_iff (w : Walk α σ) : w.frames = [] ↔ w.pending.length = 0 := by
  obtain ⟨frames, state⟩ := w
  rw [length_pending]
  cases frames with
  | nil => simp [remaining, Frame.stepsOf]
  | cons frame rest =>
      have hpos : 0 < frame.steps := by
        cases frame with
        | visit tree => exact tree.steps_pos
        | leave op => exact Nat.one_pos
      simp only [remaining, Frame.stepsOf, reduceCtorEq, false_iff]
      omega

/-- A step makes the first visit that remains, and no other. -/
theorem step_of_pending (v : Visitor α σ) {w : Walk α σ} {event : Event α}
    {rest : List (Event α)} (h : w.pending = event :: rest) :
    ∃ next, w.step v = some next ∧ next.pending = rest ∧
      next.state = v.respond w.state event := by
  obtain ⟨frames, state⟩ := w
  match frames with
  | [] => contradiction
  | .visit (.operand value) :: frames =>
      obtain ⟨rfl, rfl⟩ := List.cons.inj h
      exact ⟨⟨frames, v.operand value state⟩, rfl, rfl, rfl⟩
  | .visit (.operation op left right) :: frames =>
      let next : Walk α σ := ⟨.visit left :: .visit right :: .leave op :: frames, v.enter op state⟩
      have hnext : pending ⟨.visit (.operation op left right) :: frames, state⟩ =
          .enter op :: next.pending := by
        simp [next, pending, Frame.visits, Tree.visits]
      obtain ⟨rfl, rfl⟩ := List.cons.inj (hnext.symm.trans h)
      exact ⟨next, rfl, rfl, rfl⟩
  | .leave op :: frames =>
      obtain ⟨rfl, rfl⟩ := List.cons.inj h
      exact ⟨⟨frames, v.leave op state⟩, rfl, rfl, rfl⟩

theorem step_eq_none (v : Visitor α σ) {w : Walk α σ} (h : w.frames = []) : w.step v = none := by
  obtain ⟨frames, state⟩ := w
  cases h
  rfl

/-! ## Several steps -/

/-- The walk `k` steps later. There is none if it ends before. -/
def after (v : Visitor α σ) : Nat → Walk α σ → Option (Walk α σ)
  | 0, w => some w
  | k + 1, w => (w.step v).bind (after v k)

theorem after_add (v : Visitor α σ) (j k : Nat) (w : Walk α σ) :
    after v (j + k) w = (after v j w).bind (after v k) := by
  induction j generalizing w with
  | zero => rw [Nat.zero_add, after, Option.bind_some]
  | succ j ih =>
      rw [Nat.succ_add, after, after]
      cases hstep : w.step v with
      | none => rfl
      | some next => exact ih next

/-- The loop comes past the walk after any number of steps, and goes on from there. -/
theorem run_eq_of_after {v : Visitor α σ} {k : Nat} {w next : Walk α σ}
    (h : after v k w = some next) : w.run v = next.run v := by
  induction k generalizing w with
  | zero =>
      cases h
      rfl
  | succ k ih =>
      obtain ⟨middle, hstep, hrest⟩ := Option.bind_eq_some_iff.1 h
      rw [run_of_step hstep, ih hrest]

/-- In `k` steps the first `k` of the visits are made, if there are so many. -/
theorem after_of_le (v : Visitor α σ) {k : Nat} {w : Walk α σ} (h : k ≤ w.pending.length) :
    ∃ next, after v k w = some next ∧ next.pending = w.pending.drop k ∧
      next.state = (w.pending.take k).foldl v.respond w.state := by
  induction k generalizing w with
  | zero => exact ⟨w, rfl, rfl, rfl⟩
  | succ k ih =>
      cases hpending : w.pending with
      | nil => simp [hpending] at h
      | cons event rest =>
          obtain ⟨middle, hstep, hmiddle, hstate⟩ := step_of_pending v hpending
          have hk : k ≤ middle.pending.length := by
            rw [hpending, List.length_cons] at h
            rw [hmiddle]
            omega
          obtain ⟨next, hnext, hdrop, htake⟩ := ih hk
          refine ⟨next, ?_, ?_, ?_⟩
          · rw [after, hstep]
            exact hnext
          · rw [hdrop, hmiddle, List.drop_succ_cons]
          · rw [htake, hmiddle, hstate, List.take_succ_cons, List.foldl_cons]

theorem after_of_lt (v : Visitor α σ) {k : Nat} {w : Walk α σ} (h : w.pending.length < k) :
    after v k w = none := by
  obtain ⟨last, hlast, hdrop, -⟩ := after_of_le v (Nat.le_refl w.pending.length)
  have hend : last.step v = none := by
    refine step_eq_none v (last.frames_eq_nil_iff.2 ?_)
    rw [hdrop, List.length_drop, Nat.sub_self]
  obtain ⟨more, rfl⟩ := Nat.exists_eq_add_of_lt h
  rw [Nat.add_assoc, after_add, hlast, Option.bind_some, after, hend]
  rfl

/-- When a tree has been visited, the frames below it are the next ones. -/
theorem after_visit (v : Visitor α σ) (t : Tree α) (rest : List (Frame α)) (state : σ) :
    after v t.steps ⟨.visit t :: rest, state⟩ = some ⟨rest, t.traverse v state⟩ := by
  induction t generalizing rest state with
  | operand value => rfl
  | operation op left right ihl ihr =>
      have hsteps : (Tree.operation op left right).steps =
          1 + (left.steps + (right.steps + 1)) := by
        rw [Tree.steps]
        omega
      have henter : after v 1 ⟨.visit (.operation op left right) :: rest, state⟩ =
          some ⟨.visit left :: .visit right :: .leave op :: rest, v.enter op state⟩ := rfl
      rw [hsteps, after_add, henter, Option.bind_some, after_add, ihl, Option.bind_some, after_add,
        ihr, Option.bind_some]
      rfl

end Walk

/-- A walk of a tree makes the visits of the traversal by recursion, for every visitor: its state is
the same in the end, and after `k` steps it is that after the first `k` of the visits, with all
others to come. The loop takes one step for each operand and two for each operation, and only then
its stack is empty. -/
theorem Tree.accept_makes_visits (t : Tree α) (v : Visitor α σ) (state : σ) :
    let start : Walk α σ := ⟨[.visit t], state⟩
    let n := t.operandCount + 2 * t.operationCount
    t.accept v state = t.traverse v state ∧
      t.traverse v state = t.visits.foldl v.respond state ∧
      t.events = t.visits ∧
      (∀ k ≤ n, ∃ w, Walk.after v k start = some w ∧ t.accept v state = w.run v ∧
        w.state = (t.visits.take k).foldl v.respond state ∧ w.pending = t.visits.drop k ∧
        (w.frames = [] ↔ k = n)) ∧
      Walk.after v n start = some ⟨[], t.accept v state⟩ ∧
      ∀ k, n < k → Walk.after v k start = none := by
  intro start n
  have hpending : start.pending = t.visits := List.append_nil _
  have hlength : start.pending.length = n := by
    rw [hpending, length_visits, steps_eq_counts]
  refine ⟨accept_eq_traverse t v state, traverse_eq_foldl v t state, events_eq_visits t,
    fun k hk => ?_, ?_, fun k hk => Walk.after_of_lt v (hlength ▸ hk)⟩
  · obtain ⟨w, hw, hdrop, hstate⟩ := Walk.after_of_le v (hlength.symm ▸ hk)
    rw [hpending] at hdrop hstate
    refine ⟨w, hw, Walk.run_eq_of_after hw, hstate, hdrop, ?_⟩
    rw [w.frames_eq_nil_iff, hdrop, List.length_drop, ← hpending, hlength]
    omega
  · rw [accept_eq_traverse, ← Walk.after_visit, steps_eq_counts]

/-- Five of the ten visits of `1 + (2 + 3) * 4` have been made when `3` is about to be visited. -/
theorem Tree.accept_makes_visits_of_sum :
    let t : Tree Nat := .operation .add (.operand 1)
      (.operation .multiply (.operation .add (.operand 2) (.operand 3)) (.operand 4))
    let n := t.operandCount + 2 * t.operationCount
    t.events = [.enter .add, .operand 1, .enter .multiply, .enter .add, .operand 2, .operand 3,
      .leave .add, .operand 4, .leave .multiply, .leave .add] ∧
    (5 ≤ n ∧ ∃ w, Walk.after recorder 5 ⟨[.visit t], []⟩ = some w ∧
      w.state = [.operand 2, .enter .add, .enter .multiply, .operand 1, .enter .add] ∧
      w.pending = [.operand 3, .leave .add, .operand 4, .leave .multiply, .leave .add] ∧
      w.frames ≠ []) ∧
    n < 11 ∧ Walk.after recorder 11 ⟨[.visit t], []⟩ = none := by
  intro t n
  have hn : n = 10 := by simp [n, t]
  obtain ⟨-, -, hevents, hwithin, -, hbeyond⟩ := t.accept_makes_visits recorder []
  obtain ⟨w, hw, -, hstate, hpending, hframes⟩ := hwithin 5 (by omega)
  refine ⟨hevents, ⟨by omega, w, hw, hstate, hpending, ?_⟩, by omega, hbeyond 11 (by omega)⟩
  rw [ne_eq, hframes]
  omega

end ArithTree
