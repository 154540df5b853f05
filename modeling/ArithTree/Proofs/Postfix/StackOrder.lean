import ArithTree.Proofs.Postfix.OperatorStack
import Mathlib.Data.List.Chain

/-!
# The order of the operator stack

An operator is put on the stack when those at the top that bind more tightly have been let through,
and a closed group uncovers what waited before it was opened. So, as far as no opened group stands
in between, the operators that wait bind the more tightly the nearer they are to the top. Whatever
tokens have been taken in, as many openings wait as there are groups that are still open.
-/

namespace ArithTree.Postfix

namespace Reorder

/-- If both are operators, the upper one binds at least as tightly as the lower one. -/
def Ascends (upper lower : Token) : Prop :=
  ∀ op other, upper = .operator op → lower = .operator other → other.rank ≤ op.rank

theorem isChain_opening {waiting : List Token} (h : waiting.IsChain Ascends) :
    (.opening :: waiting).IsChain Ascends := by
  refine List.isChain_cons.2 ⟨fun lower _ op other hupper => ?_, h⟩
  contradiction

theorem isChain_operator {op : Operator} {waiting : List Token} (hadmits : Admits op.rank waiting)
    (h : waiting.IsChain Ascends) : (.operator op :: waiting).IsChain Ascends := by
  refine List.isChain_cons.2 ⟨fun lower hlower upper other hupper heq => ?_, h⟩
  cases hupper
  subst heq
  obtain ⟨rest, rfl⟩ : ∃ rest, waiting = .operator other :: rest := List.head?_eq_some_iff.1 hlower
  exact hadmits

/-- Neighbours compare as all members of a run of operators do. -/
theorem pairwise_rank_of_isChain {above below : List Token} {ops : List Operator}
    (h : (above ++ ops.map Token.operator ++ below).IsChain Ascends) :
    ops.Pairwise fun upper lower => lower.rank ≤ upper.rank := by
  have hops : (ops.map Token.operator).IsChain Ascends :=
    h.left_of_append.right_of_append
  rw [List.isChain_map] at hops
  have htrans : IsTrans Operator fun upper lower => lower.rank ≤ upper.rank :=
    ⟨fun _ _ _ hupper hlower => Nat.le_trans hlower hupper⟩
  refine List.isChain_iff_pairwise.1 (hops.imp fun upper lower hascends => ?_)
  exact hascends upper lower rfl rfl

/-! ## One step -/

theorem isChain_of_step {r next : Reorder} {t : Token} (hs : Stacked r.waiting)
    (hr : r.waiting.IsChain Ascends) (h : r.step t = .ok next) :
    next.waiting.IsChain Ascends := by
  obtain ⟨output, waiting⟩ := r
  cases t with
  | operand text =>
      cases h
      exact hr
  | operator op =>
      obtain ⟨released, kept, rfl, hreleased, hkept⟩ := hs.exists_released op
      have hpush := pushOperator_of_released hreleased hkept output
      cases hpush.symm.trans h
      exact isChain_operator hkept hr.right_of_append
  | opening =>
      cases h
      exact isChain_opening hr
  | closing =>
      obtain ⟨ops, rfl | ⟨outer, rfl⟩⟩ := hs.split
      · cases (closeGroup_of_none_open ops output).symm.trans h
      · cases (closeGroup_of_open ops output outer).symm.trans h
        exact hr.right_of_append.tail

theorem depth_of_step {r next : Reorder} {t : Token} (hs : Stacked r.waiting)
    (h : r.step t = .ok next) :
    next.depth + [t].count .closing = r.depth + [t].count .opening := by
  rcases r.step_of_stacked t hs with ⟨after, hafter, -, -, hdepth⟩ | ⟨-, -, herror⟩
  · rw [h] at hafter
    cases hafter
    exact hdepth
  · rw [h] at herror
    contradiction

/-! ## A run -/

theorem isChain_of_run {r last : Reorder} {ts : List Token} (hs : Stacked r.waiting)
    (hr : r.waiting.IsChain Ascends) (h : r.run ts = .ok last) :
    last.waiting.IsChain Ascends := by
  induction ts generalizing r with
  | nil =>
      cases h
      exact hr
  | cons t ts ih =>
      rw [run_cons] at h
      obtain ⟨next, hstep, hrest⟩ := bind_eq_ok_iff.1 h
      exact ih (hs.step hstep) (isChain_of_step hs hr hstep) hrest

/-- What has been opened and not been closed waits. -/
theorem depth_of_run {r last : Reorder} {ts : List Token} (hs : Stacked r.waiting)
    (h : r.run ts = .ok last) :
    last.depth + ts.count .closing = r.depth + ts.count .opening := by
  induction ts generalizing r with
  | nil =>
      cases h
      rfl
  | cons t ts ih =>
      rw [run_cons] at h
      obtain ⟨next, hstep, hrest⟩ := bind_eq_ok_iff.1 h
      have hnext := depth_of_step hs hstep
      have hlast := ih (hs.step hstep) hrest
      rw [List.count_cons (l := ts), List.count_cons (l := ts)]
      simp only [List.count_singleton] at hnext
      omega

theorem exists_run_of_prefix {r last : Reorder} {ts p : List Token} (hp : p <+: ts)
    (h : r.run ts = .ok last) : ∃ middle, r.run p = .ok middle := by
  obtain ⟨rest, rfl⟩ := hp
  rw [run_append] at h
  obtain ⟨middle, hmiddle, -⟩ := bind_eq_ok_iff.1 h
  exact ⟨middle, hmiddle⟩

/-- What waits when some tokens have been taken in, whatever comes behind them: operators and opened
groups, as many groups as are still open, and between two of them, above the last and below the
first the operators in an order in which no rank is less than that of an operator below. -/
theorem ranks_ascend_of_run {tokens : List Token} {r : Reorder} (h : start.run tokens = .ok r) :
    (∀ rest, ofInfix (tokens ++ rest) = (r.run rest).bind finish) ∧
      (∀ t ∈ r.waiting, t = .opening ∨ ∃ op, t = .operator op) ∧
      (∀ p, p <+: tokens → p.count .closing ≤ p.count .opening) ∧
      r.waiting.count .opening + tokens.count .closing = tokens.count .opening ∧
      ∀ (above below : List Token) (ops : List Operator),
        r.waiting = above ++ ops.map .operator ++ below →
        ops.Pairwise fun upper lower => lower.rank ≤ upper.rank := by
  have hdepth {p : List Token} {middle : Reorder} (hmiddle : start.run p = .ok middle) :
      middle.depth + p.count .closing = p.count .opening := by
    have hdepth := depth_of_run stacked_start hmiddle
    rwa [show start.depth = 0 from rfl, Nat.zero_add] at hdepth
  refine ⟨fun rest => ?_, stacked_start.run h, fun p hp => ?_, hdepth h,
    fun above below ops hwaiting => ?_⟩
  · rw [ofInfix, run_append, h]
    rfl
  · obtain ⟨middle, hmiddle⟩ := exists_run_of_prefix hp h
    have hopen := hdepth hmiddle
    omega
  · have hchain := isChain_of_run stacked_start .nil h
    rw [hwaiting] at hchain
    exact pairwise_rank_of_isChain hchain

/-- In `2 * (3 - 4) ^ (5 + 6 ^` the first group is closed, and the power waits above the product
that it has uncovered. Above the second group a power waits on a sum. -/
theorem ranks_ascend_behind_closed_group :
    let tokens : List Token :=
      [.operand "2", .operator .multiply, .opening, .operand "3", .operator .subtract,
        .operand "4", .closing, .operator .exponentiate, .opening, .operand "5", .operator .add,
        .operand "6", .operator .exponentiate]
    let inner : List Operator := [.exponentiate, .add]
    let outer : List Operator := [.exponentiate, .multiply]
    ∃ r, start.run tokens = .ok r ∧
      r.waiting = inner.map .operator ++ .opening :: outer.map .operator ∧
      r.waiting.count .opening + 1 = 2 ∧
      (inner.Pairwise fun upper lower => lower.rank ≤ upper.rank) ∧
      outer.Pairwise fun upper lower => lower.rank ≤ upper.rank := by
  intro tokens inner outer
  obtain ⟨r, hrun, hwaiting⟩ : ∃ r, start.run tokens = .ok r ∧
      r.waiting = inner.map .operator ++ .opening :: outer.map .operator := ⟨_, rfl, rfl⟩
  obtain ⟨-, -, -, hdepth, hranks⟩ := ranks_ascend_of_run hrun
  refine ⟨r, hrun, hwaiting, hdepth, hranks [] _ inner hwaiting, ?_⟩
  exact hranks (inner.map .operator ++ [.opening]) [] outer (by simp [hwaiting])

end Reorder

end ArithTree.Postfix
