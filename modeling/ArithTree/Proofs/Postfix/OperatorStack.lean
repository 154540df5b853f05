import ArithTree.Postfix.Reorder
import ArithTree.Proofs.Infix.Balance

/-!
# The operator stack

Only operators and opened groups ever wait on the stack, and every token that waits comes out. The
three loops of the reordering are described once by the operators they let through; a step and a run
follow. A run succeeds exactly if the parentheses are balanced, the only way to fail is a
parenthesis without a partner, and a run that succeeds neither loses nor adds a token.
-/

namespace ArithTree.Postfix

def isParenthesis : Token → Bool
  | .opening | .closing => true
  | _ => false

/-- The operands and operators of a list, without its parentheses. -/
def proper (ts : List Token) : List Token := ts.filter fun t => !isParenthesis t

@[simp] theorem proper_nil : proper [] = [] := rfl

@[simp] theorem proper_append (ts us : List Token) : proper (ts ++ us) = proper ts ++ proper us :=
  List.filter_append ..

@[simp] theorem proper_map_operator (ops : List Operator) :
    proper (ops.map .operator) = ops.map .operator := by
  induction ops with
  | nil => rfl
  | cons op ops ih =>
      rw [List.map_cons, proper, List.filter_cons_of_pos (by rfl)]
      exact congrArg _ ih

namespace Reorder

/-- Only operators and opened groups wait. -/
def Stacked (waiting : List Token) : Prop :=
  ∀ t ∈ waiting, t = .opening ∨ ∃ op, t = .operator op

/-- An operator of at least this rank can be put on the stack without letting anything through. -/
def Admits (rank : Nat) : List Token → Prop
  | [] => True
  | .opening :: _ => True
  | .operator op :: _ => op.rank ≤ rank
  | _ => False

theorem Admits.mono {rank rank' : Nat} {waiting : List Token} (h : Admits rank waiting)
    (hle : rank ≤ rank') : Admits rank' waiting := by
  unfold Admits at h ⊢
  split at h
  · trivial
  · trivial
  · exact Nat.le_trans h hle
  · exact h.elim

theorem Stacked.of_cons {t : Token} {waiting : List Token} (h : Stacked (t :: waiting)) :
    Stacked waiting :=
  fun u hu => h u (List.mem_cons_of_mem _ hu)

theorem Stacked.of_append {front waiting : List Token} (h : Stacked (front ++ waiting)) :
    Stacked waiting :=
  fun u hu => h u (List.mem_append_right _ hu)

theorem Stacked.operator {op : Operator} {waiting : List Token} (h : Stacked waiting) :
    Stacked (.operator op :: waiting) := by
  intro t ht
  rcases List.mem_cons.1 ht with rfl | ht
  · exact Or.inr ⟨op, rfl⟩
  · exact h t ht

theorem Stacked.opening {waiting : List Token} (h : Stacked waiting) :
    Stacked (.opening :: waiting) := by
  intro t ht
  rcases List.mem_cons.1 ht with rfl | ht
  · exact Or.inl rfl
  · exact h t ht

/-- Above the innermost opened group, operators wait. -/
theorem Stacked.split {waiting : List Token} (h : Stacked waiting) :
    ∃ ops : List Operator, waiting = ops.map .operator ∨
      ∃ outer, waiting = ops.map .operator ++ .opening :: outer := by
  induction waiting with
  | nil => exact ⟨[], Or.inl rfl⟩
  | cons t waiting ih =>
      rcases h t List.mem_cons_self with rfl | ⟨op, rfl⟩
      · exact ⟨[], Or.inr ⟨waiting, rfl⟩⟩
      · obtain ⟨ops, rfl | ⟨outer, rfl⟩⟩ := ih h.of_cons
        · exact ⟨op :: ops, Or.inl rfl⟩
        · exact ⟨op :: ops, Or.inr ⟨outer, rfl⟩⟩

/-! ## The loops -/

theorem closeGroup_operators (ops : List Operator) (output waiting : List Token) :
    closeGroup output (ops.map .operator ++ waiting) =
      closeGroup ((ops.map .operator).reverse ++ output) waiting := by
  induction ops generalizing output with
  | nil => rfl
  | cons op ops ih =>
      show closeGroup (.operator op :: output) (ops.map .operator ++ waiting) = _
      rw [ih]
      simp

theorem flush_operators (ops : List Operator) (output waiting : List Token) :
    flush output (ops.map .operator ++ waiting) =
      flush ((ops.map .operator).reverse ++ output) waiting := by
  induction ops generalizing output with
  | nil => rfl
  | cons op ops ih =>
      show flush (.operator op :: output) (ops.map .operator ++ waiting) = _
      rw [ih]
      simp

theorem closeGroup_of_open (ops : List Operator) (output outer : List Token) :
    closeGroup output (ops.map .operator ++ .opening :: outer) =
      .ok ⟨(ops.map .operator).reverse ++ output, outer⟩ := by
  rw [closeGroup_operators, closeGroup]

theorem closeGroup_of_none_open (ops : List Operator) (output : List Token) :
    closeGroup output (ops.map .operator) = .error .mismatchedParenthesis := by
  have h := closeGroup_operators ops output []
  rw [List.append_nil] at h
  exact h

theorem finish_of_none_open (ops : List Operator) (output : List Token) :
    finish ⟨output, ops.map .operator⟩ = .ok (output.reverse ++ ops.map .operator) := by
  have h := flush_operators ops output []
  rw [List.append_nil] at h
  rw [finish, h]
  simp [flush, Except.map]

theorem finish_of_open (ops : List Operator) (output outer : List Token) :
    finish ⟨output, ops.map .operator ++ .opening :: outer⟩ = .error .mismatchedParenthesis := by
  rw [finish, flush_operators, flush]
  rfl

theorem pushOperator_of_admits {op : Operator} {waiting : List Token}
    (h : Admits op.rank waiting) (output : List Token) :
    pushOperator op output waiting = .ok ⟨output, .operator op :: waiting⟩ := by
  unfold Admits at h
  split at h
  · rfl
  · rfl
  · rename_i other rest
    have hnot : ¬ op.rank < other.rank := by omega
    simp [pushOperator, Token.operator?, hnot]
  · exact h.elim

theorem pushOperator_of_rank_lt {op other : Operator} (h : op.rank < other.rank)
    (output waiting : List Token) :
    pushOperator op output (.operator other :: waiting) =
      pushOperator op (.operator other :: output) waiting := by
  rw [pushOperator]
  simp [Token.operator?, h]

theorem pushOperator_operators {op : Operator} {ops : List Operator}
    (h : ∀ other ∈ ops, op.rank < other.rank) (output waiting : List Token) :
    pushOperator op output (ops.map .operator ++ waiting) =
      pushOperator op ((ops.map .operator).reverse ++ output) waiting := by
  induction ops generalizing output with
  | nil => rfl
  | cons other ops ih =>
      rw [List.map_cons, List.cons_append, pushOperator_of_rank_lt (h other List.mem_cons_self),
        ih fun o ho => h o (List.mem_cons_of_mem _ ho)]
      simp

theorem pushOperator_of_released {op : Operator} {released : List Operator} {kept : List Token}
    (hreleased : ∀ other ∈ released, op.rank < other.rank) (hkept : Admits op.rank kept)
    (output : List Token) :
    pushOperator op output (released.map .operator ++ kept) =
      .ok ⟨(released.map .operator).reverse ++ output, .operator op :: kept⟩ := by
  rw [pushOperator_operators hreleased, pushOperator_of_admits hkept]

/-- An arriving operator lets through those at the top that bind more tightly, and no others. -/
theorem Stacked.exists_released {waiting : List Token} (hs : Stacked waiting) (op : Operator) :
    ∃ released : List Operator, ∃ kept, waiting = released.map .operator ++ kept ∧
      (∀ other ∈ released, op.rank < other.rank) ∧ Admits op.rank kept := by
  induction waiting with
  | nil => exact ⟨[], [], rfl, by simp, trivial⟩
  | cons t waiting ih =>
      rcases hs t List.mem_cons_self with rfl | ⟨other, rfl⟩
      · exact ⟨[], .opening :: waiting, rfl, by simp, trivial⟩
      · by_cases hlt : op.rank < other.rank
        · obtain ⟨released, kept, rfl, hreleased, hkept⟩ := ih hs.of_cons
          refine ⟨other :: released, kept, rfl, ?_, hkept⟩
          intro o ho
          rcases List.mem_cons.1 ho with rfl | ho
          · exact hlt
          · exact hreleased o ho
        · exact ⟨[], .operator other :: waiting, rfl, by simp, Nat.le_of_not_lt hlt⟩

theorem Stacked.pushOperator {waiting : List Token} (hs : Stacked waiting) (op : Operator)
    (output : List Token) :
    ∃ released : List Operator, ∃ kept, waiting = released.map .operator ++ kept ∧
      pushOperator op output waiting =
        .ok ⟨(released.map .operator).reverse ++ output, .operator op :: kept⟩ := by
  obtain ⟨released, kept, rfl, hreleased, hkept⟩ := hs.exists_released op
  exact ⟨released, kept, rfl, pushOperator_of_released hreleased hkept output⟩

/-! ## One step -/

def depth (r : Reorder) : Nat := r.waiting.count .opening

def contents (r : Reorder) : List Token := r.output ++ proper r.waiting

private theorem count_opening_map_operator (ops : List Operator) :
    (ops.map Token.operator).count .opening = 0 := by
  simp [List.count_eq_zero]

/-- Operators that are let through only change places. -/
private theorem released_perm (ops : List Operator) (output rest : List Token) :
    ((ops.map Token.operator).reverse ++ output ++ rest).Perm
      (output ++ (ops.map .operator ++ rest)) := by
  have hperm : ((ops.map Token.operator).reverse ++ output).Perm (output ++ ops.map .operator) :=
    ((List.reverse_perm _).append_right _).trans List.perm_append_comm
  rw [← List.append_assoc output]
  exact hperm.append_right rest

/-- A token is taken in, and opens or closes a group if it is a parenthesis; only a closing
parenthesis can be refused, when no group is open. -/
theorem step_of_stacked (r : Reorder) (t : Token) (hs : Stacked r.waiting) :
    (∃ next, r.step t = .ok next ∧ Stacked next.waiting ∧
      next.contents.Perm (proper [t] ++ r.contents) ∧
      next.depth + [t].count .closing = r.depth + [t].count .opening) ∨
    (t = .closing ∧ r.depth = 0 ∧ r.step t = .error .mismatchedParenthesis) := by
  obtain ⟨output, waiting⟩ := r
  cases t with
  | operand text => exact Or.inl ⟨⟨.operand text :: output, waiting⟩, rfl, hs, .refl _, rfl⟩
  | operator op =>
      obtain ⟨released, kept, rfl, hpush⟩ := hs.pushOperator op output
      refine Or.inl ⟨_, hpush, hs.of_append.operator, ?_, ?_⟩
      · simp only [contents, proper_append, proper_map_operator]
        exact List.perm_middle.trans ((released_perm released output (proper kept)).cons _)
      · simp [depth, count_opening_map_operator]
  | opening =>
      exact Or.inl ⟨⟨output, .opening :: waiting⟩, rfl, hs.opening, .refl _, by simp [depth]⟩
  | closing =>
      obtain ⟨ops, rfl | ⟨outer, rfl⟩⟩ := hs.split
      · exact Or.inr ⟨rfl, count_opening_map_operator ops, closeGroup_of_none_open ops output⟩
      · refine Or.inl ⟨_, closeGroup_of_open ops output outer, hs.of_append.of_cons, ?_, ?_⟩
        · simp only [contents, proper_append, proper_map_operator]
          exact released_perm ops output (proper outer)
        · simp [depth, count_opening_map_operator]

theorem Stacked.step {r next : Reorder} {t : Token} (hs : Stacked r.waiting)
    (h : r.step t = .ok next) : Stacked next.waiting := by
  rcases r.step_of_stacked t hs with ⟨after, hafter, hstacked, -⟩ | ⟨-, -, herror⟩
  · rw [h] at hafter
    cases hafter
    exact hstacked
  · rw [h] at herror
    contradiction

/-! ## A run -/

theorem stacked_start : Stacked start.waiting := by
  simp [start, Stacked]

theorem Stacked.run {r last : Reorder} {ts : List Token} (hs : Stacked r.waiting)
    (h : r.run ts = .ok last) : Stacked last.waiting := by
  induction ts generalizing r with
  | nil =>
      cases h
      exact hs
  | cons t ts ih =>
      rw [run_cons] at h
      obtain ⟨next, hstep, hrest⟩ := bind_eq_ok_iff.1 h
      exact ih (hs.step hstep) hrest

/-- What is left at the end comes out, unless a group is open. -/
theorem finish_of_stacked (r : Reorder) (hs : Stacked r.waiting) :
    (r.depth = 0 ∧ ∃ out, r.finish = .ok out ∧ out.Perm r.contents) ∨
      (r.depth ≠ 0 ∧ r.finish = .error .mismatchedParenthesis) := by
  obtain ⟨output, waiting⟩ := r
  obtain ⟨ops, rfl | ⟨outer, rfl⟩⟩ := hs.split
  · refine Or.inl ⟨count_opening_map_operator ops, _, finish_of_none_open ops output, ?_⟩
    simp only [contents, proper_map_operator]
    exact (List.reverse_perm output).append_right _
  · exact Or.inr ⟨by simp [depth], finish_of_open ops output outer⟩

/-- A token that changes the number of open groups as it should leaves the question of balance to
the tokens behind it. -/
private theorem balancedFrom_cons_iff {t : Token} {ts : List Token} {before after : Nat}
    (h : after + [t].count .closing = before + [t].count .opening) :
    BalancedFrom .opening .closing before (t :: ts) ↔
      BalancedFrom .opening .closing after ts := by
  have hne : Token.opening ≠ .closing := by decide
  cases t with
  | operand text =>
      have hafter : after = before := by simpa using h
      rw [hafter, balancedFrom_cons_of_ne (by simp) (by simp)]
  | operator op =>
      have hafter : after = before := by simpa using h
      rw [hafter, balancedFrom_cons_of_ne (by simp) (by simp)]
  | opening =>
      have hafter : after = before + 1 := by simpa using h
      rw [hafter, balancedFrom_cons_opening hne]
  | closing =>
      have hbefore : before = after + 1 := by simpa using h.symm
      rw [hbefore, balancedFrom_cons_closing hne]
      simp

/-- From any state that a run can be in, the rest of a list comes out whole if it is balanced from
the groups that are open, and is refused for a parenthesis if it is not. -/
theorem run_finish_of_stacked (r : Reorder) (ts : List Token) (hs : Stacked r.waiting) :
    (BalancedFrom .opening .closing r.depth ts ∧
      ∃ out, (r.run ts).bind finish = .ok out ∧ out.Perm (proper ts ++ r.contents)) ∨
    (¬ BalancedFrom .opening .closing r.depth ts ∧
      (r.run ts).bind finish = .error .mismatchedParenthesis) := by
  induction ts generalizing r with
  | nil =>
      rcases finish_of_stacked r hs with ⟨hd, out, hout, hperm⟩ | ⟨hd, herror⟩
      · exact Or.inl ⟨balancedFrom_nil.2 hd, out, hout, hperm⟩
      · exact Or.inr ⟨fun h => hd (balancedFrom_nil.1 h), herror⟩
  | cons t ts ih =>
      have hrun : (r.run (t :: ts)).bind finish =
          (r.step t).bind fun next => (next.run ts).bind finish := by
        rw [run_cons]
        cases r.step t <;> rfl
      rw [hrun]
      rcases step_of_stacked r t hs with ⟨next, hstep, hnext, hperm, hdepth⟩ | ⟨rfl, hd, herror⟩
      · rw [hstep, balancedFrom_cons_iff hdepth]
        rcases ih next hnext with ⟨hb, out, hout, hout'⟩ | ⟨hb, herror⟩
        · refine Or.inl ⟨hb, out, hout, ?_⟩
          have hcons : proper (t :: ts) = proper [t] ++ proper ts := proper_append [t] ts
          calc
            List.Perm out (proper ts ++ next.contents) := hout'
            List.Perm _ (proper ts ++ (proper [t] ++ r.contents)) := hperm.append_left _
            List.Perm _ (proper (t :: ts) ++ r.contents) := by
              rw [hcons, ← List.append_assoc]
              exact List.perm_append_comm.append_right _
        · exact Or.inr ⟨hb, herror⟩
      · refine Or.inr ⟨?_, by rw [herror]; rfl⟩
        rw [hd, balancedFrom_cons_closing (by decide)]
        simp

end Reorder

/-- Reordering succeeds exactly on balanced lists, and keeps all operands and operators. -/
theorem ofInfix_of_balanced {ts : List Token} (h : Balanced .opening .closing ts) :
    ∃ out, ofInfix ts = .ok out ∧ out.Perm (proper ts) := by
  rcases Reorder.run_finish_of_stacked .start ts Reorder.stacked_start with
    ⟨_, out, hout, hperm⟩ | ⟨hnot, _⟩
  · exact ⟨out, hout, by simpa [Reorder.contents, Reorder.start] using hperm⟩
  · exact (hnot h).elim

theorem ofInfix_of_not_balanced {ts : List Token} (h : ¬ Balanced .opening .closing ts) :
    ofInfix ts = .error .mismatchedParenthesis := by
  rcases Reorder.run_finish_of_stacked .start ts Reorder.stacked_start with
    ⟨hb, _⟩ | ⟨_, herror⟩
  · exact (h hb).elim
  · exact herror

theorem balanced_of_ofInfix {ts out : List Token} (h : ofInfix ts = .ok out) :
    Balanced .opening .closing ts := by
  by_contra hnot
  rw [ofInfix_of_not_balanced hnot] at h
  contradiction

theorem perm_of_ofInfix {ts out : List Token} (h : ofInfix ts = .ok out) :
    out.Perm (proper ts) := by
  obtain ⟨out', hout, hperm⟩ := ofInfix_of_balanced (balanced_of_ofInfix h)
  rw [h] at hout
  cases hout
  exact hperm

/-- Whatever else is wrong with a list, it is reordered if no beginning of it holds more closings
than openings and the whole of it holds as many of the one as of the other. Otherwise the failure is
that of a parenthesis without a partner. -/
theorem exists_ofInfix_iff (ts : List Token) :
    ((∃ out, ofInfix ts = .ok out) ↔
      (∀ p, p <+: ts → p.count .closing ≤ p.count .opening) ∧
        ts.count .closing = ts.count .opening) ∧
    ∀ cause, ofInfix ts = .error cause ↔
      cause = .mismatchedParenthesis ∧ ¬ ∃ out, ofInfix ts = .ok out := by
  rw [← balanced_iff]
  refine ⟨⟨fun ⟨out, hout⟩ => balanced_of_ofInfix hout, fun h => ?_⟩, fun cause => ?_⟩
  · obtain ⟨out, hout, -⟩ := ofInfix_of_balanced h
    exact ⟨out, hout⟩
  · by_cases h : Balanced .opening .closing ts
    · obtain ⟨out, hout, -⟩ := ofInfix_of_balanced h
      simp [hout]
    · rw [ofInfix_of_not_balanced h]
      simp [eq_comm]

end ArithTree.Postfix
