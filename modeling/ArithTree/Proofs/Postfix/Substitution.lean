import ArithTree.Proofs.Postfix.OperatorStack

/-!
# Putting something in the place of an operand

The reordering asks of an operand nothing but that it is one, and of an operator nothing but its
rank. So operators may be exchanged for others of the same rank, and any list that lets its tokens
through and leaves the stack as it was may stand where an operand stood: what comes out is changed
in the same places, and nothing else is. A group around a balanced list is such a list.
-/

namespace ArithTree.Postfix

namespace Reorder

/-! ## Groups -/

/-- The state `r` of a list that stands in a group, where the group was opened in the state
`outer`. -/
def inside (r outer : Reorder) : Reorder :=
  ⟨r.output ++ outer.output, r.waiting ++ .opening :: outer.waiting⟩

theorem admits_inside {rank : Nat} {waiting : List Token} (h : Admits rank waiting)
    (outer : List Token) : Admits rank (waiting ++ .opening :: outer) := by
  unfold Admits at h
  split at h
  · trivial
  · trivial
  · exact h
  · exact h.elim

/-- In a group a token does what it does in a list of its own, and nothing to what is outside. -/
theorem step_inside {r next : Reorder} {t : Token} (hs : Stacked r.waiting)
    (h : r.step t = .ok next) (outer : Reorder) :
    (r.inside outer).step t = .ok (next.inside outer) := by
  obtain ⟨output, waiting⟩ := r
  cases t with
  | operand text =>
      cases h
      rfl
  | operator op =>
      obtain ⟨released, kept, rfl, hreleased, hkept⟩ := hs.exists_released op
      have hpush := pushOperator_of_released hreleased hkept output
      have hinside := pushOperator_of_released hreleased (admits_inside hkept outer.waiting)
        (output ++ outer.output)
      cases hpush.symm.trans h
      simpa [inside, step, Token.operator?] using hinside
  | opening =>
      cases h
      rfl
  | closing =>
      obtain ⟨ops, rfl | ⟨rest, rfl⟩⟩ := hs.split
      · cases (closeGroup_of_none_open ops output).symm.trans h
      · have hinside := closeGroup_of_open ops (output ++ outer.output)
          (rest ++ .opening :: outer.waiting)
        cases (closeGroup_of_open ops output rest).symm.trans h
        simpa [inside, step] using hinside

theorem run_inside {r last : Reorder} {ts : List Token} (hs : Stacked r.waiting)
    (h : r.run ts = .ok last) (outer : Reorder) :
    (r.inside outer).run ts = .ok (last.inside outer) := by
  induction ts generalizing r with
  | nil =>
      cases h
      rfl
  | cons t ts ih =>
      rw [run_cons] at h
      obtain ⟨next, hstep, hrest⟩ := bind_eq_ok_iff.1 h
      rw [run_cons, step_inside hs hstep outer]
      exact ih (hs.step hstep) hrest

/-- Whatever has been taken in before it, the list lets `out` through and leaves the stack as it
was. -/
def ActsAsOperand (ts out : List Token) : Prop :=
  ∀ r : Reorder, r.run ts = .ok ⟨out.reverse ++ r.output, r.waiting⟩

theorem actsAsOperand_operand (text : String) :
    ActsAsOperand [.operand text] [.operand text] :=
  fun _ => rfl

/-- A group acts as an operand for which its own tokens come out, reordered by themselves. -/
theorem actsAsOperand_group {ts out : List Token} (h : ofInfix ts = .ok out) :
    ActsAsOperand (.opening :: ts ++ [.closing]) out := by
  intro r
  obtain ⟨⟨output, waiting⟩, hrun, hfinish⟩ := bind_eq_ok_iff.1 h
  have hinside := run_inside stacked_start hrun r
  rw [List.cons_append, run_cons]
  show run (start.inside r) (ts ++ [.closing]) = _
  rw [run_append, hinside]
  show run (inside _ r) [.closing] = _
  rw [run_singleton]
  show closeGroup (output ++ r.output) (waiting ++ .opening :: r.waiting) = _
  obtain ⟨ops, rfl | ⟨outer, rfl⟩⟩ := (stacked_start.run hrun).split
  · cases (finish_of_none_open ops output).symm.trans hfinish
    rw [closeGroup_of_open]
    simp
  · cases (finish_of_open ops output outer).symm.trans hfinish

end Reorder

/-! ## Substitutions -/

/-- Operators for operators of the same rank, and for every operand a list that acts as one. -/
structure Substitution where
  operator : Operator → Operator
  rank_operator : ∀ op, (operator op).rank = op.rank
  /-- the tokens that stand for an operand -/
  taken : String → List Token
  /-- the tokens that come out for them -/
  released : String → List Token
  acts : ∀ text, Reorder.ActsAsOperand (taken text) (released text)

namespace Substitution

open Reorder

variable (σ : Substitution)

/-- What stands for a token in the list that is reordered. -/
def before : Token → List Token
  | .operand text => σ.taken text
  | .operator op => [.operator (σ.operator op)]
  | .opening => [.opening]
  | .closing => [.closing]

/-- What comes out for a token. -/
def after : Token → List Token
  | .operand text => σ.released text
  | .operator op => [.operator (σ.operator op)]
  | .opening => [.opening]
  | .closing => [.closing]

def state (r : Reorder) : Reorder :=
  ⟨(r.output.reverse.flatMap σ.after).reverse, r.waiting.flatMap σ.after⟩

@[simp] theorem flatMap_after_operators (ops : List Operator) :
    (ops.map Token.operator).flatMap σ.after = (ops.map σ.operator).map .operator := by
  induction ops with
  | nil => rfl
  | cons op ops ih =>
      rw [List.map_cons, List.flatMap_cons, ih]
      rfl

theorem admits_flatMap_after {rank : Nat} {waiting : List Token} (h : Admits rank waiting) :
    Admits rank (waiting.flatMap σ.after) := by
  unfold Admits at h
  split at h
  · trivial
  · trivial
  · rename_i op rest
    show (σ.operator op).rank ≤ rank
    rw [σ.rank_operator]
    exact h
  · exact h.elim

/-- What stands for a token does to the state what the token does. -/
theorem run_before {r : Reorder} (hs : Stacked r.waiting) (t : Token) :
    (σ.state r).run (σ.before t) = (r.step t).map σ.state := by
  obtain ⟨output, waiting⟩ := r
  cases t with
  | operand text =>
      show run _ (σ.taken text) = .ok (σ.state ⟨.operand text :: output, waiting⟩)
      rw [σ.acts text]
      simp [state, after]
  | operator op =>
      obtain ⟨released, kept, rfl, hreleased, hkept⟩ := hs.exists_released op
      have hstep : step ⟨output, released.map .operator ++ kept⟩ (.operator op) = _ :=
        pushOperator_of_released hreleased hkept output
      have hreleased' : ∀ other ∈ released.map σ.operator, (σ.operator op).rank < other.rank := by
        intro other hother
        obtain ⟨o, ho, rfl⟩ := List.mem_map.1 hother
        rw [σ.rank_operator, σ.rank_operator]
        exact hreleased o ho
      have hkept' : Admits (σ.operator op).rank (kept.flatMap σ.after) := by
        rw [σ.rank_operator]
        exact σ.admits_flatMap_after hkept
      have hstep' := pushOperator_of_released hreleased' hkept'
        (output.reverse.flatMap σ.after).reverse
      rw [hstep]
      show run (σ.state _) [.operator (σ.operator op)] = .ok (σ.state _)
      rw [run_singleton]
      simp only [state, List.flatMap_append, flatMap_after_operators]
      show pushOperator _ _ _ = _
      rw [hstep']
      simp [after]
  | opening => rfl
  | closing =>
      show run (σ.state _) [.closing] = (closeGroup output waiting).map σ.state
      rw [run_singleton]
      show closeGroup (output.reverse.flatMap σ.after).reverse (waiting.flatMap σ.after) = _
      obtain ⟨ops, rfl | ⟨outer, rfl⟩⟩ := hs.split
      · rw [flatMap_after_operators, closeGroup_of_none_open, closeGroup_of_none_open]
        rfl
      · rw [List.flatMap_append, List.flatMap_cons, flatMap_after_operators]
        show closeGroup _ (_ ++ .opening :: outer.flatMap σ.after) = _
        rw [closeGroup_of_open, closeGroup_of_open]
        simp [Except.map, state]

theorem run_flatMap_before {r : Reorder} (hs : Stacked r.waiting) (ts : List Token) :
    (σ.state r).run (ts.flatMap σ.before) = (r.run ts).map σ.state := by
  induction ts generalizing r with
  | nil => rfl
  | cons t ts ih =>
      rw [List.flatMap_cons, run_append, σ.run_before hs, run_cons]
      cases hstep : r.step t with
      | error cause => rfl
      | ok next => exact ih (hs.step hstep)

theorem finish_state {r : Reorder} (hs : Stacked r.waiting) :
    (σ.state r).finish = r.finish.map fun out => out.flatMap σ.after := by
  obtain ⟨output, waiting⟩ := r
  obtain ⟨ops, rfl | ⟨outer, rfl⟩⟩ := hs.split
  · simp only [state, flatMap_after_operators, finish_of_none_open]
    simp [Except.map]
  · simp only [state, List.flatMap_append, List.flatMap_cons, flatMap_after_operators, after,
      List.singleton_append, finish_of_open]
    rfl

/-- Reordering what stands for the tokens of a list comes to what comes out for its tokens. -/
theorem ofInfix_flatMap (ts : List Token) :
    ofInfix (ts.flatMap σ.before) = (ofInfix ts).map fun out => out.flatMap σ.after := by
  have hrun := σ.run_flatMap_before stacked_start ts
  rw [ofInfix, ofInfix]
  show (run (σ.state start) _).bind finish = _
  rw [hrun]
  cases hlast : start.run ts with
  | error cause => rfl
  | ok last => exact σ.finish_state (stacked_start.run hlast)

end Substitution

def replaceAll (x : Token) (out ts : List Token) : List Token :=
  ts.flatMap fun t => if t = x then out else [t]

namespace Reorder.ActsAsOperand

variable {ts us out : List Token}

theorem ofInfix_eq (h : ActsAsOperand ts out) : ofInfix ts = .ok out := by
  rw [ofInfix, h start]
  simp [start, Except.bind, finish, flush, Except.map]

/-- Two lists for which the same comes out may stand in each other's place. -/
theorem ofInfix_congr (h : ActsAsOperand ts out) (h' : ActsAsOperand us out) (xs zs : List Token) :
    ofInfix (xs ++ ts ++ zs) = ofInfix (xs ++ us ++ zs) := by
  have hrun : start.run (xs ++ ts ++ zs) = start.run (xs ++ us ++ zs) := by
    rw [run_append, run_append start (xs ++ us), run_append, run_append start xs]
    cases start.run xs with
    | error cause => rfl
    | ok r =>
        show (r.run ts).bind _ = (r.run us).bind _
        rw [h r, h' r]
  rw [ofInfix, hrun, ofInfix]

def substitution (h : ActsAsOperand ts out) (text : String) : Substitution where
  operator := id
  rank_operator _ := rfl
  taken other := if other = text then ts else [.operand other]
  released other := if other = text then out else [.operand other]
  acts other := by
    split
    · exact h
    · exact actsAsOperand_operand other

theorem before_of_ne (h : ActsAsOperand ts out) {text : String} {t : Token}
    (ht : t ≠ .operand text) : (h.substitution text).before t = [t] := by
  cases t with
  | operand other =>
      have hne : other ≠ text := fun heq => ht (congrArg _ heq)
      simp [Substitution.before, substitution, hne]
  | operator op => rfl
  | opening => rfl
  | closing => rfl

theorem flatMap_before_of_not_mem (h : ActsAsOperand ts out) {text : String} {us : List Token}
    (hus : .operand text ∉ us) : us.flatMap (h.substitution text).before = us := by
  have hsingle : ∀ t ∈ us, (h.substitution text).before t = [t] :=
    fun t ht => h.before_of_ne fun heq => hus (heq ▸ ht)
  rw [List.flatMap_congr hsingle, List.flatMap_singleton']

theorem flatMap_after (h : ActsAsOperand ts out) (text : String) (us : List Token) :
    us.flatMap (h.substitution text).after = replaceAll (.operand text) out us := by
  refine List.flatMap_congr fun t _ => ?_
  cases t <;> simp [Substitution.after, substitution]

/-- The reordering with the list is the reordering with a fresh operand in its place, and what comes
out for the list in the place of the operand. -/
theorem ofInfix_eq_map_replaceAll (h : ActsAsOperand ts out) {xs zs : List Token} {text : String}
    (hfresh : .operand text ∉ xs ++ zs) :
    ofInfix (xs ++ ts ++ zs) =
      (ofInfix (xs ++ [.operand text] ++ zs)).map (replaceAll (.operand text) out) := by
  rw [List.mem_append, not_or] at hfresh
  have hbefore : (xs ++ [Token.operand text] ++ zs).flatMap (h.substitution text).before =
      xs ++ ts ++ zs := by
    rw [List.flatMap_append, List.flatMap_append, h.flatMap_before_of_not_mem hfresh.1,
      h.flatMap_before_of_not_mem hfresh.2]
    simp [Substitution.before, substitution]
  rw [← hbefore, Substitution.ofInfix_flatMap]
  simp only [h.flatMap_after]

end Reorder.ActsAsOperand

/-- A group around a balanced list is one operand. The whole is reordered exactly if it is with a
fresh operand in place of the group, and what the group holds, reordered by itself, comes out where
the operand does. So needless parentheses change nothing. -/
theorem ofInfix_group_as_operand {ys : List Token} (hys : Balanced .opening .closing ys)
    {xs zs : List Token} {text : String} (hfresh : .operand text ∉ xs ++ zs) :
    ∃ inner, ofInfix ys = .ok inner ∧
      ofInfix (xs ++ [Token.opening] ++ ys ++ [Token.closing] ++ zs) =
        (ofInfix (xs ++ [Token.operand text] ++ zs)).map (replaceAll (.operand text) inner) ∧
      ofInfix ([Token.opening] ++ ys ++ [Token.closing]) = .ok inner ∧
      ofInfix (xs ++ [Token.opening, .opening] ++ ys ++ [Token.closing, .closing] ++ zs) =
        ofInfix (xs ++ [Token.opening] ++ ys ++ [Token.closing] ++ zs) := by
  obtain ⟨inner, hinner, -⟩ := ofInfix_of_balanced hys
  have hgroup := Reorder.actsAsOperand_group hinner
  have htwice := Reorder.actsAsOperand_group hgroup.ofInfix_eq
  refine ⟨inner, hinner, ?_, hgroup.ofInfix_eq, ?_⟩
  · simpa using hgroup.ofInfix_eq_map_replaceAll hfresh
  · simpa using htwice.ofInfix_congr hgroup xs zs

/-- The group of `1 - (+ () 2 3) * 4` holds no expression, and is multiplied by 4 as one operand. -/
theorem ofInfix_group_of_loose_tokens :
    let xs : List Token := [.operand "1", .operator .subtract]
    let ys : List Token := [.operator .add, .opening, .closing, .operand "2", .operand "3"]
    let zs : List Token := [.operator .multiply, .operand "4"]
    let inner : List Token := [.operand "2", .operand "3", .operator .add]
    Balanced .opening .closing ys ∧ .operand "x" ∉ xs ++ zs ∧ ofInfix ys = .ok inner ∧
      ofInfix (xs ++ [Token.operand "x"] ++ zs) =
        .ok [.operand "1", .operand "x", .operand "4", .operator .multiply, .operator .subtract] ∧
      ofInfix (xs ++ [Token.opening] ++ ys ++ [Token.closing] ++ zs) =
        .ok ([Token.operand "1"] ++ inner ++
          [Token.operand "4", .operator .multiply, .operator .subtract]) := by
  intro xs ys zs inner
  have hinner : ofInfix ys = .ok inner := by rfl
  have hbalanced := balanced_of_ofInfix hinner
  have hfresh : Token.operand "x" ∉ xs ++ zs := by decide
  have hoperand : ofInfix (xs ++ [Token.operand "x"] ++ zs) =
      .ok [.operand "1", .operand "x", .operand "4", .operator .multiply,
        .operator .subtract] := by rfl
  obtain ⟨inner', hinner', hgroup, -⟩ := ofInfix_group_as_operand hbalanced hfresh
  cases hinner.symm.trans hinner'
  rw [hoperand] at hgroup
  exact ⟨hbalanced, hfresh, hinner, hoperand, hgroup⟩

end ArithTree.Postfix
