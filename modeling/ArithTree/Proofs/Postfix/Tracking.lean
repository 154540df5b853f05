import ArithTree.Proofs.Postfix.OperatorStack
import Mathlib.Data.List.Basic

/-!
# Following tokens through the reordering

Equal tokens cannot be told apart in a list, so to follow one of them every token is given the place
where it stood. The places are carried along and have no influence: without them the reordering is
the one of the tokens. What has been let through and, behind it, what waits make up one queue. A
token that arrives enters the queue behind all operands, a group that is closed takes its opening
out of it, and nothing else in the queue moves. So operands keep their order, and no operator comes
to stand before an operand that stood before it.
-/

namespace ArithTree.Postfix

abbrev Occurrence := Token × Nat

structure Tracking where
  /-- the occurrences that have been let through, the last one first -/
  output : List Occurrence
  /-- the operator stack, its top first -/
  waiting : List Occurrence

namespace Tracking

def start : Tracking := ⟨[], []⟩

def pushOperator (op : Operator) (place : Nat) (output : List Occurrence) :
    List Occurrence → Except Cause Tracking
  | [] => .ok ⟨output, [(.operator op, place)]⟩
  | top :: rest =>
      if top.1 = .opening then .ok ⟨output, (.operator op, place) :: top :: rest⟩
      else
        match top.1.operator? with
        | none => .error (.unreadableToken .stray)
        | some other =>
            if op.rank < other.rank then pushOperator op place (top :: output) rest
            else .ok ⟨output, (.operator op, place) :: top :: rest⟩

def closeGroup (output : List Occurrence) : List Occurrence → Except Cause Tracking
  | [] => .error .mismatchedParenthesis
  | top :: rest =>
      if top.1 = .opening then .ok ⟨output, rest⟩ else closeGroup (top :: output) rest

def flush (output : List Occurrence) : List Occurrence → Except Cause (List Occurrence)
  | [] => .ok output
  | top :: rest =>
      if isParenthesis top.1 then .error .mismatchedParenthesis else flush (top :: output) rest

def step (r : Tracking) (t : Occurrence) : Except Cause Tracking :=
  match t.1 with
  | .operand _ => .ok ⟨t :: r.output, r.waiting⟩
  | .operator op => pushOperator op t.2 r.output r.waiting
  | .opening => .ok ⟨r.output, t :: r.waiting⟩
  | .closing => closeGroup r.output r.waiting

def run (r : Tracking) (ts : List Occurrence) : Except Cause Tracking := ts.foldlM step r

def finish (r : Tracking) : Except Cause (List Occurrence) :=
  (flush r.output r.waiting).map List.reverse

def ofInfix (ts : List Occurrence) : Except Cause (List Occurrence) :=
  (start.run ts).bind finish

theorem run_cons (r : Tracking) (t : Occurrence) (rest : List Occurrence) :
    r.run (t :: rest) = (r.step t).bind fun next => next.run rest := rfl

/-! ## Places have no influence -/

def tokens (r : Tracking) : Reorder := ⟨r.output.map Prod.fst, r.waiting.map Prod.fst⟩

theorem map_pushOperator (op : Operator) (place : Nat) (output waiting : List Occurrence) :
    (pushOperator op place output waiting).map tokens =
      Reorder.pushOperator op (output.map Prod.fst) (waiting.map Prod.fst) := by
  induction waiting generalizing output with
  | nil => rfl
  | cons top rest ih =>
      obtain ⟨token, i⟩ := top
      cases token with
      | operand text => rfl
      | closing => rfl
      | opening => rfl
      | operator other =>
          rw [List.map_cons, pushOperator, if_neg (by simp)]
          by_cases h : op.rank < other.rank
          · rw [Reorder.pushOperator_of_rank_lt h]
            simpa [Token.operator?, h] using ih ((.operator other, i) :: output)
          · have hadmits : Reorder.Admits op.rank (.operator other :: rest.map Prod.fst) :=
              Nat.le_of_not_lt h
            rw [Reorder.pushOperator_of_admits hadmits]
            simp [Token.operator?, h, Except.map, tokens]

theorem map_closeGroup (output waiting : List Occurrence) :
    (closeGroup output waiting).map tokens =
      Reorder.closeGroup (output.map Prod.fst) (waiting.map Prod.fst) := by
  induction waiting generalizing output with
  | nil => rfl
  | cons top rest ih =>
      obtain ⟨token, i⟩ := top
      cases token with
      | opening => rfl
      | operand text => exact ih ((.operand text, i) :: output)
      | operator op => exact ih ((.operator op, i) :: output)
      | closing => exact ih ((.closing, i) :: output)

theorem map_flush (output waiting : List Occurrence) :
    (flush output waiting).map (List.map Prod.fst) =
      Reorder.flush (output.map Prod.fst) (waiting.map Prod.fst) := by
  induction waiting generalizing output with
  | nil => rfl
  | cons top rest ih =>
      obtain ⟨token, i⟩ := top
      cases token with
      | opening => rfl
      | closing => rfl
      | operand text => exact ih ((.operand text, i) :: output)
      | operator op => exact ih ((.operator op, i) :: output)

theorem map_step (r : Tracking) (t : Occurrence) :
    (r.step t).map tokens = r.tokens.step t.1 := by
  obtain ⟨token, place⟩ := t
  cases token with
  | operand text => rfl
  | operator op => exact map_pushOperator op place r.output r.waiting
  | opening => rfl
  | closing => exact map_closeGroup r.output r.waiting

theorem map_run (r : Tracking) (ts : List Occurrence) :
    (r.run ts).map tokens = r.tokens.run (ts.map Prod.fst) := by
  induction ts generalizing r with
  | nil => rfl
  | cons t rest ih =>
      rw [List.map_cons, Reorder.run_cons, run_cons, ← map_step]
      cases r.step t with
      | error cause => rfl
      | ok next => exact ih next

theorem map_finish (r : Tracking) : r.finish.map (List.map Prod.fst) = r.tokens.finish := by
  show _ = (Reorder.flush (r.output.map Prod.fst) (r.waiting.map Prod.fst)).map List.reverse
  rw [← map_flush, finish]
  cases flush r.output r.waiting with
  | error cause => rfl
  | ok out => simp [Except.map]

/-- Without their places, the occurrences are reordered as their tokens are. -/
theorem map_ofInfix (ts : List Occurrence) :
    (ofInfix ts).map (List.map Prod.fst) = Postfix.ofInfix (ts.map Prod.fst) := by
  have hrun := map_run start ts
  rw [ofInfix, Postfix.ofInfix]
  show _ = (start.tokens.run (ts.map Prod.fst)).bind Reorder.finish
  rw [← hrun]
  cases start.run ts with
  | error cause => rfl
  | ok last => exact map_finish last

/-! ## The queue -/

/-- What has been let through and what waits, in the order in which it would come out. -/
def queue (r : Tracking) : List Occurrence := r.output.reverse ++ r.waiting

theorem pushOperator_spec {op : Operator} {place : Nat} {output waiting : List Occurrence}
    {next : Tracking} (h : pushOperator op place output waiting = .ok next) :
    ∃ released kept, waiting = released ++ kept ∧
      next = ⟨released.reverse ++ output, (.operator op, place) :: kept⟩ := by
  induction waiting generalizing output with
  | nil =>
      cases h
      exact ⟨[], [], rfl, rfl⟩
  | cons top rest ih =>
      rw [pushOperator] at h
      split at h
      · cases h
        exact ⟨[], top :: rest, rfl, rfl⟩
      · split at h
        · contradiction
        · split at h
          · obtain ⟨released, kept, rfl, rfl⟩ := ih h
            exact ⟨top :: released, kept, rfl, by simp⟩
          · cases h
            exact ⟨[], top :: rest, rfl, rfl⟩

theorem closeGroup_spec {output waiting : List Occurrence} {next : Tracking}
    (h : closeGroup output waiting = .ok next) :
    ∃ released place outer, waiting = released ++ (.opening, place) :: outer ∧
      next = ⟨released.reverse ++ output, outer⟩ := by
  induction waiting generalizing output with
  | nil => contradiction
  | cons top rest ih =>
      rw [closeGroup] at h
      split at h
      · rename_i htop
        cases h
        obtain ⟨token, place⟩ := top
        cases htop
        exact ⟨[], place, rest, rfl, rfl⟩
      · obtain ⟨released, place, outer, rfl, rfl⟩ := ih h
        exact ⟨top :: released, place, outer, rfl, by simp⟩

theorem eq_of_flush {output waiting out : List Occurrence} (h : flush output waiting = .ok out) :
    out = waiting.reverse ++ output := by
  induction waiting generalizing output with
  | nil =>
      cases h
      rfl
  | cons top rest ih =>
      rw [flush] at h
      split at h
      · contradiction
      · rw [ih h]
        simp

/-- What taking in one occurrence does to the queue. -/
inductive TakesIn (t : Occurrence) : List Occurrence → List Occurrence → Prop where
  /-- it enters the queue behind all operands -/
  | enters (front : List Occurrence) {back : List Occurrence}
      (hback : ∀ u ∈ back, u.1.isOperand = false) : TakesIn t (front ++ back) (front ++ t :: back)
  /-- it closes a group, whose opening leaves the queue -/
  | closes (front : List Occurrence) {back : List Occurrence} (place : Nat) (ht : t.1 = .closing) :
      TakesIn t (front ++ (.opening, place) :: back) (front ++ back)

section Step

variable {r next : Tracking} {t : Occurrence}

theorem isOperand_of_mem_waiting (hs : Reorder.Stacked r.tokens.waiting) :
    ∀ u ∈ r.waiting, u.1.isOperand = false := by
  intro u hu
  rcases hs u.1 (List.mem_map_of_mem hu) with hopening | ⟨op, hop⟩
  · rw [hopening]
    rfl
  · rw [hop]
    rfl

theorem stacked_of_step (hs : Reorder.Stacked r.tokens.waiting) (h : r.step t = .ok next) :
    Reorder.Stacked next.tokens.waiting := by
  have htokens : r.tokens.step t.1 = .ok next.tokens := by
    rw [← map_step, h]
    rfl
  exact hs.step htokens

theorem takesIn_of_step (hs : Reorder.Stacked r.tokens.waiting) (h : r.step t = .ok next) :
    TakesIn t r.queue next.queue := by
  have hwaiting := isOperand_of_mem_waiting hs
  obtain ⟨output, waiting⟩ := r
  obtain ⟨token, place⟩ := t
  cases token with
  | operand text =>
      cases h
      have htakes : TakesIn (.operand text, place) (output.reverse ++ waiting)
          (output.reverse ++ (.operand text, place) :: waiting) := .enters _ hwaiting
      simpa [queue] using htakes
  | operator op =>
      obtain ⟨released, kept, rfl, rfl⟩ := pushOperator_spec h
      have hkept : ∀ u ∈ kept, u.1.isOperand = false :=
        fun u hu => hwaiting u (List.mem_append_right _ hu)
      have htakes : TakesIn (.operator op, place) (output.reverse ++ released ++ kept)
          (output.reverse ++ released ++ (.operator op, place) :: kept) := .enters _ hkept
      simpa [queue] using htakes
  | opening =>
      cases h
      exact .enters output.reverse hwaiting
  | closing =>
      obtain ⟨released, other, outer, rfl, rfl⟩ := closeGroup_spec h
      have htakes : TakesIn (.closing, place)
          (output.reverse ++ released ++ (.opening, other) :: outer)
          (output.reverse ++ released ++ outer) := .closes _ other rfl
      simpa [queue] using htakes

end Step

/-! ## What the queue keeps -/

/-- A pair in a list with one more member at its end is in the list itself, or the new member is its
second one. -/
theorem sublist_or_of_sublist_concat {α : Type} {x y z : α} {l : List α}
    (h : [x, y].Sublist (l ++ [z])) : [x, y].Sublist l ∨ x ∈ l ∧ y = z := by
  obtain ⟨first, last, hpair, hfirst, hlast⟩ := List.sublist_append_iff.1 h
  rcases List.sublist_singleton.1 hlast with rfl | rfl
  · rw [List.append_nil] at hpair
    exact Or.inl (hpair ▸ hfirst)
  · have hconcat : [x] ++ [y] = first ++ [z] := hpair
    obtain ⟨rfl, hy⟩ := List.append_inj' hconcat rfl
    exact Or.inr ⟨List.singleton_sublist.1 hfirst, by simpa using hy⟩

structure Keeps (taken queue : List Occurrence) : Prop where
  perm : (queue.filter fun t => !isParenthesis t.1).Perm
    (taken.filter fun t => !isParenthesis t.1)
  operands : queue.filter (·.1.isOperand) = taken.filter (·.1.isOperand)
  /-- no operator stands before an operand that it stood behind -/
  order : ∀ text i op j, [(.operand text, i), (.operator op, j)].Sublist taken →
    [(.operand text, i), (.operator op, j)].Sublist queue

namespace Keeps

variable {taken queue front back : List Occurrence} {t : Occurrence}

theorem nil : Keeps [] [] := ⟨.refl _, rfl, fun _ _ _ _ h => h⟩

theorem mem_iff (h : Keeps taken queue) (ht : t.1.isOperand = true) : t ∈ queue ↔ t ∈ taken := by
  have hmem : t ∈ queue.filter (·.1.isOperand) ↔ t ∈ taken.filter (·.1.isOperand) := by
    rw [h.operands]
  simpa [List.mem_filter, ht] using hmem

theorem enters (h : Keeps taken (front ++ back)) (hback : ∀ u ∈ back, u.1.isOperand = false) :
    Keeps (taken ++ [t]) (front ++ t :: back) where
  perm := by
    have hqueue : (front ++ t :: back).Perm ([t] ++ (front ++ back)) := List.perm_middle
    have htaken : ([t] ++ taken).Perm (taken ++ [t]) := List.perm_append_comm
    refine (hqueue.filter _).trans (List.Perm.trans ?_ (htaken.filter _))
    rw [List.filter_append [t] (front ++ back), List.filter_append [t] taken]
    exact h.perm.append_left _
  operands := by
    have hnone : back.filter (·.1.isOperand) = [] := by
      simpa [List.filter_eq_nil_iff] using hback
    have hoperands := h.operands
    rw [List.filter_append, hnone, List.append_nil] at hoperands
    rw [← List.singleton_append, List.filter_append, List.filter_append, hnone, hoperands,
      List.append_nil, List.filter_append]
  order := by
    intro text i op j hpair
    rcases sublist_or_of_sublist_concat hpair with hold | ⟨hmem, rfl⟩
    · exact (h.order text i op j hold).trans ((List.sublist_cons_self t back).append_left front)
    · -- the operand has come out, so it is in front of the operator that enters
      have hfront : (.operand text, i) ∈ front := by
        rcases List.mem_append.1 ((h.mem_iff rfl).2 hmem) with hfront | hlater
        · exact hfront
        · have hkind := hback _ hlater
          contradiction
      exact (List.singleton_sublist.2 hfront).append (List.singleton_sublist.2 List.mem_cons_self)

theorem closes {place : Nat} (h : Keeps taken (front ++ (.opening, place) :: back))
    (ht : t.1 = .closing) : Keeps (taken ++ [t]) (front ++ back) := by
  have hqueue : (front ++ (.opening, place) :: back).filter (fun u => !isParenthesis u.1) =
      (front ++ back).filter fun u => !isParenthesis u.1 := by
    simp [List.filter_append, isParenthesis]
  refine ⟨?_, ?_, ?_⟩
  · have hperm := h.perm
    rw [hqueue] at hperm
    simpa [List.filter_append, ht, isParenthesis] using hperm
  · have hoperands := h.operands
    simpa [List.filter_append, ht, Token.isOperand] using hoperands
  · intro text i op j hpair
    rcases sublist_or_of_sublist_concat hpair with hold | ⟨-, rfl⟩
    · have hfiltered := (h.order text i op j hold).filter fun u => !isParenthesis u.1
      rw [hqueue] at hfiltered
      exact hfiltered.trans List.filter_sublist
    · contradiction

theorem takesIn {next : List Occurrence} (h : Keeps taken queue) (ht : TakesIn t queue next) :
    Keeps (taken ++ [t]) next := by
  cases ht with
  | enters front hback => exact h.enters hback
  | closes front place ht => exact h.closes ht

end Keeps

theorem keeps_of_run {r last : Tracking} {taken ts : List Occurrence}
    (hs : Reorder.Stacked r.tokens.waiting) (h : Keeps taken r.queue) (hrun : r.run ts = .ok last) :
    Keeps (taken ++ ts) last.queue := by
  induction ts generalizing r taken with
  | nil =>
      cases hrun
      simpa using h
  | cons t ts ih =>
      rw [run_cons] at hrun
      obtain ⟨next, hstep, hrest⟩ := bind_eq_ok_iff.1 hrun
      have hkeeps := ih (stacked_of_step hs hstep) (h.takesIn (takesIn_of_step hs hstep)) hrest
      simpa using hkeeps

theorem keeps_of_ofInfix {ts out : List Occurrence} (h : ofInfix ts = .ok out) : Keeps ts out := by
  obtain ⟨last, hrun, hfinish⟩ := bind_eq_ok_iff.1 h
  obtain ⟨reversed, hflush, rfl⟩ := map_eq_ok_iff.1 hfinish
  have hstacked : Reorder.Stacked start.tokens.waiting := by
    simp [start, tokens, Reorder.Stacked]
  have hstart : Keeps [] start.queue := .nil
  have hkeeps := keeps_of_run hstacked hstart hrun
  rw [List.nil_append] at hkeeps
  rwa [eq_of_flush hflush, List.reverse_append, List.reverse_reverse]

end Tracking

/-- The occurrences that come out are those of the tokens that come out. -/
theorem exists_tracking_of_ofInfix {ts out : List Token} (h : ofInfix ts = .ok out) :
    ∃ moved, Tracking.ofInfix ts.zipIdx = .ok moved ∧ moved.map Prod.fst = out := by
  have hmap := Tracking.map_ofInfix ts.zipIdx
  rw [List.zipIdx_map_fst, h] at hmap
  exact map_eq_ok_iff.1 hmap

/-- Operands come out in the order in which they were taken in. -/
theorem filter_isOperand_of_ofInfix {ts out : List Token} (h : ofInfix ts = .ok out) :
    out.filter Token.isOperand = ts.filter Token.isOperand := by
  obtain ⟨moved, hmoved, rfl⟩ := exists_tracking_of_ofInfix h
  have hkeeps := Tracking.keeps_of_ofInfix hmoved
  calc
    (moved.map Prod.fst).filter Token.isOperand
        = (moved.filter (·.1.isOperand)).map Prod.fst := List.filter_map
    _ = (ts.zipIdx.filter (·.1.isOperand)).map Prod.fst := by rw [hkeeps.operands]
    _ = (ts.zipIdx.map Prod.fst).filter Token.isOperand := by
        rw [List.filter_map]
        rfl
    _ = ts.filter Token.isOperand := by rw [List.zipIdx_map_fst]

/-- Two members of a list are a pair in it, in their order. -/
theorem pair_sublist_of_getElem? {α : Type} {l : List α} {x y : α} {i j : Nat} (hij : i < j)
    (hx : l[i]? = some x) (hy : l[j]? = some y) : [x, y].Sublist l := by
  have hfirst : x ∈ l.take j := List.mem_of_getElem? (by rw [List.getElem?_take_of_lt hij, hx])
  have hsecond : y ∈ l.drop j := List.mem_of_getElem? (by rw [List.getElem?_drop, Nat.add_zero, hy])
  have hpair : [x, y].Sublist (l.take j ++ l.drop j) :=
    (List.singleton_sublist.2 hfirst).append (List.singleton_sublist.2 hsecond)
  rwa [List.take_append_drop] at hpair

/-- What comes out are the operands and the operators that went in. The operands keep their order.
Followed from its place in the list, no operator comes out before an operand that it stood
behind. -/
theorem ofInfix_order {ts out : List Token} (h : ofInfix ts = .ok out) :
    (∀ t ∈ out, isParenthesis t = false) ∧ out.Perm (proper ts) ∧
      out.filter Token.isOperand = ts.filter Token.isOperand ∧
      ∃ moved, Tracking.ofInfix ts.zipIdx = .ok moved ∧ moved.map Prod.fst = out ∧
        moved.Perm (ts.zipIdx.filter fun t => !isParenthesis t.1) ∧
        ∀ i j text op, i < j → ts[i]? = some (.operand text) → ts[j]? = some (.operator op) →
          [(.operand text, i), (.operator op, j)].Sublist moved := by
  have hperm := perm_of_ofInfix h
  have hproper : ∀ t ∈ out, isParenthesis t = false := by
    intro t ht
    have hmem := List.mem_filter.1 (hperm.mem_iff.1 ht)
    simpa using hmem.2
  obtain ⟨moved, hmoved, hout⟩ := exists_tracking_of_ofInfix h
  have hkeeps := Tracking.keeps_of_ofInfix hmoved
  refine ⟨hproper, hperm, filter_isOperand_of_ofInfix h, moved, hmoved, hout, ?_, ?_⟩
  · have hall : moved.filter (fun t => !isParenthesis t.1) = moved := by
      rw [List.filter_eq_self]
      intro t ht
      simp [hproper t.1 (hout ▸ List.mem_map_of_mem ht)]
    have hmovedPerm := hkeeps.perm
    rwa [hall] at hmovedPerm
  · intro i j text op hij hi hj
    refine hkeeps.order text i op j (pair_sublist_of_getElem? hij ?_ ?_)
    · simp [List.getElem?_zipIdx, hi]
    · simp [List.getElem?_zipIdx, hj]

/-- Of two differences in `- ( 1 - ) 2`, the first comes out last. -/
theorem ofInfix_order_of_two_differences :
    let ts : List Token :=
      [.operator .subtract, .opening, .operand "1", .operator .subtract, .closing, .operand "2"]
    ofInfix ts =
        .ok [.operand "1", .operator .subtract, .operand "2", .operator .subtract] ∧
      Tracking.ofInfix ts.zipIdx =
        .ok [(.operand "1", 2), (.operator .subtract, 3), (.operand "2", 5),
          (.operator .subtract, 0)] ∧
      [(Token.operand "1", 2), (.operator .subtract, 3)].Sublist
        [(.operand "1", 2), (.operator .subtract, 3), (.operand "2", 5),
          (.operator .subtract, 0)] := by
  intro ts
  have hout : ofInfix ts =
      .ok [.operand "1", .operator .subtract, .operand "2", .operator .subtract] := by rfl
  have hmoved : Tracking.ofInfix ts.zipIdx =
      .ok [(.operand "1", 2), (.operator .subtract, 3), (.operand "2", 5),
        (.operator .subtract, 0)] := by rfl
  obtain ⟨-, -, -, moved, hmoved', -, -, horder⟩ := ofInfix_order hout
  rw [hmoved] at hmoved'
  cases hmoved'
  exact ⟨hout, hmoved, horder 2 3 "1" .subtract (by decide) rfl rfl⟩

end ArithTree.Postfix
