import ArithTree.Postfix.Build
import ArithTree.Postfix.Grammar
import ArithTree.Proofs.Scaffold.Assembled

/-!
# Building a tree and the postfix machine

The tree that is built from the end of a list on a scaffold is the tree that the machine leaves,
for every list of tokens. A list means something exactly if it is a postfix expression and every
operand can be read, and such a list passes the quick look.
-/

namespace ArithTree.Postfix

variable {α : Type} {read : String → Option α}

/-! ## What has a meaning -/

/-- The tokens that the machine has read, as one expression for each tree on its stack. -/
inductive Joined : Nat → List Token → Prop where
  | nil : Joined 0 []
  | append {n : Nat} {ts us : List Token} (h : Joined n ts) (last : WellFormed us) :
      Joined (n + 1) (ts ++ us)

theorem joined_of_machineRun {ts : List Token} {stack : List (Tree α)}
    (h : machineRun read [] ts = some stack) : Joined stack.length ts := by
  induction ts using List.reverseRecOn generalizing stack with
  | nil =>
      cases h
      exact .nil
  | append_singleton ts t ih =>
      rw [machineRun_append] at h
      cases hrun : machineRun read [] ts with
      | none => simp [hrun] at h
      | some before =>
          have hjoined := ih hrun
          have hstep : machineStep read before t = some stack := by
            simpa only [hrun, Option.bind_some, machineRun_singleton] using h
          cases t with
          | operand text =>
              obtain ⟨value, _, rfl⟩ := Option.map_eq_some_iff.1 hstep
              exact .append hjoined (.operand text)
          | operator op =>
              match before with
              | [] => contradiction
              | [right] => contradiction
              | right :: left :: rest =>
                  cases hstep
                  cases hjoined with
                  | append hleft hr =>
                      cases hleft with
                      | append hrest hl =>
                          have hwhole := Joined.append hrest (.operation op hl hr)
                          simpa only [List.append_assoc, List.length_cons] using hwhole
          | opening => contradiction
          | closing => contradiction

theorem isSome_read_of_machineRun {ts : List Token} {stack next : List (Tree α)}
    (h : machineRun read stack ts = some next) {text : String} (hmem : .operand text ∈ ts) :
    (read text).isSome := by
  obtain ⟨before, after, rfl⟩ := List.append_of_mem hmem
  rw [machineRun_append] at h
  obtain ⟨middle, _, hrest⟩ := Option.bind_eq_some_iff.1 h
  cases hread : read text with
  | none => simp [machineRun, machineStep, hread] at hrest
  | some value => rfl

theorem WellFormed.machineRun {ts : List Token} (h : WellFormed ts)
    (hread : ∀ text, .operand text ∈ ts → (read text).isSome) :
    ∃ tree : Tree α, ∀ stack, machineRun read stack ts = some (tree :: stack) := by
  induction h with
  | operand text =>
      obtain ⟨value, hvalue⟩ := Option.isSome_iff_exists.1 (hread text (List.mem_singleton_self _))
      exact ⟨.operand value, fun stack => by simp [Postfix.machineRun, machineStep, hvalue]⟩
  | @operation ts us op _ _ ihl ihr =>
      obtain ⟨left, hleft⟩ := ihl fun text hmem => hread text (by simp [hmem])
      obtain ⟨right, hright⟩ := ihr fun text hmem => hread text (by simp [hmem])
      refine ⟨.operation op left right, fun stack => ?_⟩
      rw [machineRun_append, machineRun_append, hleft, Option.bind_some, hright, Option.bind_some]
      rfl

/-- A list has a meaning exactly if it is a postfix expression whose operands can be read. -/
theorem isSome_meaning?_iff {ts : List Token} :
    (meaning? read ts).isSome ↔
      WellFormed ts ∧ ∀ text, .operand text ∈ ts → (read text).isSome := by
  constructor
  · intro h
    unfold meaning? at h
    split at h
    · rename_i tree hrun
      refine ⟨?_, fun text => isSome_read_of_machineRun hrun⟩
      have hjoined := joined_of_machineRun hrun
      cases hjoined with
      | append hnil hlast =>
          cases hnil
          exact hlast
    · contradiction
  · rintro ⟨hts, hread⟩
    obtain ⟨tree, htree⟩ := hts.machineRun hread
    simp [meaning?, htree]

theorem isPlausible_of_wellFormed {ts : List Token} (h : WellFormed ts) : isPlausible ts := by
  have hcount : ts.countP (fun t => !t.isOperand) + 1 =
      ts.length - ts.countP (fun t => !t.isOperand) := by
    have hlength := length_eq_countP_isOperand_add ts
    have hoperands := h.countP_isOperand
    omega
  rcases h.ends with ⟨text, rfl⟩ | ⟨first, second, middle, op, rfl⟩
  · rfl
  · cases middle with
    | nil => rfl
    | cons third rest =>
        have hlast : (third :: (rest ++ [Token.operator op])).getLastD third = .operator op := by
          rw [← List.cons_append, List.getLastD_concat]
        show (_ && _ && !(Token.isOperand (List.getLastD (third :: (rest ++ _)) third)) && _) = true
        rw [hlast, Bool.and_eq_true]
        exact ⟨rfl, beq_iff_eq.2 hcount⟩

/-! ## What is built -/

theorem tree_constructBackwards (read : String → Option α) (tokens : List Token) :
    (constructBackwards read tokens).tree =
      ((Reading.awaiting []).run read tokens).bind Reading.tree? := by
  match tokens with
  | [] => rfl
  | [single] =>
      rw [constructBackwards, Reading.run_cons, Reading.step]
      cases single.content? read with
      | none => rfl
      | some content => cases content <;> rfl
  | last :: second :: rest =>
      rw [constructBackwards.eq_def, Reading.run_cons, Reading.step]
      simp only
      cases last.content? read with
      | none => rfl
      | some content =>
          cases content with
          | operand value => rfl
          | operation op =>
              have hstands : (Site.ofRoot (.operation op) : Site α).Stands
                  (.awaiting [.right op]) := Site.stands_ofRoot op
              have hplaced := @Site.Stands.placeAll α read _ _ hstands [] (second :: rest)
              simp only [Option.map_some, Reading.place, Option.bind_some]
              rcases hplaced with ⟨hnone, hsite⟩ | ⟨final, last, hsome, hsite, hlast⟩
              · rw [hnone, hsite]
                rfl
              · rw [hsome, hsite]
                exact hlast.toTree?

/-- The tree that is built is the one that the list means; the quick look changes nothing. -/
theorem tree_constructWith (read : String → Option α) (tokens : List Token) :
    (constructWith read tokens).tree = meaning? read tokens := by
  by_cases h : isPlausible tokens
  · rw [constructWith, if_pos h, tree_constructBackwards, Reading.run_reverse_eq_meaning?]
  · rw [constructWith, if_neg h]
    cases hmeaning : meaning? read tokens with
    | none => rfl
    | some tree =>
        have hsome : (meaning? read tokens).isSome := by rw [hmeaning]; rfl
        exact (h (isPlausible_of_wellFormed (isSome_meaning?_iff.1 hsome).1)).elim

theorem buildWith_eq (read : String → Option α) (tokens : List Token) :
    buildWith read tokens = (meaning? read tokens).elim (.error .invalidExpression) .ok := by
  rw [buildWith, tree_constructWith]
  cases meaning? read tokens <;> rfl

theorem build_eq_ok_iff {tokens : List Token} {tree : Tree Float} :
    build tokens = .ok tree ↔ meaning? Numeral.read? tokens = some tree := by
  rw [build, buildWith_eq_ok_iff, tree_constructWith]

/-- Building a tree of numbers comes to what the machine leaves, and to one error if it leaves
nothing. The quick look stops no list that the machine accepts, and behind a list that passes it
stands the placing of the tokens, which by itself comes to what the machine does. -/
theorem build_eq_machine (tokens : List Token) :
    (build tokens = match meaning? Numeral.read? tokens with
      | some tree => .ok tree
      | none => .error .invalidExpression) ∧
    (isPlausible tokens = false → meaning? Numeral.read? tokens = none) ∧
    (constructBackwards Numeral.read? tokens.reverse).tree = meaning? Numeral.read? tokens := by
  refine ⟨?_, ?_, ?_⟩
  · rw [build, buildWith_eq]
    cases meaning? Numeral.read? tokens <;> rfl
  · intro h
    rw [← tree_constructWith, constructWith, h]
    rfl
  · rw [tree_constructBackwards, Reading.run_reverse_eq_meaning?]

end ArithTree.Postfix
