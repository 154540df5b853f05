import ArithTree.Proofs.Expression.Acceptance
import ArithTree.Workbench.Shelf

/-!
# Expressions on a shelf stay consistent

An expression is consistent if it is empty or its tree and its line are those of its text. A command
puts an empty expression, a newly parsed one or one from the shelf into a slot, or leaves the shelf
as it was, so every run from an empty shelf leads to consistent expressions.
-/

namespace ArithTree

namespace Expression

/-- The parts fit each other: there is nothing in any of them, or a parse of the text gives them. -/
def Consistent (e : Expression) : Prop := e = empty ∨ parse e.source = .ok e

theorem consistent_of_parse {source : String} {e : Expression} (h : parse source = .ok e) :
    e.Consistent := by
  obtain ⟨ts, root, -, -, rfl⟩ := parse_eq_ok_iff.1 h
  exact Or.inr h

theorem Consistent.fields {e : Expression} (h : e.Consistent) :
    (e.root = none ∧ e.source = "" ∧ e.line = "") ∨
      ∃ ts root, Postfix.ofText e.source = .ok ts ∧ Postfix.build ts = .ok root ∧
        Postfix.lineOfText e.source = .ok e.line ∧ e.root = some root := by
  rcases h with rfl | h
  · exact Or.inl ⟨rfl, rfl, rfl⟩
  · obtain ⟨ts, root, htext, hbuild, he⟩ := parse_eq_ok_iff.1 h
    have hline : Postfix.lineOfText e.source = .ok (Token.line ts) := by
      rw [Postfix.lineOfText, htext]
      rfl
    rw [he] at hline htext ⊢
    exact Or.inr ⟨ts, root, htext, hbuild, hline, rfl⟩

/-- Only the empty expression is without a tree. -/
theorem Consistent.evaluate_eq_error_iff {e : Expression} (h : e.Consistent) {failure : Failure} :
    e.evaluate = .error failure ↔ e = empty ∧ failure = .bare .uninitializedTree := by
  rcases h with rfl | h
  · simp [evaluate, empty, eq_comm]
  · obtain ⟨ts, root, -, -, he⟩ := parse_eq_ok_iff.1 h
    rw [he]
    simp [evaluate, empty]

theorem copy_eq (e : Expression) : e.copy = e := by
  obtain ⟨root, source, line⟩ := e
  cases root with
  | none => rfl
  | some root => rw [copy, Option.map_some, Tree.copy_eq]

end Expression

namespace Shelf

/-! ## One command -/

/-- What a shelf can be like after a command at a slot: as before, or with another expression in
this slot, which is empty, newly parsed or one that the shelf has held before. -/
inductive Follows (shelf : Shelf) (slot : Nat) : Shelf → Prop where
  | same : Follows shelf slot shelf
  | cleared : Follows shelf slot (shelf.set slot .empty)
  | parsed {source : String} {e : Expression} (h : Expression.parse source = .ok e) :
      Follows shelf slot (shelf.set slot e)
  | copied {e : Expression} (h : e ∈ shelf) : Follows shelf slot (shelf.set slot e)

section Slot

variable {shelf : Shelf} {slot : Nat} {e : Expression}

theorem set_of_getElem? (h : shelf[slot]? = some e) : shelf.set slot e = shelf := by
  obtain ⟨hslot, rfl⟩ := List.getElem?_eq_some_iff.1 h
  exact List.set_getElem_self hslot

theorem obey_put (h : shelf[slot]? = some e) (source : String) :
    shelf.obey slot (.put source) = match Expression.parse source with
      | .ok next => shelf.place slot next
      | .error failure => (shelf, .failed failure) := by
  rw [obey, h]
  rfl

/-- Nothing of an expression is left when it is given another text, and nothing of it is lost when
this text cannot be parsed. -/
theorem obey_rebind (h : shelf[slot]? = some e) (source : String) :
    shelf.obey slot (.rebind source) = shelf.obey slot (.put source) := by
  rw [obey_put h]
  cases hparse : Expression.parse source with
  | error failure =>
      simp only [obey, h, obeyAt, Expression.rebind_of_error hparse, set_of_getElem? h]
  | ok next => simp only [obey, h, obeyAt, Expression.rebind_of_ok hparse]

theorem follows_put (h : shelf[slot]? = some e) (source : String) :
    Follows shelf slot (shelf.obey slot (.put source)).1 := by
  rw [obey_put h]
  cases hparse : Expression.parse source with
  | error failure => exact .same
  | ok next => exact .parsed hparse

theorem follows_clone (h : shelf[slot]? = some e) (other : Nat) :
    Follows shelf slot (shelf.obey slot (.clone other)).1 := by
  cases hother : shelf[other]? with
  | none =>
      simp only [obey, h, obeyAt, hother]
      exact .same
  | some o =>
      simp only [obey, h, obeyAt, hother, Expression.copy_eq]
      exact .copied (List.mem_of_getElem? hother)

end Slot

theorem follows_obey (shelf : Shelf) (slot : Nat) (command : Command) :
    Follows shelf slot (shelf.obey slot command).1 := by
  cases hslot : shelf[slot]? with
  | none =>
      simp only [obey, hslot]
      exact .same
  | some e =>
      cases command with
      | clear =>
          simp only [obey, hslot]
          exact .cleared
      | put source => exact follows_put hslot source
      | rebind source =>
          rw [obey_rebind hslot]
          exact follows_put hslot source
      | clone other => exact follows_clone hslot other
      | compare other =>
          simp only [obey, hslot, obeyAt]
          split <;> exact .same
      | evaluate =>
          simp only [obey, hslot, obeyAt]
          split <;> exact .same
      | report | line | describe =>
          simp only [obey, hslot]
          exact .same

theorem Follows.consistent {shelf next : Shelf} {slot : Nat} (hnext : Follows shelf slot next)
    (h : ∀ e ∈ shelf, e.Consistent) : ∀ e ∈ next, e.Consistent := by
  have hset : ∀ new : Expression, new.Consistent → ∀ e ∈ shelf.set slot new, e.Consistent := by
    intro new hnew e he
    rcases List.mem_or_eq_of_mem_set he with hold | rfl
    · exact h e hold
    · exact hnew
  cases hnext with
  | same => exact h
  | cleared => exact hset _ (Or.inl rfl)
  | parsed hparse => exact hset _ (Expression.consistent_of_parse hparse)
  | copied hmem => exact hset _ (h _ hmem)

/-! ## Many commands -/

def run (shelf : Shelf) : List (Nat × Command) → Shelf
  | [] => shelf
  | (slot, command) :: rest => run (shelf.obey slot command).1 rest

theorem consistent_run {shelf : Shelf} (h : ∀ e ∈ shelf, e.Consistent)
    (steps : List (Nat × Command)) : ∀ e ∈ shelf.run steps, e.Consistent := by
  induction steps generalizing shelf with
  | nil => exact h
  | cons step rest ih =>
      obtain ⟨slot, command⟩ := step
      exact ih ((shelf.follows_obey slot command).consistent h)

theorem consistent_run_empty (slots : Nat) (steps : List (Nat × Command)) :
    ∀ e ∈ (empty slots).run steps, e.Consistent := by
  refine consistent_run (fun e he => ?_) steps
  exact Or.inl (List.eq_of_mem_replicate he)

/-- Whatever is done to a shelf that was empty, each of its expressions is empty in all parts or has
the line and the tree of its text, and those that are empty are those that have no value. Another
text is given to an expression as if the slot had held none: if it cannot be parsed nothing changes,
and otherwise the new expression takes the place of the old one. -/
theorem consistent_after_run (slots : Nat) (steps : List (Nat × Command)) :
    let shelf := (empty slots).run steps
    (∀ e ∈ shelf,
      ((e.root = none ∧ e.source = "" ∧ e.line = "") ∨
        ∃ ts root, Postfix.ofText e.source = .ok ts ∧ Postfix.build ts = .ok root ∧
          Postfix.lineOfText e.source = .ok e.line ∧ e.root = some root) ∧
      ∀ failure, e.evaluate = .error failure ↔ e = .empty ∧ failure = .bare .uninitializedTree) ∧
    ∀ slot e, shelf[slot]? = some e → ∀ source,
      shelf.obey slot (.rebind source) = shelf.obey slot (.put source) ∧
      (∀ failure, Expression.parse source = .error failure →
        shelf.obey slot (.rebind source) = (shelf, .failed failure)) ∧
      ∀ next, Expression.parse source = .ok next →
        shelf.obey slot (.rebind source) = shelf.place slot next := by
  intro shelf
  constructor
  · intro e he
    have hconsistent := consistent_run_empty slots steps e he
    exact ⟨hconsistent.fields, fun failure => hconsistent.evaluate_eq_error_iff⟩
  · intro slot e hslot source
    have hput := obey_rebind hslot source
    refine ⟨hput, fun failure hparse => ?_, fun next hparse => ?_⟩
    · rw [hput, obey_put hslot, hparse]
    · rw [hput, obey_put hslot, hparse]

/-- A copy of the expression `1 + 2` is still there after an attempt to give it the text `1 +`. -/
theorem consistent_after_failed_rebind :
    let shelf := (empty 2).run [(0, .put "1 + 2"), (1, .clone 0)]
    ∃ e, shelf[1]? = some e ∧ e.source = "1 + 2" ∧ e.line = "1 2 +" ∧
      shelf.obey 1 (.rebind "1 +") =
        (shelf, .failed (.whileBuilding "1 +" .invalidExpression)) := by
  intro shelf
  have htext : Postfix.ofText "1 + 2" = .ok [.operand "1", .operand "2", .operator .add] := by rfl
  obtain ⟨root, hroot⟩ : ∃ root,
      Postfix.build [.operand "1", .operand "2", .operator .add] = .ok root :=
    ⟨_, Postfix.build_eq_ok_iff.2 rfl⟩
  have hparse : Expression.parse "1 + 2" = .ok ⟨some root, "1 + 2", "1 2 +"⟩ :=
    Expression.parse_eq_ok_iff.2 ⟨_, root, htext, hroot, rfl⟩
  have hslot : shelf[1]? = some ⟨some root, "1 + 2", "1 2 +"⟩ := by
    simp [shelf, run, obey, obeyAt, empty, place, hparse, Expression.copy_eq]
  refine ⟨_, hslot, rfl, rfl, ?_⟩
  obtain ⟨-, hrebind⟩ := consistent_after_run 2 [(0, .put "1 + 2"), (1, .clone 0)]
  exact (hrebind 1 _ hslot "1 +").2.1 _ rfl

end Shelf

end ArithTree
