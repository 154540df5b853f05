import ArithTree.Tree.Basic

/-!
# Scaffolds

A scaffold is a tree that is being built from its root. Its places are numbered in the order in
which they were added, so a place comes after its parent. Every operation has two slots, and a
place is added by hanging it into a free slot of an operation, the right one before the left.
-/

namespace ArithTree

variable {α : Type}

inductive Content (α : Type) where
  | operand (value : α)
  | operation (op : Operator)
  deriving DecidableEq, Repr

structure Place (α : Type) where
  content : Content α
  parent : Option Nat
  left : Option Nat
  right : Option Nat
  deriving DecidableEq, Repr

namespace Place

def empty (content : Content α) (parent : Option Nat) : Place α := ⟨content, parent, none, none⟩

def isComplete (p : Place α) : Bool := p.left.isSome && p.right.isSome

/-- Puts a place into the right slot if that is free, otherwise into the left one. -/
def fill (p : Place α) (child : Nat) : Place α :=
  match p.right with
  | none => { p with right := some child }
  | some _ => { p with left := some child }

end Place

structure Scaffold (α : Type) where
  places : Array (Place α)

namespace Scaffold

def ofRoot (content : Content α) : Scaffold α := ⟨#[Place.empty content none]⟩

/-- The nearest place with a free slot, from `cursor` towards the root. A parent comes before its
child, so the climb goes down in number and ends. -/
def openAncestor? (s : Scaffold α) (cursor : Nat) : Option Nat :=
  match s.places[cursor]? with
  | none => none
  | some place =>
      if place.isComplete then
        match place.parent with
        | none => none
        | some parent => if parent < cursor then s.openAncestor? parent else none
      else some cursor
termination_by cursor

theorem openAncestor?_of_open {s : Scaffold α} {n : Nat} {place : Place α}
    (h : s.places[n]? = some place) (hopen : place.isComplete = false) :
    s.openAncestor? n = some n := by
  rw [openAncestor?]
  simp [h, hopen]

theorem openAncestor?_of_root {s : Scaffold α} {n : Nat} {place : Place α}
    (h : s.places[n]? = some place) (hcomplete : place.isComplete = true)
    (hp : place.parent = none) : s.openAncestor? n = none := by
  rw [openAncestor?]
  simp [h, hcomplete, hp]

theorem openAncestor?_of_parent {s : Scaffold α} {n parent : Nat} {place : Place α}
    (h : s.places[n]? = some place) (hcomplete : place.isComplete = true)
    (hp : place.parent = some parent) (hlt : parent < n) :
    s.openAncestor? n = s.openAncestor? parent := by
  rw [openAncestor?]
  simp [h, hcomplete, hp, hlt]

def hang (s : Scaffold α) (parent : Nat) (content : Content α) : Scaffold α :=
  let child := s.places.size
  ⟨(s.places.modify parent fun place => place.fill child).push (.empty content (some parent))⟩

@[simp] theorem places_size_hang (s : Scaffold α) (parent : Nat) (content : Content α) :
    (s.hang parent content).places.size = s.places.size + 1 := by
  simp [hang]

/-- The climb ends at a place that has a free slot. -/
theorem isComplete_of_openAncestor? {s : Scaffold α} {cursor found : Nat}
    (h : s.openAncestor? cursor = some found) :
    ∃ place, s.places[found]? = some place ∧ place.isComplete = false := by
  induction cursor using Nat.strongRecOn with
  | ind cursor ih =>
      rw [openAncestor?] at h
      split at h
      · contradiction
      · rename_i place hplace
        split at h
        · split at h
          · contradiction
          · rename_i parent hparent
            split at h
            · rename_i hlt
              exact ih parent hlt h
            · contradiction
        · rename_i hopen
          cases h
          exact ⟨place, hplace, by simpa using hopen⟩

end Scaffold

end ArithTree
