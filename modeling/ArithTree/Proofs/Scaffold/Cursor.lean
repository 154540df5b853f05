import ArithTree.Proofs.Scaffold.Linked
import ArithTree.Scaffold.Placement
import Mathlib.Logic.Relation

/-!
# The cursor of a site

Whatever tokens have been placed, the operations that have a free slot lie on the way from the
cursor to the root. So the climb from the cursor meets the deepest of them first, and it comes to
the root without meeting one only if every operation is complete. The climb follows the parents
that are on record; that it ends, and never asks for a place that is not there, rests on the links
of the scaffold.
-/

namespace ArithTree

variable {α : Type}

namespace Scaffold

/-! ## The way to the root -/

def HangsFrom (s : Scaffold α) (n parent : Nat) : Prop :=
  ∃ place, s.places[n]? = some place ∧ place.parent = some parent

/-- The way from the place `n` to the root passes `m`: `m` is `n` or one of its ancestors. -/
def Passes (s : Scaffold α) (n m : Nat) : Prop := Relation.ReflTransGen s.HangsFrom n m

def OpenAt (s : Scaffold α) (n : Nat) : Prop := ∃ place, s.places[n]? = some place ∧ place.IsOpen

/-- The operation of this number has a free slot, and so has no other one but its ancestors. -/
structure Deepest (s : Scaffold α) (found : Nat) : Prop where
  isOpen : s.OpenAt found
  passes : ∀ {n : Nat}, s.OpenAt n → s.Passes found n

/-- The climb as the links alone lead it, and what it finds. From a number that no place has there
is no climb, and a climb that would not end is none. -/
inductive Climbs (s : Scaffold α) : Nat → Option Nat → Prop where
  | found {n : Nat} {place : Place α} (h : s.places[n]? = some place)
      (hopen : place.isComplete = false) : Climbs s n (some n)
  | root {n : Nat} {place : Place α} (h : s.places[n]? = some place)
      (hcomplete : place.isComplete = true) (hp : place.parent = none) : Climbs s n none
  | up {n parent : Nat} {place : Place α} {result : Option Nat} (h : s.places[n]? = some place)
      (hcomplete : place.isComplete = true) (hp : place.parent = some parent)
      (rest : Climbs s parent result) : Climbs s n result

def HeldByOperations (s : Scaffold α) : Prop :=
  ∀ (n child : Nat) (place : Place α), s.places[n]? = some place → place.Holds child →
    ∃ op, place.content = .operation op

section Climb

variable {s : Scaffold α} {n m : Nat} {result : Option Nat}

theorem openAncestor?_of_climbs (hs : s.Linked) (h : s.Climbs n result) :
    s.openAncestor? n = result := by
  induction h with
  | found h hopen => exact openAncestor?_of_open h hopen
  | root h hcomplete hp => exact openAncestor?_of_root h hcomplete hp
  | up h hcomplete hp _ ih =>
      rw [openAncestor?_of_parent h hcomplete hp (hs.parent_lt h hp), ih]

/-- A climb that begins at a place ends: it goes down in number, and there is a place at every
number that it comes to. -/
theorem Linked.climbs (hs : s.Linked) {place : Place α} (h : s.places[n]? = some place) :
    s.Climbs n (s.openAncestor? n) := by
  induction n using Nat.strongRecOn generalizing place with
  | ind n ih =>
      cases hcomplete : place.isComplete with
      | false =>
          rw [openAncestor?_of_open h hcomplete]
          exact .found h hcomplete
      | true =>
          rcases hs.up h with ⟨_, hp⟩ | ⟨parent, above, hp, hlt, habove, _⟩
          · rw [openAncestor?_of_root h hcomplete hp]
            exact .root h hcomplete hp
          · rw [openAncestor?_of_parent h hcomplete hp hlt]
            exact .up h hcomplete hp (ih parent hlt habove)

/-- The climb does not pass by an operation with a free slot. -/
theorem Climbs.passes (h : s.Climbs n result) (hopen : s.OpenAt m) (hpasses : s.Passes n m) :
    ∃ found, result = some found ∧ s.Passes found m := by
  obtain ⟨q, hq, -, hincomplete⟩ := hopen
  have hne {n : Nat} {place : Place α} (h : s.places[n]? = some place)
      (hcomplete : place.isComplete = true) : n ≠ m := by
    rintro rfl
    rw [h] at hq
    cases hq
    rw [hcomplete] at hincomplete
    contradiction
  induction h with
  | found h _ => exact ⟨_, rfl, hpasses⟩
  | root h hcomplete hp =>
      rcases hpasses.cases_head with heq | ⟨parent, ⟨place, hplace, hparent⟩, -⟩
      · exact (hne h hcomplete heq).elim
      · rw [h] at hplace
        cases hplace
        rw [hp] at hparent
        contradiction
  | up h hcomplete hp _ ih =>
      rcases hpasses.cases_head with heq | ⟨parent, ⟨place, hplace, hparent⟩, hrest⟩
      · exact (hne h hcomplete heq).elim
      · rw [h] at hplace
        cases hplace
        rw [hp] at hparent
        cases hparent
        exact ih hrest

/-- What the climb from an operation finds is an operation: only operations hold others. -/
theorem Climbs.openAt (hs : s.Linked) (hholder : s.HeldByOperations) {found : Nat}
    (h : s.Climbs n result) (hresult : result = some found) {place : Place α}
    (hplace : s.places[n]? = some place) (hop : ∃ op, place.content = .operation op) :
    s.OpenAt found := by
  induction h generalizing place with
  | found h hopen =>
      cases hresult
      rw [h] at hplace
      cases hplace
      exact ⟨_, h, hop, hopen⟩
  | root => contradiction
  | up h _ hp _ ih =>
      rcases hs.up h with ⟨_, hnone⟩ | ⟨parent, above, hp', _, habove, hholds⟩
      · rw [hp] at hnone
        contradiction
      · rw [hp] at hp'
        cases hp'
        exact ih hresult habove (hholder _ _ above habove hholds)

end Climb

/-! ## What a new place changes -/

section Hang

variable {s : Scaffold α} {found n m : Nat}

theorem OpenAt.keeps_hang (h : s.OpenAt found) (content : Content α) :
    s.Keeps (s.hang found content) := by
  obtain ⟨place, hplace, -, hincomplete⟩ := h
  exact Scaffold.keeps_hang hplace hincomplete content

theorem Passes.hang (h : s.Passes n m) (hfound : s.OpenAt found) (content : Content α) :
    (s.hang found content).Passes n m := by
  refine Relation.ReflTransGen.mono ?_ n m h
  rintro a b ⟨place, hplace, hparent⟩
  obtain ⟨after, hafter, -, hparent', -⟩ := hfound.keeps_hang content a place hplace
  exact ⟨after, hafter, hparent'.trans hparent⟩

/-- A free slot of the grown scaffold is one of the old ones or belongs to a new operation. -/
theorem OpenAt.of_hang {content : Content α} (h : (s.hang found content).OpenAt n)
    (hfound : s.OpenAt found) :
    (n = s.places.size ∧ ∃ op, content = .operation op) ∨ s.OpenAt n := by
  obtain ⟨q, hq, hopen⟩ := h
  obtain ⟨place, hplace, hplaceopen⟩ := hfound
  rcases getElem?_hang_cases hplace hq with ⟨rfl, rfl⟩ | ⟨rfl, rfl⟩ | hold
  · exact Or.inl ⟨rfl, hopen.1⟩
  · exact Or.inr ⟨place, hplace, hplaceopen⟩
  · exact Or.inr ⟨q, hold, hopen⟩

theorem HeldByOperations.hang (hs : s.HeldByOperations) (hfound : s.OpenAt found)
    (content : Content α) : (s.hang found content).HeldByOperations := by
  obtain ⟨place, hplace, hopen⟩ := hfound
  intro n child q hq hholds
  rcases getElem?_hang_cases hplace hq with ⟨rfl, rfl⟩ | ⟨rfl, rfl⟩ | hold
  · exact (Place.not_holds_empty _ _ _ hholds).elim
  · rw [Place.content_fill]
    exact hopen.1
  · exact hs _ _ q hold hholds

end Hang

end Scaffold

/-! ## Placing -/

namespace Site

open Scaffold

/-- What holds of a site as long as tokens are placed. -/
structure Sound (site : Site α) : Prop where
  linked : site.scaffold.Linked
  /-- every parent is an operation -/
  held : site.scaffold.HeldByOperations
  /-- the cursor is an operation -/
  cursor : ∃ place op, site.scaffold.places[site.cursor]? = some place ∧
    place.content = .operation op
  /-- every operation with a free slot is the cursor or one of its ancestors -/
  passes : ∀ {n : Nat}, site.scaffold.OpenAt n → site.scaffold.Passes site.cursor n

theorem sound_ofRoot (op : Operator) : (ofRoot (.operation op) : Site α).Sound := by
  refine ⟨linked_ofRoot _, ?_, ⟨_, op, rfl, rfl⟩, ?_⟩
  · intro n child place h hholds
    obtain ⟨rfl, rfl⟩ := eq_of_getElem?_ofRoot h
    exact (Place.not_holds_empty _ _ _ hholds).elim
  · rintro n ⟨place, h, -⟩
    obtain ⟨rfl, rfl⟩ := eq_of_getElem?_ofRoot h
    exact .refl

section Sound

variable {site : Site α}

theorem Sound.climbs (h : site.Sound) :
    site.scaffold.Climbs site.cursor (site.scaffold.openAncestor? site.cursor) := by
  obtain ⟨place, _, hplace, _⟩ := h.cursor
  exact h.linked.climbs hplace

theorem Sound.openAt (h : site.Sound) {found : Nat}
    (hfound : site.scaffold.openAncestor? site.cursor = some found) :
    site.scaffold.OpenAt found := by
  obtain ⟨place, op, hplace, hop⟩ := h.cursor
  exact h.climbs.openAt h.linked h.held hfound hplace ⟨op, hop⟩

theorem Sound.deepest (h : site.Sound) {found : Nat}
    (hfound : site.scaffold.openAncestor? site.cursor = some found) :
    site.scaffold.Deepest found := by
  refine ⟨h.openAt hfound, fun hopen => ?_⟩
  obtain ⟨other, hother, hpasses⟩ := h.climbs.passes hopen (h.passes hopen)
  rw [hfound] at hother
  cases hother
  exact hpasses

theorem Sound.openAncestor?_eq_none_iff (h : site.Sound) :
    site.scaffold.openAncestor? site.cursor = none ↔ ∀ n, ¬ site.scaffold.OpenAt n := by
  constructor
  · intro hnone n hopen
    obtain ⟨found, hfound, -⟩ := h.climbs.passes hopen (h.passes hopen)
    rw [hnone] at hfound
    contradiction
  · intro hnone
    cases hfound : site.scaffold.openAncestor? site.cursor with
    | none => rfl
    | some found => exact (hnone found (h.openAt hfound)).elim

/-- The free slots stay on the way to the root: what was hung from the deepest operation that had
one is the new cursor, or this operation is. -/
theorem passes_hang {found : Nat} (hdeepest : site.scaffold.Deepest found) {content : Content α}
    {n : Nat} (hopen : (site.hang found content).scaffold.OpenAt n) :
    (site.hang found content).scaffold.Passes (site.hang found content).cursor n := by
  have hpasses {m : Nat} (hm : site.scaffold.OpenAt m) :
      (site.scaffold.hang found content).Passes found m :=
    (hdeepest.passes hm).hang hdeepest.isOpen content
  cases content with
  | operand value =>
      rcases hopen.of_hang hdeepest.isOpen with ⟨-, op, hop⟩ | hold
      · contradiction
      · exact hpasses hold
  | operation op =>
      rcases hopen.of_hang hdeepest.isOpen with ⟨rfl, -⟩ | hold
      · exact .refl
      · exact .head ⟨_, getElem?_hang_new site.scaffold found _, rfl⟩ (hpasses hold)

/-- Hanging something from the operation that the climb finds keeps the site sound. -/
theorem Sound.hang (h : site.Sound) {found : Nat}
    (hfound : site.scaffold.openAncestor? site.cursor = some found) (content : Content α) :
    (site.hang found content).Sound := by
  have hdeepest := h.deepest hfound
  obtain ⟨place, hplace, hopen⟩ := hdeepest.isOpen
  refine ⟨h.linked.hang hplace hopen content, h.held.hang hdeepest.isOpen content, ?_,
    passes_hang hdeepest⟩
  cases content with
  | operand value =>
      obtain ⟨op, hop⟩ := hopen.1
      have hfilled := getElem?_hang_parent hplace (.operand value)
      exact ⟨_, op, hfilled, (Place.content_fill place _).trans hop⟩
  | operation op => exact ⟨_, op, getElem?_hang_new site.scaffold found _, rfl⟩

end Sound

variable {read : String → Option α}

theorem place?_eq_some_iff {site next : Site α} {t : Token} {placement : Placement} :
    site.place? read t = some (next, placement) ↔
      ∃ found content, site.scaffold.openAncestor? site.cursor = some found ∧
        t.content? read = some content ∧ next = site.hang found content ∧
        placement = ⟨t, site.scaffold.places.size, found⟩ := by
  unfold place?
  cases site.scaffold.openAncestor? site.cursor <;> cases t.content? read <;>
    simp [eq_comm]

theorem Sound.placeAll {site last : Site α} (h : site.Sound) {made : List Placement}
    {tokens : List Token} (hlast : (site.placeAll read made tokens).site = some last) :
    last.Sound := by
  induction tokens generalizing site made with
  | nil =>
      cases hlast
      exact h
  | cons t rest ih =>
      cases hplace : site.place? read t with
      | none =>
          rw [placeAll_of_none hplace] at hlast
          contradiction
      | some pair =>
          obtain ⟨next, placement⟩ := pair
          rw [placeAll_of_some hplace] at hlast
          obtain ⟨found, content, hfound, -, rfl, -⟩ := place?_eq_some_iff.1 hplace
          exact ih (h.hang hfound content) hlast

/-- What is placed behind other tokens is placed at the site that these have led to. -/
theorem site_placeAll_append {site last : Site α} {made : List Placement} {tokens : List Token}
    (hlast : (site.placeAll read made tokens).site = some last) (rest : List Token) :
    ∃ more, site.placeAll read made (tokens ++ rest) = last.placeAll read more rest := by
  induction tokens generalizing site made with
  | nil =>
      cases hlast
      exact ⟨made, rfl⟩
  | cons t tokens ih =>
      cases hplace : site.place? read t with
      | none =>
          rw [placeAll_of_none hplace] at hlast
          contradiction
      | some pair =>
          obtain ⟨next, placement⟩ := pair
          rw [placeAll_of_some hplace] at hlast
          rw [List.cons_append, placeAll_of_some hplace]
          exact ih hlast

/-- Wherever the placing of tokens below an operation has come to, whatever is still to be placed,
the places are linked as those of a tree, the cursor is an operation, and every operation with a
free slot is the cursor or one of its ancestors. So the climb from the cursor ends, and there is a
place wherever it comes to. It finds the deepest operation with a free slot, and what is hung from
that takes no slot that was filled; it finds none exactly if every operation is complete. -/
theorem climb_finds_deepest {op : Operator} {tokens : List Token} {site : Site α}
    (h : ((ofRoot (.operation op)).placeAll read [] tokens).site = some site) :
    let s := site.scaffold
    (∀ rest, ∃ made, (ofRoot (.operation op)).placeAll read [] (tokens ++ rest) =
        site.placeAll read made rest) ∧
      site.Sound ∧
      (∀ result, s.Climbs site.cursor result ↔ s.openAncestor? site.cursor = result) ∧
      (∀ found, s.openAncestor? site.cursor = some found →
        s.Deepest found ∧ ∀ content, s.Keeps (s.hang found content)) ∧
      (s.openAncestor? site.cursor = none ↔ ∀ (n : Nat) (place : Place α) (op : Operator),
        s.places[n]? = some place → place.content = .operation op → place.isComplete = true) := by
  intro s
  have hsound : site.Sound := (sound_ofRoot op).placeAll h
  refine ⟨site_placeAll_append h, hsound, fun result => ⟨openAncestor?_of_climbs hsound.linked, ?_⟩,
    fun found hfound => ?_, ?_⟩
  · rintro rfl
    exact hsound.climbs
  · have hdeepest := hsound.deepest hfound
    exact ⟨hdeepest, hdeepest.isOpen.keeps_hang⟩
  · rw [hsound.openAncestor?_eq_none_iff]
    constructor
    · intro hnone n place op hplace hop
      cases hcomplete : place.isComplete with
      | true => rfl
      | false => exact (hnone n ⟨place, hplace, ⟨op, hop⟩, hcomplete⟩).elim
    · rintro hall n ⟨place, hplace, ⟨op, hop⟩, hincomplete⟩
      rw [hall n place op hplace hop] at hincomplete
      contradiction

/-- When `1 2 +` has been placed below a difference, the cursor is the sum. It is complete, so the
climb goes on to the difference, whose left slot is free. -/
theorem climb_finds_deepest_above_sum :
    let site : Site String :=
      ⟨⟨#[⟨.operation .subtract, none, none, some 1⟩, ⟨.operation .add, some 0, some 3, some 2⟩,
        ⟨.operand "2", some 1, none, none⟩, ⟨.operand "1", some 1, none, none⟩]⟩, 1⟩
    let tokens : List Token := [.operator .add, .operand "2", .operand "1"]
    ((ofRoot (.operation .subtract)).placeAll some [] tokens).site = some site ∧
      site.scaffold.Climbs 1 (some 0) ∧ site.scaffold.Deepest 0 := by
  intro site tokens
  have hplaced : ((ofRoot (.operation .subtract)).placeAll some [] tokens).site = some site := by
    have hsum : (ofRoot (.operation .subtract) : Site String).scaffold.openAncestor? 0 = some 0 :=
      openAncestor?_of_open rfl rfl
    have hright : ((ofRoot (.operation .subtract) : Site String).hang 0
        (.operation .add)).scaffold.openAncestor? 1 = some 1 := openAncestor?_of_open rfl rfl
    have hleft : (((ofRoot (.operation .subtract) : Site String).hang 0 (.operation .add)).hang 1
        (.operand "2")).scaffold.openAncestor? 1 = some 1 := openAncestor?_of_open rfl rfl
    rw [placeAll_of_some (place?_eq_some_iff.2 ⟨0, _, hsum, rfl, rfl, rfl⟩),
      placeAll_of_some (place?_eq_some_iff.2 ⟨1, _, hright, rfl, rfl, rfl⟩),
      placeAll_of_some (place?_eq_some_iff.2 ⟨1, _, hleft, rfl, rfl, rfl⟩), placeAll_nil]
    rfl
  have hfound : site.scaffold.openAncestor? site.cursor = some 0 :=
    (openAncestor?_of_parent rfl rfl rfl (by decide)).trans (openAncestor?_of_open rfl rfl)
  obtain ⟨-, -, hclimbs, hdeepest, -⟩ := climb_finds_deepest hplaced
  exact ⟨hplaced, (hclimbs _).2 hfound, (hdeepest 0 hfound).1⟩

end Site

end ArithTree
