import ArithTree.Scaffold.Basic

/-!
# The links of a scaffold

Every place but the root is held by its parent in exactly one of two slots, and no slot holds
anything else. Hanging a place into a free slot of an operation keeps these links as they are and
adds one.
-/

namespace ArithTree

variable {α : Type}

namespace Place

def Holds (p : Place α) (child : Nat) : Prop := p.right = some child ∨ p.left = some child

def IsOpen (p : Place α) : Prop := (∃ op, p.content = .operation op) ∧ p.isComplete = false

@[simp] theorem content_fill (p : Place α) (child : Nat) : (p.fill child).content = p.content := by
  unfold fill
  split <;> rfl

@[simp] theorem parent_fill (p : Place α) (child : Nat) : (p.fill child).parent = p.parent := by
  unfold fill
  split <;> rfl

theorem not_holds_empty (content : Content α) (parent : Option Nat) (child : Nat) :
    ¬ (empty content parent).Holds child := by
  simp [Holds, empty]

theorem holds_fill (p : Place α) (child : Nat) : (p.fill child).Holds child := by
  unfold fill
  split
  · exact Or.inl rfl
  · exact Or.inr rfl

theorem holds_fill_iff {p : Place α} (h : p.isComplete = false) (child other : Nat) :
    (p.fill child).Holds other ↔ p.Holds other ∨ other = child := by
  obtain ⟨content, parent, left, right⟩ := p
  cases right with
  | none => simp [fill, Holds, or_comm, eq_comm]
  | some r =>
      cases left with
      | none => simp [fill, Holds, eq_comm]
      | some l => simp [isComplete] at h

end Place

namespace Scaffold

/-! ## Looking up places behind a new one -/

theorem getElem?_hang_new (s : Scaffold α) (parent : Nat) (content : Content α) :
    (s.hang parent content).places[s.places.size]? = some (.empty content (some parent)) := by
  have hsize : (s.places.modify parent fun place => place.fill s.places.size).size =
      s.places.size := Array.size_modify ..
  rw [hang, Array.getElem?_push, hsize, if_pos rfl]

theorem getElem?_hang_parent {s : Scaffold α} {parent : Nat} {place : Place α}
    (h : s.places[parent]? = some place) (content : Content α) :
    (s.hang parent content).places[parent]? = some (place.fill s.places.size) := by
  have hlt : parent < s.places.size := (Array.getElem?_eq_some_iff.1 h).choose
  rw [hang, Array.getElem?_push, Array.size_modify, if_neg (Nat.ne_of_lt hlt),
    Array.getElem?_modify, if_pos rfl, h]
  rfl

theorem getElem?_hang_of_ne {s : Scaffold α} {parent n : Nat} (hne : n ≠ parent)
    (hlt : n < s.places.size) (content : Content α) :
    (s.hang parent content).places[n]? = s.places[n]? := by
  rw [hang, Array.getElem?_push, Array.size_modify, if_neg (Nat.ne_of_lt hlt),
    Array.getElem?_modify, if_neg hne.symm]

theorem lt_size_of_getElem? {s : Scaffold α} {n : Nat} {place : Place α}
    (h : s.places[n]? = some place) : n < s.places.size :=
  (Array.getElem?_eq_some_iff.1 h).choose

/-- A place of the grown scaffold is the new one, the filled one or an old one. -/
theorem getElem?_hang_cases {s : Scaffold α} {parent n : Nat} {place q : Place α}
    {content : Content α} (hplace : s.places[parent]? = some place)
    (h : (s.hang parent content).places[n]? = some q) :
    (n = s.places.size ∧ q = .empty content (some parent)) ∨
      (n = parent ∧ q = place.fill s.places.size) ∨ s.places[n]? = some q := by
  by_cases hnew : n = s.places.size
  · subst hnew
    rw [getElem?_hang_new] at h
    exact Or.inl ⟨rfl, (Option.some.inj h).symm⟩
  · by_cases hparent : n = parent
    · subst hparent
      rw [getElem?_hang_parent hplace] at h
      exact Or.inr (Or.inl ⟨rfl, (Option.some.inj h).symm⟩)
    · have hlt : n < s.places.size := by
        have hsize := lt_size_of_getElem? h
        rw [places_size_hang] at hsize
        omega
      rw [getElem?_hang_of_ne hparent hlt] at h
      exact Or.inr (Or.inr h)

/-- Every place is still there, with its content and its parent, and what was in a slot is in this
slot. -/
def Keeps (s next : Scaffold α) : Prop :=
  ∀ (n : Nat) (place : Place α), s.places[n]? = some place →
    ∃ after : Place α, next.places[n]? = some after ∧ after.content = place.content ∧
      after.parent = place.parent ∧
      (∀ child, place.left = some child → after.left = some child) ∧
      ∀ child, place.right = some child → after.right = some child

/-- Where a slot is free, nothing is lost by hanging a place there. -/
theorem keeps_hang {s : Scaffold α} {parent : Nat} {place : Place α}
    (hplace : s.places[parent]? = some place) (hincomplete : place.isComplete = false)
    (content : Content α) : s.Keeps (s.hang parent content) := by
  intro n q hq
  by_cases hn : n = parent
  · subst hn
    rw [hplace] at hq
    cases hq
    refine ⟨_, getElem?_hang_parent hplace content, ?_⟩
    obtain ⟨c, p, left, right⟩ := place
    -- the slot that is written is the right one if that is free, and then the left one is kept
    cases right with
    | none => simp [Place.fill]
    | some r =>
        cases left with
        | none => simp [Place.fill]
        | some l => contradiction
  · refine ⟨q, ?_, rfl, rfl, fun _ h => h, fun _ h => h⟩
    rw [getElem?_hang_of_ne hn (lt_size_of_getElem? hq), hq]

/-- An old place is still there, with its parent and with all that it held. -/
theorem getElem?_hang_of_some {s : Scaffold α} {parent n : Nat} {place q : Place α}
    (hplace : s.places[parent]? = some place) (hincomplete : place.isComplete = false)
    (h : s.places[n]? = some q) (content : Content α) :
    ∃ q', (s.hang parent content).places[n]? = some q' ∧ q'.parent = q.parent ∧
      ∀ child, q.Holds child → q'.Holds child := by
  obtain ⟨after, hafter, -, hparent, hleft, hright⟩ := keeps_hang hplace hincomplete content n q h
  exact ⟨after, hafter, hparent, fun child => Or.imp (hright child) (hleft child)⟩

/-! ## The invariant -/

/-- The links between the places are those of a tree that is filled right before left. -/
structure Linked (s : Scaffold α) : Prop where
  /-- every place but the root hangs below an earlier place that holds it -/
  up : ∀ {n : Nat} {place : Place α}, s.places[n]? = some place → (n = 0 ∧ place.parent = none) ∨
    ∃ parent above, place.parent = some parent ∧ parent < n ∧
      s.places[parent]? = some above ∧ above.Holds n
  /-- what a slot holds is a place that hangs there -/
  down : ∀ {n child : Nat} {place : Place α}, s.places[n]? = some place → place.Holds child →
    ∃ below, s.places[child]? = some below ∧ below.parent = some n
  /-- no place is held twice -/
  once : ∀ {n child : Nat} {place : Place α}, s.places[n]? = some place →
    place.right = some child → place.left ≠ some child
  right_first : ∀ {n : Nat} {place : Place α}, s.places[n]? = some place →
    place.left.isSome → place.right.isSome

theorem eq_of_getElem?_ofRoot {content : Content α} {n : Nat} {place : Place α}
    (h : (ofRoot content).places[n]? = some place) : n = 0 ∧ place = .empty content none := by
  have hlt : n < 1 := lt_size_of_getElem? h
  have hn : n = 0 := by omega
  subst hn
  exact ⟨rfl, (Option.some.inj h).symm⟩

theorem linked_ofRoot (content : Content α) : (ofRoot content).Linked := by
  refine ⟨?_, ?_, ?_, ?_⟩
  · intro n place h
    obtain ⟨rfl, rfl⟩ := eq_of_getElem?_ofRoot h
    exact Or.inl ⟨rfl, rfl⟩
  · intro n child place h hholds
    obtain ⟨rfl, rfl⟩ := eq_of_getElem?_ofRoot h
    exact (Place.not_holds_empty _ _ _ hholds).elim
  · intro n child place h hright
    obtain ⟨rfl, rfl⟩ := eq_of_getElem?_ofRoot h
    exact (Place.not_holds_empty _ _ _ (Or.inl hright)).elim
  · intro n place h hleft
    obtain ⟨rfl, rfl⟩ := eq_of_getElem?_ofRoot h
    contradiction

/-- A place's parent comes before it. -/
theorem Linked.parent_lt {s : Scaffold α} (hs : s.Linked) {n parent : Nat} {place : Place α}
    (h : s.places[n]? = some place) (hp : place.parent = some parent) : parent < n := by
  rcases hs.up h with ⟨_, hnone⟩ | ⟨other, _, hother, hlt, _⟩
  · rw [hp] at hnone
    contradiction
  · rw [hp] at hother
    cases hother
    exact hlt

theorem Linked.child_lt_size {s : Scaffold α} (hs : s.Linked) {n child : Nat} {place : Place α}
    (h : s.places[n]? = some place) (hc : place.Holds child) : child < s.places.size := by
  obtain ⟨below, hbelow, _⟩ := hs.down h hc
  exact lt_size_of_getElem? hbelow

/-- A place hung into a free slot of an operation is linked like the others. -/
theorem Linked.hang {s : Scaffold α} (hs : s.Linked) {parent : Nat} {place : Place α}
    (hplace : s.places[parent]? = some place) (hopen : place.IsOpen) (content : Content α) :
    (s.hang parent content).Linked := by
  obtain ⟨_, hincomplete⟩ := hopen
  have hkept := @getElem?_hang_of_some α s parent
  refine ⟨?_, ?_, ?_, ?_⟩
  · intro n q h
    -- whether it has been filled or not, an old place hangs where it did
    have hold {q' : Place α} (hq' : s.places[n]? = some q') (heq : q.parent = q'.parent) :
        (n = 0 ∧ q.parent = none) ∨ ∃ p above, q.parent = some p ∧ p < n ∧
          (s.hang parent content).places[p]? = some above ∧ above.Holds n := by
      rw [heq]
      rcases hs.up hq' with hroot | ⟨p, above, hp, hlt, habove, hholds⟩
      · exact Or.inl hroot
      · obtain ⟨above', habove', -, hholds'⟩ := hkept hplace hincomplete habove content
        exact Or.inr ⟨p, above', hp, hlt, habove', hholds' n hholds⟩
    rcases getElem?_hang_cases hplace h with ⟨rfl, rfl⟩ | ⟨rfl, rfl⟩ | h
    · exact Or.inr ⟨parent, _, rfl, lt_size_of_getElem? hplace, getElem?_hang_parent hplace content,
        Place.holds_fill _ _⟩
    · exact hold hplace (Place.parent_fill _ _)
    · exact hold h rfl
  · intro n child q h hholds
    have hold {q' : Place α} (hq' : s.places[n]? = some q') (hc : q'.Holds child) :
        ∃ below, (s.hang parent content).places[child]? = some below ∧ below.parent = some n := by
      obtain ⟨below, hbelow, hparent⟩ := hs.down hq' hc
      obtain ⟨below', hbelow', hparent', -⟩ := hkept hplace hincomplete hbelow content
      exact ⟨below', hbelow', hparent'.trans hparent⟩
    rcases getElem?_hang_cases hplace h with ⟨rfl, rfl⟩ | ⟨rfl, rfl⟩ | h
    · exact (Place.not_holds_empty _ _ _ hholds).elim
    · rcases (Place.holds_fill_iff hincomplete _ _).1 hholds with hc | rfl
      · exact hold hplace hc
      · exact ⟨_, getElem?_hang_new s n content, rfl⟩
    · exact hold h hholds
  · intro n child q h hright
    rcases getElem?_hang_cases hplace h with ⟨rfl, rfl⟩ | ⟨rfl, rfl⟩ | h
    · exact (Place.not_holds_empty _ _ _ (Or.inl hright)).elim
    · -- the other slot, if it is filled at all, holds an older place
      intro hleft
      cases hr : place.right with
      | none =>
          have hfill : (place.fill s.places.size).left = place.left := by simp [Place.fill, hr]
          rw [hfill] at hleft
          have hsome := hs.right_first hplace (by simp [hleft])
          simp [hr] at hsome
      | some r =>
          have hlt := hs.child_lt_size hplace (Or.inl hr)
          simp only [Place.fill, hr, Option.some.injEq] at hright hleft
          omega
    · exact hs.once h hright
  · intro n q h hleft
    rcases getElem?_hang_cases hplace h with ⟨rfl, rfl⟩ | ⟨rfl, rfl⟩ | h
    · contradiction
    · cases hr : place.right <;> simp [Place.fill, hr]
    · exact hs.right_first h hleft

end Scaffold

end ArithTree
