import ArithTree.Proofs.Scaffold.Standing
import ArithTree.Scaffold.Assembly

/-!
# The tree that a scaffold is taken apart into

If a tree stands on a scaffold then every place bears a tree, and at any time the finished trees
that wait are those of the finished places whose parents are not finished. If some operation has a
free slot there is no tree.
-/

namespace ArithTree

open Postfix

variable {α : Type}

namespace Scaffold

theorem Bears.unique {s : Scaffold α} {n : Nat} {tree other : Tree α} (h : s.Bears n tree)
    (hother : s.Bears n other) : tree = other := by
  induction h generalizing other with
  | operand h =>
      cases hother with
      | operand h' =>
          rw [h] at h'
          cases h'
          rfl
      | operation h' _ _ =>
          rw [h] at h'
          cases h'
  | operation h hl hr ihl ihr =>
      cases hother with
      | operand h' =>
          rw [h] at h'
          cases h'
      | operation h' hl' hr' =>
          rw [h] at h'
          cases h'
          rw [ihl hl', ihr hr']

/-- If the root bears a tree, so does every place. -/
theorem Linked.exists_bears {s : Scaffold α} (hs : s.Linked) {tree : Tree α}
    (hroot : s.Bears 0 tree) {n : Nat} {place : Place α} (h : s.places[n]? = some place) :
    ∃ subtree, s.Bears n subtree := by
  induction n using Nat.strongRecOn generalizing place with
  | ind n ih =>
      rcases hs.up h with ⟨rfl, _⟩ | ⟨parent, above, _, hlt, habove, hholds⟩
      · exact ⟨tree, hroot⟩
      · obtain ⟨whole, hwhole⟩ := ih parent hlt habove
        cases hwhole with
        | operand h' =>
            rw [habove] at h'
            cases h'
            exact (Place.not_holds_empty _ _ _ hholds).elim
        | operation h' hl hr =>
            rw [habove] at h'
            cases h'
            rcases hholds with hright | hleft
            · cases hright
              exact ⟨_, hr⟩
            · cases hleft
              exact ⟨_, hl⟩

end Scaffold

namespace Finished

theorem take?_of_waiting {finished : Finished α} {n : Nat} {tree : Tree α}
    (h : finished[n]? = some (some tree)) :
    finished.take? (some n) = some (tree, finished.setIfInBounds n none) := by
  simp [take?, h]

theorem finish?_of_isOpen (finished : Finished α) (number : Nat) {place : Place α}
    (hopen : place.IsOpen) : finished.finish? number place = none := by
  obtain ⟨⟨op, hop⟩, hincomplete⟩ := hopen
  obtain ⟨content, parent, left, right⟩ := place
  cases left with
  | none => simp_all [finish?, take?]
  | some l =>
      cases right with
      | none => simp_all [finish?, take?]
      | some r => simp [Place.isComplete] at hincomplete

end Finished

namespace Scaffold

/-! ## What waits -/

/-- The places from `count` on are finished: each has its tree waiting unless its parent, being
finished itself, has taken it. -/
structure Waits (s : Scaffold α) (count : Nat) (finished : Finished α) : Prop where
  size : finished.size = s.places.size
  waiting : ∀ {n : Nat} {place : Place α} {tree : Tree α}, s.places[n]? = some place →
    s.Bears n tree → count ≤ n → (∀ parent, place.parent = some parent → parent < count) →
    finished[n]? = some (some tree)

theorem waits_initial (s : Scaffold α) :
    s.Waits s.places.size (.replicate s.places.size none) := by
  refine ⟨Array.size_replicate, ?_⟩
  intro n place tree h _ hle _
  have hlt := lt_size_of_getElem? h
  omega

/-- When a place comes to be finished, the trees it holds are there: nobody else can have taken
them. -/
theorem Waits.waiting_child {s : Scaffold α} (hs : s.Linked) {number child : Nat}
    {finished : Finished α} (hwaits : s.Waits (number + 1) finished) {place : Place α}
    {tree : Tree α} (hplace : s.places[number]? = some place) (hholds : place.Holds child)
    (hbears : s.Bears child tree) : finished[child]? = some (some tree) := by
  obtain ⟨below, hbelow, hparent⟩ := hs.down hplace hholds
  refine hwaits.waiting hbelow hbears (hs.parent_lt hbelow hparent) ?_
  intro p hp
  rw [hparent] at hp
  cases hp
  omega

/-- One more place is finished: what it holds is taken, and its own tree waits. -/
theorem Waits.finish {s : Scaffold α} (hs : s.Linked) {number : Nat} {finished : Finished α}
    (hwaits : s.Waits (number + 1) finished) {place : Place α} {tree : Tree α}
    (hplace : s.places[number]? = some place) (hbears : s.Bears number tree) :
    ∃ next, finished.finish? number place = some next ∧ s.Waits number next := by
  have hlt : number < finished.size := by
    rw [hwaits.size]
    exact lt_size_of_getElem? hplace
  cases hbears with
  | operand h =>
      rename_i value parent
      rw [hplace] at h
      cases h
      refine ⟨_, rfl, ?_, ?_⟩
      · rw [Array.size_setIfInBounds, hwaits.size]
      · intro n q u hq hu hle habove
        by_cases hn : n = number
        · subst hn
          rw [hu.unique (.operand hplace), Array.getElem?_setIfInBounds_self_of_lt hlt]
        · rw [Array.getElem?_setIfInBounds_ne (by omega)]
          refine hwaits.waiting hq hu (by omega) ?_
          intro p hp
          have hp' := habove p hp
          omega
  | operation h hl hr =>
      rename_i l r op parent left right
      rw [hplace] at h
      cases h
      have hne : l ≠ r := by
        rintro rfl
        exact hs.once hplace rfl rfl
      have hwaitl := hwaits.waiting_child hs hplace (Or.inr rfl) hl
      have hwaitr := hwaits.waiting_child hs hplace (Or.inl rfl) hr
      have htaker : (finished.setIfInBounds l none)[r]? = some (some right) := by
        rw [Array.getElem?_setIfInBounds_ne hne, hwaitr]
      refine ⟨((finished.setIfInBounds l none).setIfInBounds r none).setIfInBounds number
        (some (.operation op left right)), ?_, ?_, ?_⟩
      · simp [Finished.finish?, Finished.take?_of_waiting hwaitl, Finished.take?_of_waiting htaker]
      · simp only [Array.size_setIfInBounds, hwaits.size]
      · intro n q u hq hu hle habove
        by_cases hn : n = number
        · subst hn
          rw [hu.unique (.operation hplace hl hr), Array.getElem?_setIfInBounds_self_of_lt]
          simpa only [Array.size_setIfInBounds] using hlt
        · -- a tree that waits for a later parent is not one of those just taken
          have htaken {child : Nat}
              (hholds : (⟨.operation op, parent, some l, some r⟩ : Place α).Holds child) :
              child ≠ n := by
            intro hchild
            subst hchild
            obtain ⟨below, hbelow, hparent⟩ := hs.down hplace hholds
            rw [hq] at hbelow
            cases hbelow
            exact Nat.lt_irrefl number (habove number hparent)
          have hnl := htaken (Or.inr rfl)
          have hnr := htaken (Or.inl rfl)
          rw [Array.getElem?_setIfInBounds_ne (by omega), Array.getElem?_setIfInBounds_ne hnr,
            Array.getElem?_setIfInBounds_ne hnl]
          refine hwaits.waiting hq hu (by omega) ?_
          intro p hp
          have hp' := habove p hp
          omega

theorem Waits.finishFirst? {s : Scaffold α} (hs : s.Linked) {tree : Tree α} (hroot : s.Bears 0 tree)
    {count : Nat} {finished : Finished α} (hwaits : s.Waits count finished)
    (hle : count ≤ s.places.size) :
    ∃ final, s.finishFirst? count finished = some final ∧ s.Waits 0 final := by
  induction count generalizing finished with
  | zero => exact ⟨finished, rfl, hwaits⟩
  | succ number ih =>
      have hplace : s.places[number]? = some s.places[number] := Array.getElem?_eq_getElem hle
      obtain ⟨subtree, hbears⟩ := hs.exists_bears hroot hplace
      obtain ⟨next, hnext, hwaits'⟩ := hwaits.finish hs hplace hbears
      obtain ⟨final, hfinal, hwaits''⟩ := ih hwaits' (by omega)
      refine ⟨final, ?_, hwaits''⟩
      simp [Scaffold.finishFirst?, hplace, hnext, hfinal]

theorem toTree?_of_bears {s : Scaffold α} (hs : s.Linked) {tree : Tree α} (hroot : s.Bears 0 tree) :
    s.toTree? = some tree := by
  obtain ⟨final, hfinal, hwaits⟩ := s.waits_initial.finishFirst? hs hroot (Nat.le_refl _)
  have hpos : 0 < s.places.size := by
    cases hroot with
    | operand h => exact lt_size_of_getElem? h
    | operation h _ _ => exact lt_size_of_getElem? h
  have hplace : s.places[0]? = some s.places[0] := Array.getElem?_eq_getElem hpos
  have hwait : final[0]? = some (some tree) := by
    refine hwaits.waiting hplace hroot (Nat.le_refl 0) ?_
    intro parent hparent
    have hlt := hs.parent_lt hplace hparent
    omega
  simp [toTree?, hfinal, Finished.take?_of_waiting hwait]

/-! ## Free slots -/

theorem finishFirst?_of_isOpen {s : Scaffold α} {n : Nat} {place : Place α}
    (h : s.places[n]? = some place) (hopen : place.IsOpen) {count : Nat} (hlt : n < count)
    (finished : Finished α) : s.finishFirst? count finished = none := by
  induction count generalizing finished with
  | zero => omega
  | succ number ih =>
      by_cases hn : n = number
      · subst hn
        simp [finishFirst?, h, Finished.finish?_of_isOpen finished n hopen]
      · cases hplace : s.places[number]? with
        | none => simp [finishFirst?, hplace]
        | some q =>
            cases hnext : finished.finish? number q with
            | none => simp [finishFirst?, hplace, hnext]
            | some next =>
                have hrest := ih (by omega) next
                simp [finishFirst?, hplace, hnext, hrest]

theorem toTree?_of_isOpen {s : Scaffold α} {n : Nat} {place : Place α}
    (h : s.places[n]? = some place) (hopen : place.IsOpen) : s.toTree? = none := by
  simp [toTree?, finishFirst?_of_isOpen h hopen (lt_size_of_getElem? h)]

end Scaffold

/-- What a scaffold is taken apart into is the tree of the reading it stands for. -/
theorem Site.Stands.toTree? {site : Site α} {reading : Reading α} (h : site.Stands reading) :
    site.scaffold.toTree? = reading.tree? := by
  obtain ⟨hlinked, hseeks⟩ := h
  cases reading with
  | awaiting slots =>
      obtain ⟨found, _, hawaits⟩ := hseeks
      obtain ⟨place, hplace, hopen⟩ := hawaits.isOpen
      exact Scaffold.toTree?_of_isOpen hplace hopen
  | complete tree => exact Scaffold.toTree?_of_bears hlinked hseeks.2

end ArithTree
