import ArithTree.Proofs.Postfix.Backwards
import ArithTree.Proofs.Scaffold.Linked

/-!
# What stands on a scaffold

The links of a scaffold are read as trees: a place bears a tree if all that hangs from it is
complete, and a place that is still wanting lies in a slot of its parent, which lies in a slot of
the next. So a scaffold in the making stands for a reading from the end, with the slot that the
climb from the cursor finds as the first one.
-/

namespace ArithTree

open Postfix

variable {α : Type}

namespace Scaffold

/-- All that hangs from the place is complete, and makes up the tree. -/
inductive Bears (s : Scaffold α) : Nat → Tree α → Prop where
  | operand {n : Nat} {value : α} {parent : Option Nat}
      (h : s.places[n]? = some ⟨.operand value, parent, none, none⟩) : Bears s n (.operand value)
  | operation {n l r : Nat} {op : Operator} {parent : Option Nat} {left right : Tree α}
      (h : s.places[n]? = some ⟨.operation op, parent, some l, some r⟩)
      (hl : Bears s l left) (hr : Bears s r right) : Bears s n (.operation op left right)

/-- The place lies in the first of the slots, and each slot in the operation of the next. -/
inductive Inside (s : Scaffold α) : Nat → List (Slot α) → Prop where
  | root {place : Place α} (h : s.places[0]? = some place) (hp : place.parent = none) :
      Inside s 0 []
  | right {n p : Nat} {place : Place α} {op : Operator} {parent : Option Nat}
      {slots : List (Slot α)} (h : s.places[n]? = some place) (hp : place.parent = some p)
      (hlt : p < n) (habove : s.places[p]? = some ⟨.operation op, parent, none, some n⟩)
      (outer : Inside s p slots) : Inside s n (.right op :: slots)
  | left {n p r : Nat} {place : Place α} {op : Operator} {parent : Option Nat} {right : Tree α}
      {slots : List (Slot α)} (h : s.places[n]? = some place) (hp : place.parent = some p)
      (hlt : p < n) (habove : s.places[p]? = some ⟨.operation op, parent, some n, some r⟩)
      (hr : Bears s r right) (outer : Inside s p slots) : Inside s n (.left op right :: slots)

/-- The place is an operation whose next free slot is the first of the slots. -/
inductive Awaits (s : Scaffold α) : Nat → List (Slot α) → Prop where
  | right {n : Nat} {op : Operator} {parent : Option Nat} {slots : List (Slot α)}
      (h : s.places[n]? = some ⟨.operation op, parent, none, none⟩) (outer : Inside s n slots) :
      Awaits s n (.right op :: slots)
  | left {n r : Nat} {op : Operator} {parent : Option Nat} {right : Tree α}
      {slots : List (Slot α)} (h : s.places[n]? = some ⟨.operation op, parent, none, some r⟩)
      (hr : Bears s r right) (outer : Inside s n slots) : Awaits s n (.left op right :: slots)

/-- The climb from the cursor finds the slot that a reading awaits, or none if it is complete. -/
def Seeks (s : Scaffold α) (cursor : Nat) : Reading α → Prop
  | .awaiting slots => ∃ found, s.openAncestor? cursor = some found ∧ s.Awaits found slots
  | .complete tree => s.openAncestor? cursor = none ∧ s.Bears 0 tree

theorem Awaits.isOpen {s : Scaffold α} {n : Nat} {slots : List (Slot α)} (h : s.Awaits n slots) :
    ∃ place, s.places[n]? = some place ∧ place.IsOpen := by
  cases h with
  | right h outer => exact ⟨_, h, ⟨_, rfl⟩, rfl⟩
  | left h hr outer => exact ⟨_, h, ⟨_, rfl⟩, rfl⟩

/-! ## The climb -/

theorem Seeks.of_openAncestor? {s : Scaffold α} {n m : Nat} {reading : Reading α}
    (h : s.openAncestor? n = s.openAncestor? m) (hm : s.Seeks m reading) : s.Seeks n reading := by
  cases reading with
  | awaiting slots => simpa only [Seeks, h] using hm
  | complete tree => simpa only [Seeks, h] using hm

/-- From an operation whose tree is complete the climb finds the slot that the reading comes to with
this tree. The induction goes up from slot to slot: an operation that is completed is itself the
tree for the slot around it. -/
theorem Inside.seeks {s : Scaffold α} {n : Nat} {slots : List (Slot α)} {tree : Tree α}
    {place : Place α} (h : s.Inside n slots) (hn : s.Bears n tree)
    (hplace : s.places[n]? = some place) (hcomplete : place.isComplete = true) :
    s.Seeks n (.fill tree slots) := by
  induction h generalizing tree place with
  | root h hnone =>
      rw [h] at hplace
      cases hplace
      exact ⟨openAncestor?_of_root h hcomplete hnone, hn⟩
  | right h hparent hlt habove outer ih =>
      rw [h] at hplace
      cases hplace
      refine Seeks.of_openAncestor? (openAncestor?_of_parent h hcomplete hparent hlt) ?_
      exact ⟨_, openAncestor?_of_open habove rfl, .left habove hn outer⟩
  | left h hparent hlt habove hr outer ih =>
      rw [h] at hplace
      cases hplace
      refine Seeks.of_openAncestor? (openAncestor?_of_parent h hcomplete hparent hlt) ?_
      exact ih (.operation habove hn hr) habove rfl

/-- The same from the operation above. -/
theorem Inside.seeks_parent {s : Scaffold α} {n p : Nat} {slots : List (Slot α)} {tree : Tree α}
    {place : Place α} (h : s.Inside n slots) (hn : s.Bears n tree)
    (hplace : s.places[n]? = some place) (hp : place.parent = some p) :
    s.Seeks p (.fill tree slots) := by
  cases h with
  | root h hnone =>
      rw [h] at hplace
      cases hplace
      rw [hnone] at hp
      contradiction
  | right h hparent _ habove outer =>
      rw [h] at hplace
      cases hplace
      rw [hparent] at hp
      cases hp
      exact ⟨_, openAncestor?_of_open habove rfl, .left habove hn outer⟩
  | left h hparent _ habove hr outer =>
      rw [h] at hplace
      cases hplace
      rw [hparent] at hp
      cases hp
      exact outer.seeks (.operation habove hn hr) habove rfl

/-! ## What a new place leaves standing -/

/-- A tree that stands has no free slot, so nothing is hung into it. -/
theorem Bears.hang {s : Scaffold α} {n parent : Nat} {tree : Tree α} {place : Place α}
    (h : s.Bears n tree) (hplace : s.places[parent]? = some place) (hopen : place.IsOpen)
    (content : Content α) : (s.hang parent content).Bears n tree := by
  induction h with
  | operand h =>
      rename_i n value above
      have hne : n ≠ parent := by
        rintro rfl
        rw [h] at hplace
        cases hplace
        obtain ⟨⟨op, hop⟩, _⟩ := hopen
        contradiction
      exact .operand ((getElem?_hang_of_ne hne (lt_size_of_getElem? h) content).trans h)
  | operation h hl hr ihl ihr =>
      rename_i n l r op above left right
      have hne : n ≠ parent := by
        rintro rfl
        rw [h] at hplace
        cases hplace
        obtain ⟨_, hincomplete⟩ := hopen
        contradiction
      exact .operation ((getElem?_hang_of_ne hne (lt_size_of_getElem? h) content).trans h) ihl ihr

/-- The slots around a place do not change when something is hung at this place or behind it. -/
theorem Inside.hang {s : Scaffold α} {n parent : Nat} {slots : List (Slot α)} {place : Place α}
    (h : s.Inside n slots) (hle : n ≤ parent) (hplace : s.places[parent]? = some place)
    (hopen : place.IsOpen) (content : Content α) : (s.hang parent content).Inside n slots := by
  have hkept {n : Nat} {q : Place α} := @getElem?_hang_of_some α s parent n place q hplace hopen.2
  have hbefore {n : Nat} {q : Place α} (h : s.places[n]? = some q) (hlt : n < parent) :
      (s.hang parent content).places[n]? = some q :=
    (getElem?_hang_of_ne (by omega) (lt_size_of_getElem? h) content).trans h
  induction h with
  | root h hnone =>
      obtain ⟨q, hq, hparent, -⟩ := hkept h content
      exact .root hq (hparent.trans hnone)
  | right h hp hlt habove outer ih =>
      obtain ⟨q, hq, hparent, -⟩ := hkept h content
      exact .right hq (hparent.trans hp) hlt (hbefore habove (by omega)) (ih (by omega))
  | left h hp hlt habove hr outer ih =>
      obtain ⟨q, hq, hparent, -⟩ := hkept h content
      exact .left hq (hparent.trans hp) hlt (hbefore habove (by omega))
        (hr.hang hplace hopen content) (ih (by omega))

/-- The new place lies in the slot that was awaited. -/
theorem Awaits.inside_hang {s : Scaffold α} {found : Nat} {slots : List (Slot α)}
    (h : s.Awaits found slots) (content : Content α) :
    (s.hang found content).Inside s.places.size slots := by
  obtain ⟨place, hplace, hopen⟩ := h.isOpen
  have hlt := lt_size_of_getElem? hplace
  have hnew := getElem?_hang_new s found content
  cases h with
  | right h outer =>
      exact .right hnew rfl hlt (getElem?_hang_parent h content)
        (outer.hang (Nat.le_refl found) hplace hopen content)
  | left h hr outer =>
      exact .left hnew rfl hlt (getElem?_hang_parent h content) (hr.hang hplace hopen content)
        (outer.hang (Nat.le_refl found) hplace hopen content)

end Scaffold

/-! ## Placing a list of tokens -/

namespace Site

variable {read : String → Option α}

structure Stands (site : Site α) (reading : Reading α) : Prop where
  linked : site.scaffold.Linked
  seeks : site.scaffold.Seeks site.cursor reading

theorem stands_ofRoot (op : Operator) :
    (ofRoot (.operation op) : Site α).Stands (.awaiting [.right op]) := by
  refine ⟨Scaffold.linked_ofRoot _, 0, ?_, ?_⟩
  · exact Scaffold.openAncestor?_of_open rfl rfl
  · exact .right rfl (.root rfl rfl)

/-- Hanging something into the awaited slot is what the reading does with it. -/
theorem Stands.hang {site : Site α} {found : Nat} {slots : List (Slot α)}
    (hlinked : site.scaffold.Linked) (hfound : site.scaffold.Awaits found slots)
    (content : Content α) : (site.hang found content).Stands (.place slots content) := by
  obtain ⟨place, hplace, hopen⟩ := hfound.isOpen
  refine ⟨hlinked.hang hplace hopen content, ?_⟩
  have hnew := Scaffold.getElem?_hang_new site.scaffold found content
  have hinside := hfound.inside_hang content
  cases content with
  | operand value => exact hinside.seeks_parent (.operand hnew) hnew rfl
  | operation op =>
      exact ⟨_, Scaffold.openAncestor?_of_open hnew rfl, .right hnew hinside⟩

theorem Stands.place?_of_none {site : Site α} {reading : Reading α} (h : site.Stands reading)
    {t : Token} (hstep : reading.step read t = none) : site.place? read t = none := by
  cases reading with
  | complete tree => simp [place?, h.seeks.1]
  | awaiting slots =>
      have hcontent : t.content? read = none := by simpa [Reading.step] using hstep
      obtain ⟨found, hfound, _⟩ := h.seeks
      simp [place?, hfound, hcontent]

theorem Stands.place?_of_some {site : Site α} {reading next : Reading α} (h : site.Stands reading)
    {t : Token} (hstep : reading.step read t = some next) :
    ∃ site' placement, site.place? read t = some (site', placement) ∧ site'.Stands next := by
  cases reading with
  | complete tree => contradiction
  | awaiting slots =>
      obtain ⟨found, hfound, hawaits⟩ := h.seeks
      cases hcontent : t.content? read with
      | none => simp [Reading.step, hcontent] at hstep
      | some content =>
          have hnext : Reading.place slots content = next := by
            simpa [Reading.step, hcontent] using hstep
          subst hnext
          refine ⟨site.hang found content, ⟨t, site.scaffold.places.size, found⟩, ?_, ?_⟩
          · simp only [place?, hfound, hcontent]
          · exact .hang h.linked hawaits content

/-- Placing a list gets as far as reading it does, and the site that is left stands for the
reading. -/
theorem Stands.placeAll {site : Site α} {reading : Reading α} (h : site.Stands reading)
    (made : List Placement) (tokens : List Token) :
    (reading.run read tokens = none ∧ (site.placeAll read made tokens).site = none) ∨
      ∃ final last, reading.run read tokens = some final ∧
        (site.placeAll read made tokens).site = some last ∧ last.Stands final := by
  induction tokens generalizing site reading made with
  | nil => exact Or.inr ⟨reading, site, rfl, rfl, h⟩
  | cons t rest ih =>
      rw [Reading.run_cons]
      cases hstep : reading.step read t with
      | none =>
          rw [placeAll_of_none (h.place?_of_none hstep)]
          exact Or.inl ⟨rfl, rfl⟩
      | some next =>
          obtain ⟨site', placement, hplace, hstands⟩ := h.place?_of_some hstep
          rw [placeAll_of_some hplace]
          exact ih hstands (placement :: made)

end Site

end ArithTree
