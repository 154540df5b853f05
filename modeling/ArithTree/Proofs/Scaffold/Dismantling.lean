import ArithTree.Proofs.Scaffold.Assembled
import ArithTree.Proofs.Scaffold.Notes

/-!
# Taking a scaffold apart, step by step

When a list that passes the quick look has been placed, every slot is filled. Such a scaffold comes
apart without fail: the notes on it show that each place is finished once and then taken once, that
nothing is asked for in vain, and that nothing is left waiting. What comes of it is the tree that
the slots lead to from the root.
-/

namespace ArithTree

variable {α : Type}

namespace Scaffold

/-! ## The whole scaffold -/

def finishFirstNoted (s : Scaffold α) : Nat → Finished α → Noted (Finished α)
  | 0, finished => pure finished
  | number + 1, finished =>
      match s.places[number]? with
      | none => ⟨[], none⟩
      | some place => do
          let finished ← finished.finishNoted number place
          s.finishFirstNoted number finished

def toTreeNoted (s : Scaffold α) : Noted (Tree α × Finished α) := do
  let finished ← s.finishFirstNoted s.places.size (.replicate s.places.size none)
  finished.takeNoted (some 0)

theorem result_finishFirstNoted (s : Scaffold α) (count : Nat) (finished : Finished α) :
    (s.finishFirstNoted count finished).result = s.finishFirst? count finished := by
  induction count generalizing finished with
  | zero => rfl
  | succ number ih =>
      rw [finishFirstNoted, finishFirst?]
      cases s.places[number]? with
      | none => rfl
      | some place =>
          simp only [Noted.result_bind, Finished.result_finishNoted, ih]
          rfl

/-- The notes change nothing in what comes of it. -/
theorem map_result_toTreeNoted (s : Scaffold α) :
    s.toTreeNoted.result.map Prod.fst = s.toTree? := by
  rw [toTreeNoted, toTree?, Noted.result_bind, result_finishFirstNoted]
  cases s.finishFirst? s.places.size (.replicate s.places.size none) with
  | none => rfl
  | some finished =>
      rw [Option.bind_some, Finished.result_takeNoted]
      cases hroot : finished.take? (some 0) <;> simp [hroot]

theorem candid_finishFirstNoted {s : Scaffold α} {count : Nat} (hle : count ≤ s.places.size)
    (finished : Finished α) : (s.finishFirstNoted count finished).Candid := by
  induction count generalizing finished with
  | zero => simp [finishFirstNoted, Noted.Candid, pure]
  | succ number ih =>
      have hplace : s.places[number]? = some s.places[number] := Array.getElem?_eq_getElem hle
      rw [finishFirstNoted, hplace]
      apply (finished.candid_finishNoted number _).bind
      intro next _
      exact ih (by omega) next

/-- A scaffold fails to come apart exactly if a tree is asked for where none waits. -/
theorem candid_toTreeNoted (s : Scaffold α) : s.toTreeNoted.Candid := by
  apply (candid_finishFirstNoted (Nat.le_refl _) _).bind
  intro final _
  exact final.candid_takeNoted (some 0)

/-- How far the work has come when the places from `count` on are finished. -/
structure Progress (s : Scaffold α) (count : Nat) (notes : List Note) (finished : Finished α) :
    Prop where
  size_eq : finished.size = s.places.size
  accounts : Finished.Accounts notes finished
  /-- every finished place is in one of the trees that wait -/
  weight : finished.weight + count = s.places.size
  finished_once : ∀ n, notes.count (.finished n) = if count ≤ n ∧ n < s.places.size then 1 else 0
  /-- what a finished place holds has been taken -/
  taken_mem : ∀ {n child : Nat} {place : Place α}, s.places[n]? = some place → count ≤ n →
    place.Holds child → Note.taken child ∈ notes

theorem progress_initial (s : Scaffold α) :
    s.Progress s.places.size [] (.replicate s.places.size none) where
  size_eq := Array.size_replicate
  accounts := ⟨fun n => by simp [Finished.waiting, Array.getElem?_replicate, apply_ite], by simp⟩
  weight := by simp [Finished.weight]
  finished_once n := by
    rw [if_neg (by omega)]
    rfl
  taken_mem hplace hle _ := by
    have hlt := lt_size_of_getElem? hplace
    omega

section Progress

variable {s : Scaffold α} {count number : Nat} {notes more : List Note}
  {finished next final : Finished α} {place : Place α}

theorem Progress.finish (h : s.Progress (number + 1) notes finished) (hheld : s.HeldByOperations)
    (hplace : s.places[number]? = some place)
    (hfinishes : finished.Finishes number place more next) :
    s.Progress number (notes ++ more) next := by
  have hlt := lt_size_of_getElem? hplace
  have hfresh : Note.finished number ∉ notes := by
    apply List.count_eq_zero.1
    rw [h.finished_once, if_neg (by omega)]
  have hlt' : number < finished.size := by rw [h.size_eq]; exact hlt
  have haccounts := hfinishes.accounts h.accounts hlt' hfresh
  have hweight := h.weight
  refine ⟨hfinishes.size_eq.trans h.size_eq, haccounts.1, by omega, fun n => ?_, ?_⟩
  · rw [List.count_append, h.finished_once, hfinishes.count_finished]
    by_cases hn : n = number
    · subst hn
      simp [hlt]
    · have hiff : number + 1 ≤ n ∧ n < s.places.size ↔ number ≤ n ∧ n < s.places.size := by omega
      simp only [hiff, if_neg hn, Nat.add_zero]
  · intro n child q hq hle hholds
    rw [List.mem_append]
    by_cases hn : n = number
    · subst hn
      obtain ⟨op, hop⟩ := hheld n child q hq hholds
      rw [hplace] at hq
      cases hq
      exact Or.inr (hfinishes.taken_mem hop hholds)
    · exact Or.inl (h.taken_mem hq (by omega) hholds)

theorem Progress.finishFirst (h : s.Progress count notes finished) (hheld : s.HeldByOperations)
    (hresult : (s.finishFirstNoted count finished).result = some final) :
    s.Progress 0 (notes ++ (s.finishFirstNoted count finished).notes) final := by
  induction count generalizing notes finished with
  | zero =>
      cases hresult
      simpa [finishFirstNoted, pure] using h
  | succ number ih =>
      rw [finishFirstNoted] at hresult ⊢
      cases hplace : s.places[number]? with
      | none => simp [hplace] at hresult
      | some place =>
          simp only [hplace] at hresult ⊢
          cases hnext : (finished.finishNoted number place).result with
          | none => simp [Noted.bind_of_none hnext] at hresult
          | some next =>
              rw [Noted.bind_of_some hnext] at hresult ⊢
              have hstep := h.finish hheld hplace (Finished.finishes_of_finishNoted hnext)
              simpa only [List.append_assoc] using ih hstep hresult

end Progress

/-! ## Coming apart -/

/-- The notes on a scaffold with `size` places that has come apart in good order. -/
structure InOrder (size : Nat) (notes : List Note) : Prop where
  nothing_missing : ∀ slot, Note.missing slot ∉ notes
  finished_once : ∀ n, notes.count (.finished n) = if n < size then 1 else 0
  taken_once : ∀ n, notes.count (.taken n) = if n < size then 1 else 0
  /-- whatever was done before a tree was taken, finishing it was part of that -/
  finished_first : ∀ n before, before ++ [Note.taken n] <+: notes → Note.finished n ∈ before
  root_last : ∃ before, notes = before ++ [Note.taken 0]

section Apart

variable {s : Scaffold α} {notes : List Note} {final rest : Finished α} {tree : Tree α}

/-- Every place is taken: by the operation that holds it, or as the root. -/
theorem Progress.mem_of_lt (h : s.Progress 0 notes final) (hs : s.Linked) {n : Nat}
    (hlt : n < s.places.size) : Note.taken n ∈ notes ++ [Note.taken 0] := by
  have hplace : s.places[n]? = some s.places[n] := Array.getElem?_eq_getElem hlt
  rw [List.mem_append]
  rcases hs.up hplace with ⟨rfl, -⟩ | ⟨parent, above, -, -, habove, hholds⟩
  · exact Or.inr List.mem_cons_self
  · exact Or.inl (h.taken_mem habove (Nat.zero_le parent) hholds)

theorem Progress.count_finished (h : s.Progress 0 notes final) (n : Nat) :
    (notes ++ [Note.taken 0]).count (.finished n) = if n < s.places.size then 1 else 0 := by
  rw [List.count_append, h.finished_once]
  simp

/-- All that has been finished has been taken once the root is taken, so nothing is left. -/
theorem Progress.taken_once (h : s.Progress 0 notes final) (hs : s.Linked)
    (htake : final.take? (some 0) = some (tree, rest)) (n : Nat) :
    (notes ++ [Note.taken 0]).count (.taken n) = (if n < s.places.size then 1 else 0) ∧
      rest.waiting n = 0 := by
  have hbalance := (h.accounts.take htake).balance n
  rw [h.count_finished] at hbalance
  by_cases hlt : n < s.places.size
  · have hpos := List.count_pos_iff.2 (h.mem_of_lt hs hlt)
    rw [if_pos hlt] at hbalance ⊢
    omega
  · rw [if_neg hlt] at hbalance ⊢
    omega

theorem Progress.rest_eq (h : s.Progress 0 notes final) (hs : s.Linked)
    (htake : final.take? (some 0) = some (tree, rest)) :
    rest = .replicate s.places.size none := by
  have hsize : rest.size = s.places.size := by
    rw [Finished.size_of_take? htake, h.size_eq]
  apply Array.ext (by rw [hsize, Array.size_replicate])
  intro n hlt hlt'
  have hzero := (h.taken_once hs htake n).2
  rw [Array.getElem_replicate]
  simpa [Finished.waiting, Array.getElem?_eq_getElem hlt] using hzero

theorem exists_progress_of_result (hheld : s.HeldByOperations)
    (hresult : s.toTreeNoted.result = some (tree, rest)) :
    ∃ notes final, s.toTreeNoted.notes = notes ++ [Note.taken 0] ∧ s.Progress 0 notes final ∧
      final.take? (some 0) = some (tree, rest) := by
  rw [toTreeNoted, Noted.result_bind, Option.bind_eq_some_iff] at hresult
  obtain ⟨final, hfinal, htake⟩ := hresult
  rw [Finished.result_takeNoted] at htake
  have hprogress := s.progress_initial.finishFirst hheld hfinal
  rw [List.nil_append] at hprogress
  refine ⟨_, final, ?_, hprogress, htake⟩
  rw [toTreeNoted, Noted.bind_of_some hfinal, Finished.notes_takeNoted htake]

/-- If the work comes to an end then all is done in good order. -/
theorem inOrder_of_result (hs : s.Linked) (hheld : s.HeldByOperations)
    (hresult : s.toTreeNoted.result = some (tree, rest)) :
    InOrder s.places.size s.toTreeNoted.notes := by
  obtain ⟨notes, final, hnotes, hprogress, htake⟩ := exists_progress_of_result hheld hresult
  constructor
  · intro slot hslot
    have hfails := s.candid_toTreeNoted.2 ⟨slot, hslot⟩
    rw [hresult] at hfails
    contradiction
  · rw [hnotes]
    exact hprogress.count_finished
  · rw [hnotes]
    exact fun n => (hprogress.taken_once hs htake n).1
  · rw [hnotes]
    exact (hprogress.accounts.take htake).in_order
  · exact ⟨notes, hnotes⟩

/-- A scaffold whose root bears a tree comes apart into this tree. All places are in it, each has
been taken once, and nothing is left waiting. -/
theorem Linked.comes_apart (hs : s.Linked) (hheld : s.HeldByOperations) (hroot : s.Bears 0 tree) :
    s.toTreeNoted.result = some (tree, .replicate s.places.size none) ∧
      InOrder s.places.size s.toTreeNoted.notes ∧ tree.size = s.places.size := by
  have htree := s.map_result_toTreeNoted.trans (toTree?_of_bears hs hroot)
  obtain ⟨⟨root, rest⟩, hresult, hfst⟩ := Option.map_eq_some_iff.1 htree
  obtain rfl : root = tree := hfst
  obtain ⟨notes, final, -, hprogress, htake⟩ := exists_progress_of_result hheld hresult
  -- nothing is left, so what the trees had together before is all in the tree of the root
  have hrest := hprogress.rest_eq hs htake
  have hnothing : rest.weight = 0 := by simp [hrest, Finished.weight]
  have hweight := hprogress.weight
  have htaken := Finished.weight_of_take? htake
  rw [hrest] at hresult
  exact ⟨hresult, inOrder_of_result hs hheld hresult, by omega⟩

end Apart

/-! ## Where no slot is free -/

theorem HeldByOperations.slots_of_operand {s : Scaffold α} (hheld : s.HeldByOperations) {n : Nat}
    {value : α} {parent left right : Option Nat}
    (hplace : s.places[n]? = some ⟨.operand value, parent, left, right⟩) :
    left = none ∧ right = none := by
  have hnone {child : Nat} (hholds : Place.Holds ⟨.operand value, parent, left, right⟩ child) :
      False := by
    obtain ⟨op, hop⟩ := hheld n child _ hplace hholds
    contradiction
  constructor
  · cases left with
    | none => rfl
    | some l => exact (hnone (Or.inr rfl)).elim
  · cases right with
    | none => rfl
    | some r => exact (hnone (Or.inl rfl)).elim

/-- Where every operation is complete, what hangs from a place makes up a tree. The induction is on
how many places there are from this one on, since what a place holds comes behind it. -/
theorem Linked.exists_bears_of_complete {s : Scaffold α} (hs : s.Linked)
    (hheld : s.HeldByOperations)
    (hcomplete : ∀ (n : Nat) (place : Place α) (op : Operator), s.places[n]? = some place →
      place.content = .operation op → place.isComplete = true)
    {count n : Nat} (hle : s.places.size ≤ n + count) {place : Place α}
    (hplace : s.places[n]? = some place) : ∃ tree, s.Bears n tree := by
  induction count generalizing n place with
  | zero =>
      have hlt := lt_size_of_getElem? hplace
      omega
  | succ count ih =>
      have hchild {child : Nat} (hholds : place.Holds child) : ∃ tree, s.Bears child tree := by
        obtain ⟨below, hbelow, hparent⟩ := hs.down hplace hholds
        have hlt := hs.parent_lt hbelow hparent
        exact ih (by omega) hbelow
      obtain ⟨content, parent, left, right⟩ := place
      cases content with
      | operand value =>
          obtain ⟨rfl, rfl⟩ := hheld.slots_of_operand hplace
          exact ⟨_, .operand hplace⟩
      | operation op =>
          have hfull := hcomplete n _ op hplace rfl
          cases left with
          | none => contradiction
          | some l =>
              cases right with
              | none => contradiction
              | some r =>
                  obtain ⟨lefttree, hl⟩ := hchild (Or.inr rfl)
                  obtain ⟨righttree, hr⟩ := hchild (Or.inl rfl)
                  exact ⟨_, .operation hplace hl hr⟩

end Scaffold

namespace Postfix

open Scaffold

/-- When a list that passes the quick look has been placed, there is a place for each token, and no
operation has a free slot. So the scaffold comes apart: no tree is asked for in vain, each place is
finished once and taken once, the root at the end and every tree after it was finished, and no tree
is left. What comes of it is the one tree that the slots lead to from the root; it has all the
places, and it is what is built of the list. -/
theorem placed_list_comes_apart {read : String → Option α} {tokens : List Token} {site : Site α}
    (hpasses : isPlausible tokens = true) (hplaced : placed? read tokens = some site) :
    let s := site.scaffold
    s.places.size = tokens.length ∧
      (∀ (n : Nat) (place : Place α) (op : Operator), s.places[n]? = some place →
        place.content = .operation op → place.isComplete = true) ∧
      ∃ tree, s.toTreeNoted.result = some (tree, .replicate s.places.size none) ∧
        InOrder s.places.size s.toTreeNoted.notes ∧
        (∀ other, s.Bears 0 other ↔ other = tree) ∧
        tree.size = s.places.size ∧
        s.toTree? = some tree ∧
        buildWith read tokens = .ok tree := by
  intro s
  have hsound := sound_of_placed? hplaced
  obtain ⟨hsize, hfree⟩ := freeSlots_of_placed? hpasses hplaced
  have hcomplete (n : Nat) (place : Place α) (op : Operator) (hplace : s.places[n]? = some place)
      (hop : place.content = .operation op) : place.isComplete = true :=
    isComplete_of_freeSlots hfree hplace hop
  obtain ⟨first, _, hcursor, _⟩ := hsound.cursor
  have hpos : 0 < s.places.size := Nat.zero_lt_of_lt (lt_size_of_getElem? hcursor)
  have hexists : ∃ tree, s.Bears 0 tree :=
    hsound.linked.exists_bears_of_complete hsound.held hcomplete (Nat.le_add_left _ 0)
      (Array.getElem?_eq_getElem hpos)
  obtain ⟨tree, hroot⟩ := hexists
  obtain ⟨hresult, hinorder, htreesize⟩ := hsound.linked.comes_apart hsound.held hroot
  have htree := toTree?_of_bears hsound.linked hroot
  have hbuilt := buildWith_eq_ok_iff.2 ((tree_constructWith_of_placed? hpasses hplaced).trans htree)
  refine ⟨hsize, hcomplete, tree, hresult, hinorder, fun other => ?_, htreesize, htree, hbuilt⟩
  constructor
  · intro hother
    exact hother.unique hroot
  · rintro rfl
    exact hroot

/-- The scaffold of `1 2 3 + -`: the sum is the right operand of the difference, and the places of
its operands come before the one of `1`. -/
theorem placed_list_comes_apart_of_nested_sum :
    let tokens : List Token :=
      [.operand "1", .operand "2", .operand "3", .operator .add, .operator .subtract]
    let s : Scaffold String :=
      ⟨#[⟨.operation .subtract, none, some 4, some 1⟩, ⟨.operation .add, some 0, some 3, some 2⟩,
        ⟨.operand "3", some 1, none, none⟩, ⟨.operand "2", some 1, none, none⟩,
        ⟨.operand "1", some 0, none, none⟩]⟩
    isPlausible tokens = true ∧ placed? some tokens = some ⟨s, 0⟩ ∧
      s.toTreeNoted.notes = [.finished 4, .finished 3, .finished 2, .taken 3, .taken 2,
        .finished 1, .taken 4, .taken 1, .finished 0, .taken 0] ∧
      InOrder 5 s.toTreeNoted.notes ∧
      buildWith some tokens = .ok (.operation .subtract (.operand "1")
        (.operation .add (.operand "2") (.operand "3"))) := by
  intro tokens s
  have hpasses : isPlausible tokens = true := by cbv
  have hplaced : placed? some tokens = some ⟨s, 0⟩ := by cbv
  have hnotes : s.toTreeNoted.notes = [.finished 4, .finished 3, .finished 2, .taken 3, .taken 2,
      .finished 1, .taken 4, .taken 1, .finished 0, .taken 0] := by decide +kernel
  have hroot : s.Bears 0 (.operation .subtract (.operand "1")
      (.operation .add (.operand "2") (.operand "3"))) :=
    .operation rfl (.operand rfl) (.operation rfl (.operand rfl) (.operand rfl))
  obtain ⟨-, -, tree, -, hinorder, hbears, -, -, hbuilt⟩ := placed_list_comes_apart hpasses hplaced
  have htree := (hbears _).1 hroot
  rw [← htree] at hbuilt
  exact ⟨hpasses, hplaced, hnotes, hinorder, hbuilt⟩

end Postfix

end ArithTree
