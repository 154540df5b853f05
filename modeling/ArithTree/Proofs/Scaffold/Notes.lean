import ArithTree.Proofs.Scaffold.FreeSlots
import ArithTree.Scaffold.Assembly

/-!
# Notes on the trees that wait

While a scaffold is taken apart, notes can be made of every tree that is put to wait and of every
tree that is taken. They do not change what comes of the work, and work that fails has a note of
the tree that was missing. As long as the work goes on, the notes account for the trees that wait:
a place has one if its tree has been finished and not taken.
-/

namespace ArithTree

variable {α β γ : Type}

/-! ## Notes -/

inductive Note where
  /-- the tree of a place is put there to wait -/
  | finished (number : Nat)
  /-- the tree that waits at a place is taken -/
  | taken (number : Nat)
  /-- a tree is asked for where none waits -/
  | missing (slot : Option Nat)
  deriving DecidableEq, Repr

/-- What comes of some work, with the notes made on the way, the first one first. -/
structure Noted (β : Type) where
  notes : List Note
  result : Option β

namespace Noted

instance : Monad Noted where
  pure x := ⟨[], some x⟩
  bind work next :=
    match work.result with
    | none => ⟨work.notes, none⟩
    | some x => ⟨work.notes ++ (next x).notes, (next x).result⟩

theorem bind_of_none {work : Noted β} (h : work.result = none) (next : β → Noted γ) :
    work >>= next = ⟨work.notes, none⟩ := by
  simp [bind, h]

theorem bind_of_some {work : Noted β} {x : β} (h : work.result = some x) (next : β → Noted γ) :
    work >>= next = ⟨work.notes ++ (next x).notes, (next x).result⟩ := by
  simp [bind, h]

@[simp] theorem result_bind (work : Noted β) (next : β → Noted γ) :
    (work >>= next).result = work.result.bind fun x => (next x).result := by
  cases h : work.result with
  | none => rw [bind_of_none h, Option.bind_none]
  | some x => rw [bind_of_some h, Option.bind_some]

def Candid (work : Noted β) : Prop := work.result = none ↔ ∃ slot, Note.missing slot ∈ work.notes

theorem Candid.bind {work : Noted β} {next : β → Noted γ} (h : work.Candid)
    (hnext : ∀ x, work.result = some x → (next x).Candid) : (work >>= next).Candid := by
  unfold Candid at h ⊢
  cases hwork : work.result with
  | none => simpa [bind_of_none hwork, hwork] using h
  | some x =>
      have hrest := hnext x hwork
      unfold Candid at hrest
      simp only [hwork, reduceCtorEq, false_iff, not_exists] at h
      rw [bind_of_some hwork, hrest]
      simp [h]

end Noted

/-! ## The work on a place -/

namespace Finished

/-- Takes the tree that waits at a place, and makes a note of it. -/
def takeNoted (finished : Finished α) (slot : Option Nat) : Noted (Tree α × Finished α) :=
  match slot, finished.take? slot with
  | some number, some found => ⟨[.taken number], some found⟩
  | _, _ => ⟨[.missing slot], none⟩

def finishNoted (finished : Finished α) (number : Nat) (place : Place α) : Noted (Finished α) :=
  match place.content with
  | .operand value =>
      ⟨[.finished number], some (finished.setIfInBounds number (some (.operand value)))⟩
  | .operation op => do
      let (left, finished) ← finished.takeNoted place.left
      let (right, finished) ← finished.takeNoted place.right
      ⟨[.finished number], some (finished.setIfInBounds number (some (.operation op left right)))⟩

theorem result_takeNoted (finished : Finished α) (slot : Option Nat) :
    (finished.takeNoted slot).result = finished.take? slot := by
  unfold takeNoted
  cases slot with
  | none => rfl
  | some number => cases finished.take? (some number) <;> rfl

theorem candid_takeNoted (finished : Finished α) (slot : Option Nat) :
    (finished.takeNoted slot).Candid := by
  unfold Noted.Candid takeNoted
  cases slot with
  | none => simp
  | some number => cases finished.take? (some number) <;> simp

theorem notes_takeNoted {finished : Finished α} {number : Nat} {found : Tree α × Finished α}
    (h : finished.take? (some number) = some found) :
    (finished.takeNoted (some number)).notes = [.taken number] := by
  simp [takeNoted, h]

theorem result_finishNoted (finished : Finished α) (number : Nat) (place : Place α) :
    (finished.finishNoted number place).result = finished.finish? number place := by
  unfold finishNoted finish?
  cases place.content with
  | operand value => rfl
  | operation op =>
      rw [Noted.result_bind, result_takeNoted]
      cases finished.take? place.left with
      | none => rfl
      | some pair =>
          simp only [Option.bind_some, Noted.result_bind, result_takeNoted]
          rfl

theorem candid_finishNoted (finished : Finished α) (number : Nat) (place : Place α) :
    (finished.finishNoted number place).Candid := by
  unfold finishNoted
  cases place.content with
  | operand value => simp [Noted.Candid]
  | operation op =>
      apply (candid_takeNoted finished place.left).bind
      intro first _
      apply (candid_takeNoted first.2 place.right).bind
      intro second _
      simp [Noted.Candid]

/-- How a place comes to be finished, with the notes that are made on it. -/
inductive Finishes (finished : Finished α) (number : Nat) (place : Place α) :
    List Note → Finished α → Prop where
  | operand {value : α} (hcontent : place.content = .operand value) :
      Finishes finished number place [.finished number]
        (finished.setIfInBounds number (some (.operand value)))
  | operation {op : Operator} {l r : Nat} {left right : Tree α} {first second : Finished α}
      (hcontent : place.content = .operation op) (hl : place.left = some l)
      (hr : place.right = some r) (htakel : finished.take? (some l) = some (left, first))
      (htaker : first.take? (some r) = some (right, second)) :
      Finishes finished number place [.taken l, .taken r, .finished number]
        (second.setIfInBounds number (some (.operation op left right)))

theorem exists_slot_of_take? {finished : Finished α} {slot : Option Nat}
    {found : Tree α × Finished α} (h : finished.take? slot = some found) :
    ∃ number, slot = some number := by
  cases slot with
  | none => contradiction
  | some number => exact ⟨number, rfl⟩

theorem finishes_of_finishNoted {finished next : Finished α} {number : Nat} {place : Place α}
    (h : (finished.finishNoted number place).result = some next) :
    finished.Finishes number place (finished.finishNoted number place).notes next := by
  cases hcontent : place.content with
  | operand value =>
      simp only [finishNoted, hcontent, Option.some.injEq] at h ⊢
      rw [← h]
      exact .operand hcontent
  | operation op =>
      simp only [finishNoted, hcontent, Noted.result_bind, result_takeNoted,
        Option.bind_eq_some_iff, Option.some.injEq] at h
      obtain ⟨⟨left, first⟩, htakel, ⟨right, second⟩, htaker, rfl⟩ := h
      obtain ⟨l, hl⟩ := exists_slot_of_take? htakel
      obtain ⟨r, hr⟩ := exists_slot_of_take? htaker
      rw [hl] at htakel
      rw [hr] at htaker
      have hfirst := (result_takeNoted finished (some l)).trans htakel
      have hsecond := (result_takeNoted first (some r)).trans htaker
      have hnotes : (finished.finishNoted number place).notes =
          [.taken l, .taken r, .finished number] := by
        simp only [finishNoted, hcontent, hl, hr]
        rw [Noted.bind_of_some hfirst, notes_takeNoted htakel, Noted.bind_of_some hsecond,
          notes_takeNoted htaker]
        rfl
      rw [hnotes]
      exact .operation hcontent hl hr htakel htaker

/-! ## What the notes account for -/

/-- A tree that is taken was waiting, and nothing waits there any more. -/
theorem of_take? {finished next : Finished α} {number : Nat} {tree : Tree α}
    (h : finished.take? (some number) = some (tree, next)) :
    finished[number]? = some (some tree) ∧ next = finished.setIfInBounds number none := by
  unfold take? at h
  cases hjoin : finished[number]?.join with
  | none => simp [hjoin] at h
  | some found =>
      simp only [hjoin, Option.some.injEq, Prod.mk.injEq] at h
      obtain ⟨rfl, rfl⟩ := h
      exact ⟨Option.join_eq_some_iff.1 hjoin, rfl⟩

theorem size_of_take? {finished next : Finished α} {number : Nat} {tree : Tree α}
    (h : finished.take? (some number) = some (tree, next)) : next.size = finished.size := by
  rw [(of_take? h).2, Array.size_setIfInBounds]

def waiting (finished : Finished α) (n : Nat) : Nat := if finished[n]?.join.isSome then 1 else 0

theorem waiting_setIfInBounds {finished : Finished α} {number : Nat} {before : Option (Tree α)}
    (h : finished[number]? = some before) (after : Option (Tree α)) (n : Nat) :
    waiting (finished.setIfInBounds number after) n =
      if n = number then (if after.isSome then 1 else 0) else finished.waiting n := by
  unfold waiting
  by_cases hn : n = number
  · subst hn
    have hlt : n < finished.size := (Array.getElem?_eq_some_iff.1 h).choose
    rw [Array.getElem?_setIfInBounds_self_of_lt hlt, if_pos rfl, Option.join_some]
  · rw [Array.getElem?_setIfInBounds_ne (Ne.symm hn), if_neg hn]

/-- The notes account for the trees that wait. -/
structure Accounts (notes : List Note) (finished : Finished α) : Prop where
  /-- what has been finished was taken or waits -/
  balance : ∀ n, notes.count (.finished n) = notes.count (.taken n) + finished.waiting n
  /-- by the time a tree was taken, it had been finished -/
  in_order : ∀ n before, before ++ [Note.taken n] <+: notes → Note.finished n ∈ before

section Accounts

variable {notes : List Note} {finished next : Finished α} {number : Nat} {tree : Tree α}

theorem Accounts.waiting_eq_zero (h : Accounts notes finished)
    (hfresh : Note.finished number ∉ notes) : finished.waiting number = 0 := by
  have hbalance := h.balance number
  rw [List.count_eq_zero_of_not_mem hfresh] at hbalance
  omega

/-- They go on to account for them if what changes is noted, and what is taken was waiting. -/
theorem Accounts.concat (h : Accounts notes finished) {note : Note}
    (hchange : ∀ n, finished.waiting n + [note].count (.finished n) =
      next.waiting n + [note].count (.taken n))
    (hwaits : ∀ n, note = .taken n → finished.waiting n = 1) :
    Accounts (notes ++ [note]) next := by
  constructor
  · intro n
    have hbalance := h.balance n
    have hchange := hchange n
    rw [List.count_append, List.count_append]
    omega
  · intro n before hbefore
    rcases List.prefix_concat_iff.1 hbefore with hnow | hearlier
    · -- the tree that is taken now waited, so there is a note that it was finished
      obtain ⟨rfl, hnote⟩ := List.append_singleton_inj.1 hnow
      have hbalance := h.balance n
      have hone := hwaits n hnote.symm
      apply List.count_pos_iff.1
      omega
    · exact h.in_order n before hearlier

theorem Accounts.take (h : Accounts notes finished)
    (htake : finished.take? (some number) = some (tree, next)) :
    Accounts (notes ++ [Note.taken number]) next := by
  obtain ⟨hwaits, rfl⟩ := of_take? htake
  have hone : finished.waiting number = 1 := by simp [waiting, hwaits]
  apply h.concat
  · intro n
    rw [waiting_setIfInBounds hwaits]
    by_cases hn : n = number
    · simp [hn, hone]
    · simp [hn, Ne.symm hn]
  · intro n hnote
    cases hnote
    exact hone

theorem Accounts.put (h : Accounts notes finished) (hlt : number < finished.size)
    (hfresh : Note.finished number ∉ notes) (tree : Tree α) :
    Accounts (notes ++ [Note.finished number]) (finished.setIfInBounds number (some tree)) := by
  have hzero := h.waiting_eq_zero hfresh
  apply h.concat
  · intro n
    rw [waiting_setIfInBounds (Array.getElem?_eq_getElem hlt)]
    by_cases hn : n = number
    · simp [hn, hzero]
    · simp [hn, Ne.symm hn]
  · intro n hnote
    contradiction

end Accounts

/-! ## How much waits -/

def weight (finished : Finished α) : Nat :=
  (finished.toList.map fun tree => tree.elim 0 Tree.size).sum

theorem weight_setIfInBounds {finished : Finished α} {number : Nat} {before : Option (Tree α)}
    (h : finished[number]? = some before) (after : Option (Tree α)) :
    weight (finished.setIfInBounds number after) + before.elim 0 Tree.size =
      finished.weight + after.elim 0 Tree.size := by
  have hlist : finished.toList[number]? = some before := by rw [Array.getElem?_toList, h]
  rw [weight, Array.toList_setIfInBounds, List.set_eq_modify]
  exact Scaffold.sum_map_modify hlist _ fun _ => after

theorem weight_of_take? {finished next : Finished α} {number : Nat} {tree : Tree α}
    (h : finished.take? (some number) = some (tree, next)) :
    next.weight + tree.size = finished.weight := by
  obtain ⟨hwaits, rfl⟩ := of_take? h
  exact weight_setIfInBounds hwaits none

theorem weight_put {finished : Finished α} {number : Nat} (hlt : number < finished.size)
    (hzero : finished.waiting number = 0) (tree : Tree α) :
    weight (finished.setIfInBounds number (some tree)) = finished.weight + tree.size := by
  have hnone : finished[number] = none := by
    simpa [waiting, Array.getElem?_eq_getElem hlt] using hzero
  have hbefore : finished[number]? = some none := by rw [Array.getElem?_eq_getElem hlt, hnone]
  exact weight_setIfInBounds hbefore (some tree)

/-! ## One place -/

section Finishes

variable {finished next : Finished α} {number : Nat} {place : Place α} {more : List Note}

theorem Finishes.size_eq (h : finished.Finishes number place more next) :
    next.size = finished.size := by
  cases h with
  | operand hcontent => exact Array.size_setIfInBounds
  | operation hcontent hl hr htakel htaker =>
      rw [Array.size_setIfInBounds, size_of_take? htaker, size_of_take? htakel]

theorem Finishes.count_finished (h : finished.Finishes number place more next) (n : Nat) :
    more.count (.finished n) = if n = number then 1 else 0 := by
  by_cases hn : n = number
  · subst hn
    cases h <;> simp
  · cases h <;> simp [hn, Ne.symm hn]

/-- What an operation holds is taken when it is finished. -/
theorem Finishes.taken_mem (h : finished.Finishes number place more next) {op : Operator}
    (hop : place.content = .operation op) {child : Nat} (hholds : place.Holds child) :
    Note.taken child ∈ more := by
  cases h with
  | operand hcontent =>
      rw [hop] at hcontent
      contradiction
  | operation _ hl hr _ _ => rcases hholds with h | h <;> simp_all

/-- The notes go on accounting for what waits, and one more place is in the trees that wait. -/
theorem Finishes.accounts (h : finished.Finishes number place more next) {notes : List Note}
    (haccounts : Accounts notes finished) (hlt : number < finished.size)
    (hfresh : Note.finished number ∉ notes) :
    Accounts (notes ++ more) next ∧ next.weight = finished.weight + 1 := by
  cases h with
  | operand hcontent =>
      have hzero := haccounts.waiting_eq_zero hfresh
      exact ⟨haccounts.put hlt hfresh _, weight_put hlt hzero _⟩
  | @operation op l r left right first second hcontent hl hr htakel htaker =>
      have hfirst := haccounts.take htakel
      have hsecond := hfirst.take htaker
      have hfresh' : Note.finished number ∉ notes ++ [Note.taken l] ++ [Note.taken r] := by
        simp [hfresh]
      have hlt' : number < second.size := by
        rw [size_of_take? htaker, size_of_take? htakel]
        exact hlt
      constructor
      · have hthird := hsecond.put hlt' hfresh' (.operation op left right)
        simpa using hthird
      · have hweightl := weight_of_take? htakel
        have hweightr := weight_of_take? htaker
        have hput := weight_put hlt' (hsecond.waiting_eq_zero hfresh') (.operation op left right)
        rw [Tree.size] at hput
        omega

end Finishes

end Finished

end ArithTree
