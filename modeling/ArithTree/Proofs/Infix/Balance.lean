import Mathlib.Data.List.Basic

/-!
# Balanced lists

A list is balanced in two of its members, one that opens and one that closes, if no beginning of it
holds more closings than openings and the whole list holds as many of the one as of the other. The
count of the groups that were open before the list makes the notion one for a run: each member
changes the count, and what remains is balanced from the changed count.
-/

namespace ArithTree

variable {α β : Type} [DecidableEq α] [DecidableEq β]

/-- `l` closes `depth` groups and all that it opens, and closes nothing else. -/
structure BalancedFrom (opening closing : α) (depth : Nat) (l : List α) : Prop where
  beginnings : ∀ p, p <+: l → p.count closing ≤ depth + p.count opening
  total : l.count closing = depth + l.count opening

/-- No beginning holds more closings than openings, and the totals are equal. -/
def Balanced (opening closing : α) (l : List α) : Prop := BalancedFrom opening closing 0 l

theorem balanced_iff {opening closing : α} {l : List α} :
    Balanced opening closing l ↔
      (∀ p, p <+: l → p.count closing ≤ p.count opening) ∧
        l.count closing = l.count opening := by
  constructor
  · rintro ⟨hp, ht⟩
    exact ⟨fun p h => by simpa using hp p h, by simpa using ht⟩
  · rintro ⟨hp, ht⟩
    exact ⟨fun p h => by simpa using hp p h, by simpa using ht⟩

variable {opening closing : α} {depth : Nat} {l : List α}

@[simp] theorem balancedFrom_nil : BalancedFrom opening closing depth [] ↔ depth = 0 := by
  constructor
  · intro h
    have ht := h.total
    simp at ht
    omega
  · intro h
    subst h
    exact ⟨by simp, by simp⟩

/-- The empty beginning says nothing; every other one begins with the first member. -/
private theorem balancedFrom_cons {x : α} :
    BalancedFrom opening closing depth (x :: l) ↔
      (∀ p, p <+: l → (x :: p).count closing ≤ depth + (x :: p).count opening) ∧
        (x :: l).count closing = depth + (x :: l).count opening := by
  constructor
  · intro h
    exact ⟨fun p hp => h.beginnings _ (List.prefix_cons_inj x |>.2 hp), h.total⟩
  · rintro ⟨hp, ht⟩
    refine ⟨fun p h => ?_, ht⟩
    rcases List.prefix_cons_iff.1 h with rfl | ⟨q, rfl, hq⟩
    · simp
    · exact hp q hq

theorem balancedFrom_cons_opening (hne : opening ≠ closing) :
    BalancedFrom opening closing depth (opening :: l) ↔
      BalancedFrom opening closing (depth + 1) l := by
  rw [balancedFrom_cons]
  simp only [List.count_cons_self, List.count_cons_of_ne hne]
  constructor
  · rintro ⟨hp, ht⟩
    exact ⟨fun p h => by have := hp p h; omega, by omega⟩
  · rintro ⟨hp, ht⟩
    exact ⟨fun p h => by have := hp p h; omega, by omega⟩

theorem balancedFrom_cons_closing (hne : opening ≠ closing) :
    BalancedFrom opening closing depth (closing :: l) ↔
      ∃ outer, depth = outer + 1 ∧ BalancedFrom opening closing outer l := by
  rw [balancedFrom_cons]
  simp only [List.count_cons_self, List.count_cons_of_ne hne.symm]
  constructor
  · rintro ⟨hp, ht⟩
    -- the beginning that is the closing alone needs a group to close
    have hone := hp [] List.nil_prefix
    simp only [List.count_nil] at hone
    refine ⟨depth - 1, by omega, fun p h => ?_, by omega⟩
    have := hp p h
    omega
  · rintro ⟨outer, rfl, hp, ht⟩
    exact ⟨fun p h => by have := hp p h; omega, by omega⟩

theorem balancedFrom_cons_of_ne {x : α} (ho : x ≠ opening) (hc : x ≠ closing) :
    BalancedFrom opening closing depth (x :: l) ↔ BalancedFrom opening closing depth l := by
  rw [balancedFrom_cons]
  simp only [List.count_cons_of_ne ho, List.count_cons_of_ne hc]
  exact ⟨fun ⟨hp, ht⟩ => ⟨hp, ht⟩, fun ⟨hp, ht⟩ => ⟨hp, ht⟩⟩

/-- Whether a list is balanced can be seen from any image that keeps the openings and the closings
apart from the rest. -/
theorem balancedFrom_filterMap (f : α → Option β) {opening' closing' : β}
    (hne : opening ≠ closing) (hne' : opening' ≠ closing')
    (ho : ∀ x, f x = some opening' ↔ x = opening) (hc : ∀ x, f x = some closing' ↔ x = closing) :
    BalancedFrom opening' closing' depth (l.filterMap f) ↔
      BalancedFrom opening closing depth l := by
  induction l generalizing depth with
  | nil => simp
  | cons x l ih =>
      by_cases hx : x = opening
      · subst hx
        rw [List.filterMap_cons_some ((ho x).2 rfl), balancedFrom_cons_opening hne,
          balancedFrom_cons_opening hne', ih]
      · by_cases hx' : x = closing
        · subst hx'
          rw [List.filterMap_cons_some ((hc x).2 rfl), balancedFrom_cons_closing hne,
            balancedFrom_cons_closing hne']
          simp only [ih]
        · rw [balancedFrom_cons_of_ne hx hx']
          cases hf : f x with
          | none => rw [List.filterMap_cons_none hf, ih]
          | some y =>
              have hy : y ≠ opening' := fun h => hx ((ho x).1 (h ▸ hf))
              have hy' : y ≠ closing' := fun h => hx' ((hc x).1 (h ▸ hf))
              rw [List.filterMap_cons_some hf, balancedFrom_cons_of_ne hy hy', ih]

end ArithTree
