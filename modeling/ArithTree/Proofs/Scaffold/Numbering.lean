import ArithTree.Postfix.Build
import ArithTree.Proofs.Postfix.Endings
import ArithTree.Proofs.Scaffold.Standing

/-!
# The numbers of the places

The places of a tree are numbered in the order in which they are placed: an operation comes before
its operands, and the right operand with all that is below it before the left one. Placing the
tokens of a tree backwards puts on record just these numbers, with the operation from which each
place hangs, whatever list the tree stands at the end of.
-/

namespace ArithTree

/-! ## The numbers in a tree -/

namespace Tree

/-- What stands at the places of the tree, each with all that is below it, in the order of their
numbers. -/
def places {α : Type} : Tree α → List (Tree α)
  | operand value => [operand value]
  | operation op left right => operation op left right :: (right.places ++ left.places)

def rootToken : Tree String → Token
  | operand text => .operand text
  | operation op _ _ => .operator op

/-- The records of placing the tree below `parent`, if the next number is `number`. -/
def placements (parent number : Nat) : Tree String → List Placement
  | operand text => [⟨.operand text, number, parent⟩]
  | operation op left right =>
      ⟨.operator op, number, parent⟩ ::
        (right.placements number (number + 1) ++ left.placements number (number + 1 + right.size))

@[simp] theorem length_places {α : Type} (t : Tree α) : t.places.length = t.size := by
  induction t with
  | operand value => rfl
  | operation op left right ihl ihr =>
      simp only [places, size, List.length_cons, List.length_append, ihl, ihr]
      omega

@[simp] theorem length_placements (parent number : Nat) (t : Tree String) :
    (t.placements parent number).length = t.size := by
  induction t generalizing parent number with
  | operand text => rfl
  | operation op left right ihl ihr =>
      simp only [placements, size, List.length_cons, List.length_append, ihl, ihr]
      omega

theorem map_token_placements (parent number : Nat) (t : Tree String) :
    (t.placements parent number).map Placement.token = (t.tokensWith id).reverse := by
  induction t generalizing parent number with
  | operand text => simp [placements]
  | operation op left right ihl ihr => simp [placements, ihl, ihr]

theorem map_place_placements (parent number : Nat) (t : Tree String) :
    (t.placements parent number).map Placement.place = List.range' number t.size := by
  induction t generalizing parent number with
  | operand text => rfl
  | operation op left right ihl ihr =>
      rw [placements, List.map_cons, List.map_append, ihl, ihr, List.range'_append_1, size,
        Nat.add_comm right.size, List.range'_succ]

/-- With `number` as the first number, the token at a place is the one that stands as far from the
end of the tokens as the place from the root. -/
theorem getElem?_reverse_tokensWith_of_mem {parent number : Nat} {t : Tree String} {p : Placement}
    (hp : p ∈ t.placements parent number) :
    number ≤ p.place ∧ (t.tokensWith id).reverse[p.place - number]? = some p.token := by
  obtain ⟨k, hk⟩ := List.getElem?_of_mem hp
  have hlt : k < t.size := by
    rw [← length_placements parent number t]
    exact (List.getElem?_eq_some_iff.1 hk).choose
  have hplace : p.place = number + k := by
    have h := congrArg (fun places => places[k]?) (map_place_placements parent number t)
    simp only [List.getElem?_map, hk, Option.map_some, List.getElem?_range' hlt,
      Option.some.injEq, Nat.one_mul] at h
    exact h
  have htoken : (t.tokensWith id).reverse[k]? = some p.token := by
    rw [← map_token_placements parent number, List.getElem?_map, hk, Option.map_some]
  rw [hplace, Nat.add_sub_cancel_left]
  exact ⟨Nat.le_add_right _ _, htoken⟩

/-- The places of the tree have the numbers from `first` on. At `p.parent` stands an operation that
has the token of `p` as its right operand, at the next place, or as its left one, behind all places
of the right one. -/
def Hangs (t : Tree String) (first : Nat) (p : Placement) : Prop :=
  ∃ n op left right, t.places[n]? = some (operation op left right) ∧ p.parent = first + n ∧
    ((p.place = p.parent + 1 ∧ p.token = right.rootToken) ∨
      (p.place = p.parent + 1 + right.size ∧ p.token = left.rootToken))

section Operands

variable {op : Operator} {left right : Tree String} {first : Nat} {p : Placement}

theorem Hangs.of_right (h : right.Hangs (first + 1) p) :
    (operation op left right).Hangs first p := by
  obtain ⟨n, op', left', right', hplace, hparent, hoperand⟩ := h
  have hlt : n < right.places.length := (List.getElem?_eq_some_iff.1 hplace).choose
  refine ⟨n + 1, op', left', right', ?_, by omega, hoperand⟩
  rw [places, List.getElem?_cons_succ, List.getElem?_append_left hlt, hplace]

theorem Hangs.of_left (h : left.Hangs (first + 1 + right.size) p) :
    (operation op left right).Hangs first p := by
  obtain ⟨n, op', left', right', hplace, hparent, hoperand⟩ := h
  refine ⟨right.size + n + 1, op', left', right', ?_, by omega, hoperand⟩
  rw [places, List.getElem?_cons_succ, ← right.length_places,
    List.getElem?_append_right (Nat.le_add_right _ _), Nat.add_sub_cancel_left, hplace]

end Operands

/-- Of all that is placed, only the root hangs from something outside the tree. -/
theorem placements_hang (parent number : Nat) (t : Tree String) :
    t.placements parent number =
        ⟨t.rootToken, number, parent⟩ :: (t.placements parent number).tail ∧
      ∀ p ∈ (t.placements parent number).tail, t.Hangs number p := by
  induction t generalizing parent number with
  | operand text => exact ⟨rfl, by simp [placements]⟩
  | operation op left right ihl ihr =>
      refine ⟨rfl, fun p hp => ?_⟩
      obtain ⟨hright, hinright⟩ := ihr number (number + 1)
      obtain ⟨hleft, hinleft⟩ := ihl number (number + 1 + right.size)
      have hroot : (operation op left right).places[0]? = some (operation op left right) := rfl
      rw [placements, List.tail_cons, hright, hleft, List.mem_append, List.mem_cons,
        List.mem_cons] at hp
      rcases hp with (rfl | hp) | rfl | hp
      · exact ⟨0, op, left, right, hroot, rfl, Or.inl ⟨rfl, rfl⟩⟩
      · exact (hinright p hp).of_right
      · exact ⟨0, op, left, right, hroot, rfl, Or.inr ⟨rfl, rfl⟩⟩
      · exact (hinleft p hp).of_left

end Tree

/-! ## The numbers on a scaffold -/

namespace Site

variable {α : Type} {read : String → Option α}

/-- What has come about at `last` when a tree with `count` places has been hung from the place
`found`: no other place has changed, and the climb from the cursor comes to what it comes to from
`found`. -/
structure Receives (site : Site α) (found count : Nat) (last : Site α) : Prop where
  size : last.scaffold.places.size = site.scaffold.places.size + count
  kept : ∀ n < site.scaffold.places.size, n ≠ found →
    last.scaffold.places[n]? = site.scaffold.places[n]?
  filled : ∀ {place : Place α}, site.scaffold.places[found]? = some place →
    last.scaffold.places[found]? = some (place.fill site.scaffold.places.size)
  climbs : last.scaffold.openAncestor? last.cursor = last.scaffold.openAncestor? found

theorem receives_operand (site : Site α) (found : Nat) (value : α) :
    site.Receives found 1 (site.hang found (.operand value)) where
  size := Scaffold.places_size_hang ..
  kept _ hlt hne := Scaffold.getElem?_hang_of_ne hne hlt _
  filled hplace := Scaffold.getElem?_hang_parent hplace _
  climbs := rfl

section Operation

variable {site middle last : Site α} {found : Nat} {op : Operator}

/-- When an operation has received its right operand, its left slot is the one that is found. -/
theorem Receives.openAncestor?_eq {count : Nat}
    (hr : (site.hang found (.operation op)).Receives site.scaffold.places.size count middle) :
    middle.scaffold.openAncestor? middle.cursor = some site.scaffold.places.size := by
  have hnew := Scaffold.getElem?_hang_new site.scaffold found (.operation op)
  rw [hr.climbs]
  exact Scaffold.openAncestor?_of_open (hr.filled hnew) rfl

/-- An operation that has received both operands is a tree that has been received. -/
theorem Receives.operation {place : Place α}
    (hplace : site.scaffold.places[found]? = some place) {countl countr : Nat}
    (hr : (site.hang found (.operation op)).Receives site.scaffold.places.size countr middle)
    (hl : middle.Receives site.scaffold.places.size countl last) :
    site.Receives found (countl + countr + 1) last := by
  have hlt : found < site.scaffold.places.size := Scaffold.lt_size_of_getElem? hplace
  have hsize : (site.hang found (.operation op)).scaffold.places.size =
      site.scaffold.places.size + 1 := Scaffold.places_size_hang ..
  have hsizer := hr.size
  have hnew := Scaffold.getElem?_hang_new site.scaffold found (.operation op)
  refine ⟨?_, fun n hn hne => ?_, fun h => ?_, ?_⟩
  · rw [hl.size, hsizer, hsize]
    omega
  · rw [hl.kept n (by omega) (by omega), hr.kept n (by omega) (by omega)]
    exact Scaffold.getElem?_hang_of_ne hne hn _
  · rw [hl.kept found (by omega) (by omega), hr.kept found (by omega) (by omega)]
    exact Scaffold.getElem?_hang_parent h _
  · rw [hl.climbs]
    exact Scaffold.openAncestor?_of_parent (hl.filled (hr.filled hnew)) rfl rfl hlt

end Operation

/-- Where a slot is free, the tokens of a tree are all placed, and their records are those of the
tree. The induction is on the tree: the operation takes the slot, and then its own two slots are
found, first the right one. -/
theorem exists_receives {t : Tree String} (hread : ∀ text ∈ t.operands, (read text).isSome)
    {site : Site α} {found : Nat}
    (hfound : site.scaffold.openAncestor? site.cursor = some found) :
    ∃ last, site.Receives found t.size last ∧ ∀ made rest,
      site.placeAll read made ((t.tokensWith id).reverse ++ rest) =
        last.placeAll read
          ((t.placements found site.scaffold.places.size).reverse ++ made) rest := by
  induction t generalizing site found with
  | operand text =>
      obtain ⟨value, hvalue⟩ := Option.isSome_iff_exists.1 (hread text (by simp))
      have hplace : site.place? read (.operand text) =
          some (site.hang found (.operand value),
            ⟨.operand text, site.scaffold.places.size, found⟩) := by
        simp [place?, hfound, Token.content?, hvalue]
      refine ⟨_, site.receives_operand found value, fun made rest => ?_⟩
      rw [Tree.tokensWith_operand]
      exact placeAll_of_some hplace made rest
  | operation op left right ihl ihr =>
      simp only [Tree.operands_operation, List.mem_append] at hread
      have hplace : site.place? read (.operator op) =
          some (site.hang found (.operation op),
            ⟨.operator op, site.scaffold.places.size, found⟩) := by
        simp [place?, hfound, Token.content?]
      have hnew := Scaffold.getElem?_hang_new site.scaffold found (.operation op)
      obtain ⟨middle, hr, hplacer⟩ := @ihr (fun text hmem => hread text (Or.inr hmem))
        (site.hang found (.operation op)) site.scaffold.places.size
        (Scaffold.openAncestor?_of_open hnew rfl)
      obtain ⟨last, hl, hplacel⟩ := @ihl (fun text hmem => hread text (Or.inl hmem))
        middle site.scaffold.places.size hr.openAncestor?_eq
      obtain ⟨place, hparent, -⟩ := Scaffold.isComplete_of_openAncestor? hfound
      refine ⟨last, hr.operation hparent hl, fun made rest => ?_⟩
      have hsize : (site.hang found (.operation op)).scaffold.places.size =
          site.scaffold.places.size + 1 := Scaffold.places_size_hang ..
      rw [Tree.reverse_tokensWith_operation, List.cons_append, List.append_assoc,
        placeAll_of_some hplace, hplacer, hplacel, hr.size, hsize]
      simp [Tree.placements]

/-- Where no slot is free, nothing more is put on record. -/
theorem placements_placeAll_of_full {site : Site α}
    (hfull : site.scaffold.openAncestor? site.cursor = none) (made : List Placement)
    (tokens : List Token) : (site.placeAll read made tokens).placements = made.reverse := by
  cases tokens with
  | nil => rfl
  | cons t rest => rw [placeAll_of_none (by simp [place?, hfull])]

end Site

/-- Placing a list backwards stops at the root of the tree that stands at its end. What was placed
by then is on record, and nothing else is. -/
theorem Postfix.placements_constructBackwards {α : Type} {read : String → Option α}
    {t : Tree String} (hread : ∀ text ∈ t.operands, (read text).isSome) (rest : List Token) :
    (constructBackwards read ((t.tokensWith id).reverse ++ rest)).placements =
      (t.placements 0 0).tail := by
  cases t with
  | operand text =>
      obtain ⟨value, hvalue⟩ := Option.isSome_iff_exists.1 (hread text (by simp))
      cases rest <;> simp [constructBackwards, Token.content?, hvalue, Tree.placements]
  | operation op left right =>
      simp only [Tree.operands_operation, List.mem_append] at hread
      let site : Site α := .ofRoot (.operation op)
      have hroot : site.scaffold.places[0]? = some (.empty (.operation op) none) := rfl
      obtain ⟨middle, hr, hplacer⟩ := @Site.exists_receives α read right
        (fun text hmem => hread text (Or.inr hmem)) site 0
        (Scaffold.openAncestor?_of_open hroot rfl)
      have hfilled := hr.filled hroot
      have hfound : middle.scaffold.openAncestor? middle.cursor = some 0 := by
        rw [hr.climbs]
        exact Scaffold.openAncestor?_of_open hfilled rfl
      obtain ⟨last, hl, hplacel⟩ := @Site.exists_receives α read left
        (fun text hmem => hread text (Or.inl hmem)) middle 0 hfound
      have hfull : last.scaffold.openAncestor? last.cursor = none := by
        rw [hl.climbs]
        exact Scaffold.openAncestor?_of_root (hl.filled hfilled) rfl rfl
      have hne : (right.tokensWith id).reverse ++ ((left.tokensWith id).reverse ++ rest) ≠ [] := by
        cases right <;> simp
      obtain ⟨second, more, htail⟩ := List.exists_cons_of_ne_nil hne
      have hplaced : (constructBackwards read (.operator op :: second :: more)).placements =
          (site.placeAll read [] (second :: more)).placements := rfl
      have hsize : middle.scaffold.places.size = 1 + right.size := hr.size
      rw [Tree.reverse_tokensWith_operation, List.cons_append, List.append_assoc, htail, hplaced,
        ← htail, hplacer, hplacel, Site.placements_placeAll_of_full hfull, hsize]
      simp [Tree.placements, site, Site.ofRoot, Scaffold.ofRoot]

end ArithTree
