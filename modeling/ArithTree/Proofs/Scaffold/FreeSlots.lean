import ArithTree.Postfix.Build
import ArithTree.Proofs.Postfix.Endings
import ArithTree.Proofs.Scaffold.Cursor
import Mathlib.Algebra.Ring.Nat

/-!
# Free slots

Every token that is placed below the root takes one free slot, and an operator brings two with it.
A list that passes the quick look holds one operand more than other tokens, so when all of it has
been placed no slot is free. Only the numbers of the tokens count here, not their order: a list in
a wrong order fails while it is placed.
-/

namespace ArithTree

variable {α : Type}

def Content.slots : Content α → Nat
  | operand _ => 0
  | operation _ => 2

namespace Place

/-- How many slots of an operation are free. An operand has none. -/
def freeSlots (p : Place α) : Nat :=
  match p.content with
  | .operand _ => 0
  | .operation _ => (if p.left.isSome then 0 else 1) + (if p.right.isSome then 0 else 1)

@[simp] theorem freeSlots_empty (content : Content α) (parent : Option Nat) :
    (empty content parent).freeSlots = content.slots := by
  cases content <;> rfl

theorem freeSlots_fill {p : Place α} (hopen : p.IsOpen) (child : Nat) :
    (p.fill child).freeSlots + 1 = p.freeSlots := by
  obtain ⟨content, parent, left, right⟩ := p
  obtain ⟨⟨op, hop⟩, hincomplete⟩ := hopen
  cases hop
  cases right with
  | none => cases left <;> rfl
  | some r =>
      cases left with
      | none => rfl
      | some l => contradiction

theorem isComplete_of_freeSlots {p : Place α} {op : Operator} (hop : p.content = .operation op)
    (h : p.freeSlots = 0) : p.isComplete = true := by
  obtain ⟨content, parent, left, right⟩ := p
  cases hop
  cases left <;> cases right <;> simp_all [freeSlots, isComplete]

end Place

namespace Scaffold

def freeSlots (s : Scaffold α) : Nat := (s.places.toList.map Place.freeSlots).sum

@[simp] theorem freeSlots_ofRoot (content : Content α) :
    (ofRoot content).freeSlots = content.slots := by
  simp [freeSlots, ofRoot]

theorem sum_map_modify {β : Type} {l : List β} {n : Nat} {x : β} (h : l[n]? = some x)
    (size : β → Nat) (change : β → β) :
    ((l.modify n change).map size).sum + size x = (l.map size).sum + size (change x) := by
  induction l generalizing n with
  | nil => contradiction
  | cons y l ih =>
      cases n with
      | zero =>
          cases h
          simp only [List.modify_zero_cons, List.map_cons, List.sum_cons]
          omega
      | succ n =>
          have hrest := ih h
          simp only [List.modify_succ_cons, List.map_cons, List.sum_cons]
          omega

/-- What is hung takes one free slot and brings its own. -/
theorem freeSlots_hang {s : Scaffold α} {parent : Nat} {place : Place α}
    (hplace : s.places[parent]? = some place) (hopen : place.IsOpen) (content : Content α) :
    (s.hang parent content).freeSlots + 1 = s.freeSlots + content.slots := by
  have hplace' : s.places.toList[parent]? = some place := by rw [Array.getElem?_toList, hplace]
  have hsum := sum_map_modify hplace' Place.freeSlots fun p => p.fill s.places.size
  have hfill := Place.freeSlots_fill hopen s.places.size
  simp only [freeSlots, hang, Array.toList_push, Array.toList_modify, List.map_append,
    List.sum_append, List.map_singleton, List.sum_singleton, Place.freeSlots_empty]
  omega

theorem isComplete_of_freeSlots {s : Scaffold α} (h : s.freeSlots = 0) {n : Nat} {place : Place α}
    {op : Operator} (hplace : s.places[n]? = some place) (hop : place.content = .operation op) :
    place.isComplete = true := by
  have hmem : place ∈ s.places.toList := by
    rw [← Array.getElem?_toList] at hplace
    exact List.mem_of_getElem? hplace
  have hzero := List.sum_eq_zero_iff_forall_eq_nat.1 h place.freeSlots (List.mem_map_of_mem hmem)
  exact Place.isComplete_of_freeSlots hop hzero

end Scaffold

/-! ## Placing a list -/

namespace Site

variable {read : String → Option α}

theorem slots_of_content? {t : Token} {content : Content α} (h : t.content? read = some content) :
    content.slots = if t.isOperand then 0 else 2 := by
  cases t with
  | operand text =>
      obtain ⟨value, -, rfl⟩ := Option.map_eq_some_iff.1 h
      rfl
  | operator op =>
      cases h
      rfl
  | opening => contradiction
  | closing => contradiction

/-- The books of one placement. -/
theorem Sound.freeSlots_place? {site next : Site α} (h : site.Sound) {t : Token}
    {placement : Placement} (hplace : site.place? read t = some (next, placement)) :
    next.Sound ∧ next.scaffold.places.size = site.scaffold.places.size + 1 ∧
      next.scaffold.freeSlots + 1 = site.scaffold.freeSlots + if t.isOperand then 0 else 2 := by
  obtain ⟨found, content, hfound, hcontent, rfl, -⟩ := place?_eq_some_iff.1 hplace
  obtain ⟨place, hat, hopen⟩ := h.openAt hfound
  refine ⟨h.hang hfound content, Scaffold.places_size_hang .., ?_⟩
  rw [← slots_of_content? hcontent]
  exact Scaffold.freeSlots_hang hat hopen content

/-- The books of placing a list: one place and one slot taken for each token, two slots brought by
each one that is no operand. -/
theorem Sound.freeSlots_placeAll {site last : Site α} (h : site.Sound) {made : List Placement}
    {tokens : List Token} (hlast : (site.placeAll read made tokens).site = some last) :
    last.scaffold.places.size = site.scaffold.places.size + tokens.length ∧
      last.scaffold.freeSlots + tokens.length =
        site.scaffold.freeSlots + 2 * tokens.countP fun t => !t.isOperand := by
  induction tokens generalizing site made with
  | nil =>
      cases hlast
      simp
  | cons t rest ih =>
      cases hplace : site.place? read t with
      | none =>
          rw [placeAll_of_none hplace] at hlast
          contradiction
      | some pair =>
          rw [placeAll_of_some hplace] at hlast
          have hnext := h.freeSlots_place? hplace
          have hrest := ih hnext.1 hlast
          rw [List.length_cons, List.countP_cons]
          cases hkind : t.isOperand <;> simp [hkind] at hnext ⊢ <;> omega

end Site

namespace Postfix

variable {read : String → Option α}

/-- The site at which a list comes to be placed, if it has an operator at the end and every token
before finds its place. -/
def placed? (read : String → Option α) (tokens : List Token) : Option (Site α) :=
  match tokens.reverse with
  | .operator op :: rest => ((Site.ofRoot (.operation op)).placeAll read [] rest).site
  | _ => none

theorem placed?_eq_some_iff {tokens : List Token} {site : Site α} :
    placed? read tokens = some site ↔ ∃ op rest, tokens.reverse = .operator op :: rest ∧
      ((Site.ofRoot (.operation op)).placeAll read [] rest).site = some site := by
  unfold placed?
  split
  · rename_i op rest hreverse
    simp [hreverse]
  · rename_i hother
    constructor
    · intro h
      contradiction
    · intro h
      obtain ⟨op, rest, hreverse, -⟩ := h
      exact (hother op rest hreverse).elim

theorem sound_of_placed? {tokens : List Token} {site : Site α}
    (h : placed? read tokens = some site) : site.Sound := by
  obtain ⟨op, rest, -, hsite⟩ := placed?_eq_some_iff.1 h
  exact (Site.sound_ofRoot op).placeAll hsite

/-- A list that passes the quick look is built from the site at which it comes to be placed. -/
theorem tree_constructWith_of_placed? {tokens : List Token} {site : Site α}
    (hpasses : isPlausible tokens = true) (h : placed? read tokens = some site) :
    (constructWith read tokens).tree = site.scaffold.toTree? := by
  obtain ⟨op, rest, hreverse, hsite⟩ := placed?_eq_some_iff.1 h
  rw [constructWith, if_pos hpasses, hreverse]
  cases rest with
  | nil =>
      rw [List.reverse_eq_cons_iff] at hreverse
      subst hreverse
      contradiction
  | cons second rest =>
      show ((Site.ofRoot (.operation op)).placeAll read [] (second :: rest)).site.bind _ = _
      rw [hsite, Option.bind_some]

/-- When a list that passes the quick look has been placed, there is a place for each token and
every slot is filled. -/
theorem freeSlots_of_placed? {tokens : List Token} {site : Site α}
    (hpasses : isPlausible tokens = true) (h : placed? read tokens = some site) :
    site.scaffold.places.size = tokens.length ∧ site.scaffold.freeSlots = 0 := by
  obtain ⟨op, rest, hreverse, hsite⟩ := placed?_eq_some_iff.1 h
  have hbooks := (Site.sound_ofRoot op).freeSlots_placeAll hsite
  have hcount := countP_of_isPlausible hpasses
  have hlength := length_eq_countP_isOperand_add tokens
  have hroot : (Token.operator op).isOperand = false := rfl
  have hsize : tokens.length = rest.length + 1 := by
    rw [← List.length_reverse, hreverse, List.length_cons]
  have hothers : tokens.countP (fun t => !t.isOperand) =
      rest.countP (fun t => !t.isOperand) + 1 := by
    rw [← List.countP_reverse, hreverse, List.countP_cons, hroot]
    rfl
  have hone : (Site.ofRoot (.operation op) : Site α).scaffold.places.size = 1 := rfl
  have htwo : (Site.ofRoot (.operation op) : Site α).scaffold.freeSlots = 2 :=
    Scaffold.freeSlots_ofRoot _
  omega

/-- The list `1 2 + + 3 4 *` has as many tokens of each kind as an expression, but `3 4 *` is
complete before all of it has been placed. -/
example :
    let tokens : List Token := [.operand "1", .operand "2", .operator .add, .operator .add,
      .operand "3", .operand "4", .operator .multiply]
    isPlausible tokens = true ∧ (placed? some tokens).isNone = true := by
  cbv

end Postfix

end ArithTree
