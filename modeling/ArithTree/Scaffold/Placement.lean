import ArithTree.Scaffold.Basic
import ArithTree.Token

/-!
# Placing tokens

The tokens of a postfix expression are placed from the last one backwards. The last token is the
root; every other token is hung below the nearest operation with a free slot, and an operation
that is hung becomes the cursor from which the next slot is looked for. Every token placed below
the root is on record.
-/

namespace ArithTree

variable {α : Type}

/-- The record of a token placed below the root. -/
structure Placement where
  token : Token
  /-- the number of its place -/
  place : Nat
  /-- the number of the operation it hangs from -/
  parent : Nat
  deriving DecidableEq, Repr

/-- What a token puts at its place. A parenthesis has no place, nor has an operand whose text
cannot be read. -/
def Token.content? (read : String → Option α) : Token → Option (Content α)
  | operand text => (read text).map .operand
  | operator op => some (.operation op)
  | opening => none
  | closing => none

/-- A scaffold and the operation from which the next free slot is looked for. -/
structure Site (α : Type) where
  scaffold : Scaffold α
  cursor : Nat

namespace Site

def ofRoot (content : Content α) : Site α := ⟨.ofRoot content, 0⟩

/-- Hangs a place below `parent`. An operation becomes the cursor; below an operand nothing can be
hung, and the cursor is the operation it hangs from. -/
def hang (site : Site α) (parent : Nat) (content : Content α) : Site α :=
  let cursor :=
    match content with
    | .operand _ => parent
    | .operation _ => site.scaffold.places.size
  ⟨site.scaffold.hang parent content, cursor⟩

def place? (read : String → Option α) (site : Site α) (t : Token) :
    Option (Site α × Placement) :=
  match site.scaffold.openAncestor? site.cursor, t.content? read with
  | some parent, some content =>
      let number := site.scaffold.places.size
      some (site.hang parent content, ⟨t, number, parent⟩)
  | _, _ => none

end Site

structure Placing (α : Type) where
  /-- the placements that were made, in order -/
  placements : List Placement
  /-- the site after the last token, unless some token could not be placed -/
  site : Option (Site α)

/-- Places tokens in turn until one cannot be placed; `made` holds the earlier placements, the last
one first. -/
def Site.placeAll (read : String → Option α) (site : Site α) (made : List Placement) :
    List Token → Placing α
  | [] => ⟨made.reverse, some site⟩
  | t :: rest =>
      match site.place? read t with
      | none => ⟨made.reverse, none⟩
      | some (next, placement) => next.placeAll read (placement :: made) rest

namespace Site

variable {read : String → Option α}

theorem placeAll_nil (site : Site α) (made : List Placement) :
    site.placeAll read made [] = ⟨made.reverse, some site⟩ := rfl

theorem placeAll_of_none {site : Site α} {t : Token} (h : site.place? read t = none)
    (made : List Placement) (rest : List Token) :
    site.placeAll read made (t :: rest) = ⟨made.reverse, none⟩ := by
  simp [placeAll, h]

theorem placeAll_of_some {site next : Site α} {t : Token} {placement : Placement}
    (h : site.place? read t = some (next, placement)) (made : List Placement)
    (rest : List Token) :
    site.placeAll read made (t :: rest) = next.placeAll read (placement :: made) rest := by
  simp [placeAll, h]

end Site

end ArithTree
