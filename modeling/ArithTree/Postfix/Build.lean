import ArithTree.Postfix.Plausible
import ArithTree.Scaffold.Assembly
import ArithTree.Scaffold.Placement

/-!
# From postfix order to a tree

A list that looks like a postfix expression is placed on a scaffold, and the scaffold is taken
apart into a tree. Whatever is wrong with the list, the answer is that it is no expression.
-/

namespace ArithTree.Postfix

variable {α : Type}

structure Construction (α : Type) where
  /-- the placements that were made, also of a list that is no expression -/
  placements : List Placement
  tree : Option (Tree α)

def constructBackwards (read : String → Option α) : List Token → Construction α
  | [] => ⟨[], none⟩
  | [single] =>
      match single.content? read with
      | some (.operand value) => ⟨[], some (.operand value)⟩
      | _ => ⟨[], none⟩
  | last :: rest =>
      match last.content? read with
      | some (.operation op) =>
          let placing := (Site.ofRoot (.operation op)).placeAll read [] rest
          ⟨placing.placements, placing.site.bind fun site => site.scaffold.toTree?⟩
      | _ => ⟨[], none⟩

def constructWith (read : String → Option α) (tokens : List Token) : Construction α :=
  if isPlausible tokens then constructBackwards read tokens.reverse else ⟨[], none⟩

def construct (tokens : List Token) : Construction Float := constructWith Numeral.read? tokens

def buildWith (read : String → Option α) (tokens : List Token) : Except Cause (Tree α) :=
  match (constructWith read tokens).tree with
  | some tree => .ok tree
  | none => .error .invalidExpression

def build (tokens : List Token) : Except Cause (Tree Float) := buildWith Numeral.read? tokens

theorem buildWith_eq_ok_iff {read : String → Option α} {tokens : List Token} {tree : Tree α} :
    buildWith read tokens = .ok tree ↔ (constructWith read tokens).tree = some tree := by
  unfold buildWith
  split <;> simp_all

theorem buildWith_eq_error_iff {read : String → Option α} {tokens : List Token} {cause : Cause} :
    buildWith read tokens = .error cause ↔
      cause = .invalidExpression ∧ (constructWith read tokens).tree = none := by
  unfold buildWith
  split
  · simp_all
  · simp_all
    exact eq_comm

end ArithTree.Postfix
