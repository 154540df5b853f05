import ArithTree.Proofs.Expression.Acceptance
import ArithTree.Proofs.Postfix.Respelling
import ArithTree.Proofs.Postfix.Tracking
import ArithTree.Proofs.Token.Runs
import Mathlib.Data.List.Count

/-!
# What a tree holds of its text

On the way from a text to its tree no operand and no operator is lost, made twice or made up. The
operands of the tree are the numbers that are written in the text, in their order, and it holds as
many operations of an operator as the text has symbols of it. That is so for every text that is
accepted, whether or not it is an infix expression.
-/

namespace ArithTree

namespace Tree

variable {α : Type}

def operationsOf (op : Operator) : Tree α → Nat
  | operand _ => 0
  | operation other left right =>
      left.operationsOf op + right.operationsOf op + if other = op then 1 else 0

theorem count_operator_tokensWith (write : α → String) (op : Operator) (t : Tree α) :
    (t.tokensWith write).count (.operator op) = t.operationsOf op := by
  induction t with
  | operand value => simp [operationsOf]
  | operation other left right ihl ihr =>
      simp [operationsOf, ihl, ihr, List.count_singleton, Nat.add_assoc]

end Tree

/-! ## From tokens to a tree -/

namespace Postfix

variable {ts : List Token} {t : Tree Float}

theorem respelled?_eq_operator_iff {token : Token} {op : Operator} :
    token.respelled? = some (.operator op) ↔ token = .operator op := by
  cases token with
  | operand text =>
      cases hread : Numeral.read? text <;>
        simp [Token.respelled?, Token.content?, Content.token, hread]
  | operator other => simp [Token.respelled?, Token.content?, Content.token]
  | opening => simp [Token.respelled?, Token.content?]
  | closing => simp [Token.respelled?, Token.content?]

theorem operationsOf_of_build (h : build ts = .ok t) (op : Operator) :
    t.operationsOf op = ts.count (.operator op) := by
  calc
    t.operationsOf op = t.tokens.count (.operator op) :=
      (Tree.count_operator_tokensWith Numeral.write op t).symm
    _ = (t.tokens.map some).count (some (.operator op)) :=
      (List.count_map_of_injective t.tokens some (fun _ _ => Option.some.inj) _).symm
    _ = (ts.map Token.respelled?).count (some (.operator op)) := by rw [map_respelled?_of_build h]
    _ = ts.countP (fun token => token.respelled? == some (.operator op)) := List.countP_map
    _ = ts.count (.operator op) := by
      refine List.countP_congr fun token _ => ?_
      rw [beq_iff_eq, beq_iff_eq, respelled?_eq_operator_iff]

end Postfix

/-! ## From a text to a tree -/

namespace Expression

open Postfix

theorem filter_isOperand_of_ofText {source : String} {ts : List Token}
    (h : ofText source = .ok ts) :
    ts.filter Token.isOperand = (Text.digitRuns source.toList).map .operand := by
  obtain ⟨tokens, hscan, hreordered⟩ := exists_scan_of_ofText h
  rw [filter_isOperand_of_ofInfix hreordered, Token.filter_isOperand_of_scan hscan]

theorem count_operator_of_ofText {source : String} {ts : List Token} (h : ofText source = .ok ts)
    (op : Operator) : ts.count (.operator op) = source.toList.count op.symbol := by
  obtain ⟨tokens, hscan, hreordered⟩ := exists_scan_of_ofText h
  rw [(perm_of_ofInfix hreordered).count_eq, proper, List.count_filter rfl,
    Token.count_operator_of_scan hscan]

/-- Every run of digits is read as a number, and these numbers are the values of the operands. -/
theorem values_of_ofText {source : String} {ts : List Token} (h : ofText source = .ok ts) :
    (ts.filterMap Token.value?).map some = (Text.digitRuns source.toList).map Numeral.read? := by
  have hoperands := filter_isOperand_of_ofText h
  have hvalues : ts.filterMap Token.value? =
      (Text.digitRuns source.toList).filterMap Numeral.read? := by
    calc
      ts.filterMap Token.value? = (ts.filter Token.isOperand).filterMap Token.value? := by
        rw [List.filterMap_filter]
        refine List.filterMap_congr fun token _ => ?_
        cases token <;> rfl
      _ = ((Text.digitRuns source.toList).map Token.operand).filterMap Token.value? := by
        rw [hoperands]
      _ = (Text.digitRuns source.toList).filterMap Numeral.read? := List.filterMap_map
  have hread : ∀ run ∈ Text.digitRuns source.toList, (Numeral.read? run).isSome := by
    intro run hrun
    have hmem : .operand run ∈ ts.filter Token.isOperand := hoperands ▸ List.mem_map_of_mem hrun
    exact Numeral.isSome_read?_of_isDigits (isDigits_of_ofText h (List.mem_filter.1 hmem).1)
  rw [hvalues, List.map_filterMap_some_eq_filter_map_isSome, List.filter_eq_self]
  intro value hvalue
  obtain ⟨run, hrun, rfl⟩ := List.mem_map.1 hvalue
  exact hread run hrun

/-- The tree of an accepted text holds the numbers of the text in their order, and as many
operations of each operator as the text has symbols of it. -/
theorem operands_root_of_parse {source : String} {e : Expression} (h : parse source = .ok e) :
    ∃ root, e.root = some root ∧
      root.operands.map some = (Text.digitRuns source.toList).map Numeral.read? ∧
      ∀ op, root.operationsOf op = source.toList.count op.symbol := by
  obtain ⟨ts, root, htext, hbuild, rfl⟩ := parse_eq_ok_iff.1 h
  refine ⟨root, rfl, ?_, fun op => ?_⟩
  · rw [operands_of_build hbuild, values_of_ofText htext]
  · rw [operationsOf_of_build hbuild, count_operator_of_ofText htext]

/-- The text `12+ ( ) 007` is no infix expression. It is accepted, and its tree is a sum of twelve
and seven. -/
theorem operands_root_of_empty_group : ∃ e root, parse "12+ ( ) 007" = .ok e ∧
    e.root = some root ∧
    root.operands.map some = [some (.ofScientific 12 false 0), some (.ofScientific 7 false 0)] ∧
    root.operationsOf .add = 1 := by
  have htext : ofText "12+ ( ) 007" =
      .ok [.operand "12", .operand "007", .operator .add] := by rfl
  obtain ⟨tree, htree⟩ : ∃ tree,
      build [.operand "12", .operand "007", .operator .add] = .ok tree :=
    ⟨_, build_eq_ok_iff.2 rfl⟩
  have hparse : parse "12+ ( ) 007" = .ok ⟨some tree, "12+ ( ) 007", "12 007 +"⟩ :=
    parse_eq_ok_iff.2 ⟨_, tree, htext, htree, rfl⟩
  obtain ⟨root, hroot, hoperands, hoperations⟩ := operands_root_of_parse hparse
  refine ⟨_, root, hparse, hroot, ?_, ?_⟩
  · rw [hoperands]
    rfl
  · rw [hoperations]
    rfl

end Expression

end ArithTree
