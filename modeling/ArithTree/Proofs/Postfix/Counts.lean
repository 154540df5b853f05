import ArithTree.Proofs.Postfix.Endings
import ArithTree.Proofs.Postfix.Meaning

/-!
# How many operands and operations

A tree has one operand more than operations, and its postfix form has one token for each of them and
no other token. So the form passes the quick look, which counts tokens and looks at the ends of the
list; and a tree that is built from a list has as many places of each kind as the list has tokens.
-/

namespace ArithTree

namespace Tree

variable {α β : Type}

theorem operandCount_eq_operationCount_add_one (t : Tree α) :
    t.operandCount = t.operationCount + 1 := by
  induction t with
  | operand value => simp
  | operation op left right ihl ihr =>
      rw [operandCount_operation, operationCount_operation, ihl, ihr]
      omega

@[simp] theorem operandCount_map (f : α → β) (t : Tree α) :
    (t.map f).operandCount = t.operandCount := by
  rw [operandCount_eq_operationCount_add_one, operandCount_eq_operationCount_add_one,
    operationCount_map]

theorem size_eq_operandCount_add (t : Tree α) :
    t.size = t.operandCount + t.operationCount := by
  induction t with
  | operand value => simp [size]
  | operation op left right ihl ihr =>
      rw [size, operandCount_operation, operationCount_operation, ihl, ihr]
      omega

theorem countP_isOperand_tokensWith (write : α → String) (t : Tree α) :
    (t.tokensWith write).countP Token.isOperand = t.operandCount := by
  induction t with
  | operand value => simp [Token.isOperand]
  | operation op left right ihl ihr => simp [ihl, ihr, Token.isOperand]

end Tree

namespace Postfix

/-- A tree of numbers that a list means is the tree of texts that the list writes, read. -/
theorem exists_map_of_meaning? {ts : List Token} {root : Tree Float}
    (h : meaning? Numeral.read? ts = some root) :
    ∃ (t : Tree String) (value : String → Float), ts = t.tokensWith id ∧ root = t.map value := by
  obtain ⟨hts, hread⟩ := isSome_meaning?_iff.1 (Option.isSome_of_eq_some h)
  obtain ⟨t, rfl⟩ := hts.exists_tree
  have hvalue : ∀ text ∈ t.operands,
      Numeral.read? text = some ((Numeral.read? text).getD 0) := by
    intro text hmem
    have htoken := Tree.operand_mem_tokensWith_iff.2 hmem
    obtain ⟨x, hx⟩ := Option.isSome_iff_exists.1 (hread text htoken)
    rw [hx, Option.getD_some]
  have hroot := meaning?_tokensWith id (fun text => (Numeral.read? text).getD 0) t hvalue
  rw [h, Option.some.injEq] at hroot
  exact ⟨t, _, rfl, hroot⟩

/-- The operations of a tree are the operators of its list. -/
theorem operationCount_of_meaning? {ts : List Token} {root : Tree Float}
    (h : meaning? Numeral.read? ts = some root) :
    root.operationCount = ts.countP fun t => t.operator?.isSome := by
  obtain ⟨t, value, rfl, rfl⟩ := exists_map_of_meaning? h
  rw [Tree.operationCount_map, Tree.countP_tokensWith]

theorem operandCount_of_meaning? {ts : List Token} {root : Tree Float}
    (h : meaning? Numeral.read? ts = some root) :
    root.operandCount = ts.countP Token.isOperand := by
  obtain ⟨t, value, rfl, rfl⟩ := exists_map_of_meaning? h
  rw [Tree.operandCount_map, Tree.countP_isOperand_tokensWith]

end Postfix

/-- A tree has one operand more than operations. Its tokens are as many operands and as many
operators as it has operands and operations, and nothing else, and they pass the quick look. Of
whatever list the tree is built, it has as many operands and operations as the list has operands and
operators. -/
theorem Tree.counts_eq_token_counts (t : Tree Float) :
    t.operandCount = t.operationCount + 1 ∧
      t.tokens.countP Token.isOperand = t.operandCount ∧
      t.tokens.countP (fun token => token.operator?.isSome) = t.operationCount ∧
      t.tokens.length = t.operandCount + t.operationCount ∧
      Postfix.isPlausible t.tokens = true ∧
      ∀ ts, Postfix.build ts = .ok t →
        t.operandCount = ts.countP Token.isOperand ∧
        t.operationCount = ts.countP (fun token => token.operator?.isSome) ∧
        ts.length = t.operandCount + t.operationCount := by
  refine ⟨t.operandCount_eq_operationCount_add_one, t.countP_isOperand_tokensWith _,
    t.countP_tokensWith _, ?_, ?_, fun ts hbuild => ?_⟩
  · rw [tokens, length_tokensWith, size_eq_operandCount_add]
  · exact Postfix.isPlausible_of_wellFormed (t.wellFormed_tokensWith _)
  · have hmeaning := Postfix.build_eq_ok_iff.1 hbuild
    refine ⟨Postfix.operandCount_of_meaning? hmeaning, Postfix.operationCount_of_meaning? hmeaning,
      ?_⟩
    obtain ⟨written, value, rfl, rfl⟩ := Postfix.exists_map_of_meaning? hmeaning
    rw [length_tokensWith, ← size_eq_operandCount_add, size_map]

/-- The tree of `1 2 - 3 007 ^ *` has three operations on four operands. -/
theorem Tree.counts_eq_token_counts_of_product :
    let ts : List Token :=
      [.operand "1", .operand "2", .operator .subtract, .operand "3", .operand "007",
        .operator .exponentiate, .operator .multiply]
    ∃ t, Postfix.build ts = .ok t ∧ t.operandCount = 4 ∧ t.operationCount = 3 := by
  intro ts
  obtain ⟨t, hbuild⟩ : ∃ t, Postfix.build ts = .ok t := ⟨_, Postfix.build_eq_ok_iff.2 rfl⟩
  obtain ⟨-, -, -, -, -, hcounts⟩ := t.counts_eq_token_counts
  obtain ⟨hoperands, hoperations, -⟩ := hcounts ts hbuild
  exact ⟨t, hbuild, hoperands, hoperations⟩

end ArithTree
