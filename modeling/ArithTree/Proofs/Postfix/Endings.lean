import ArithTree.Proofs.Postfix.OperatorStack
import ArithTree.Postfix.Grammar
import ArithTree.Postfix.Plausible
import ArithTree.Tree.Count
import ArithTree.Tree.Tokens

/-!
# Postfix expressions at the end of a list

A postfix expression is the postfix form of a tree of texts. A list has at most one of them at its
end, since the last token says how many operands have to stand before it; and a list without
parentheses that passes the quick look has one.
-/

namespace ArithTree

namespace Tree

variable {α : Type}

theorem operand_mem_tokensWith_iff {t : Tree String} {text : String} :
    .operand text ∈ t.tokensWith id ↔ text ∈ t.operands := by
  induction t with
  | operand other => simp
  | operation op left right ihl ihr => simp [ihl, ihr]

theorem length_tokensWith (write : α → String) (t : Tree α) :
    (t.tokensWith write).length = t.size := by
  induction t with
  | operand value => simp [size]
  | operation op left right ihl ihr => simp [size, ihl, ihr, Nat.add_assoc]

theorem countP_tokensWith (write : α → String) (t : Tree α) :
    (t.tokensWith write).countP (fun token => token.operator?.isSome) = t.operationCount := by
  induction t with
  | operand value => simp [Token.operator?]
  | operation op left right ihl ihr =>
      have hop : (Token.operator op).operator?.isSome = true := rfl
      simp [ihl, ihr, hop, Nat.add_assoc]

theorem wellFormed_tokensWith (write : α → String) (t : Tree α) :
    Postfix.WellFormed (t.tokensWith write) := by
  induction t with
  | operand value =>
      rw [tokensWith_operand]
      exact .operand _
  | operation op left right ihl ihr =>
      rw [tokensWith_operation]
      exact .operation op ihl ihr

/-- Read backwards, an operation comes first, and behind it first the right operand. -/
theorem reverse_tokensWith_operation (op : Operator) (left right : Tree String) :
    ((operation op left right).tokensWith id).reverse =
      .operator op :: ((right.tokensWith id).reverse ++ (left.tokensWith id).reverse) := by
  simp

/-- Read backwards, the tokens of a tree show where they end: a tree is told from what is behind
it. -/
theorem eq_of_reverse_tokensWith_append {t u : Tree String} {rest more : List Token}
    (h : (t.tokensWith id).reverse ++ rest = (u.tokensWith id).reverse ++ more) :
    t = u ∧ rest = more := by
  induction t generalizing u rest more with
  | operand text =>
      cases u with
      | operand other => simpa using h
      | operation op left right => simp at h
  | operation op left right ihl ihr =>
      cases u with
      | operand other => simp at h
      | operation op' left' right' =>
          simp only [reverse_tokensWith_operation, List.cons_append, List.append_assoc,
            List.cons.injEq, Token.operator.injEq] at h
          obtain ⟨rfl, htail⟩ := h
          obtain ⟨rfl, hleft⟩ := ihr htail
          obtain ⟨rfl, hrest⟩ := ihl hleft
          exact ⟨rfl, hrest⟩

end Tree

namespace Postfix

/-- A postfix expression is the postfix form of a tree of texts. -/
theorem WellFormed.exists_tree {ts : List Token} (h : WellFormed ts) :
    ∃ t : Tree String, ts = t.tokensWith id := by
  induction h with
  | operand text => exact ⟨.operand text, by simp⟩
  | operation op _ _ ihl ihr =>
      obtain ⟨left, rfl⟩ := ihl
      obtain ⟨right, rfl⟩ := ihr
      exact ⟨.operation op left right, by simp⟩

/-- Only one postfix expression stands at the end of a list. -/
theorem WellFormed.eq_of_suffix {ts ending other : List Token} (h : WellFormed ending)
    (hother : WellFormed other) (hts : ending <:+ ts) (hts' : other <:+ ts) : ending = other := by
  obtain ⟨t, rfl⟩ := h.exists_tree
  obtain ⟨u, rfl⟩ := hother.exists_tree
  obtain ⟨before, hbefore⟩ := hts
  obtain ⟨before', hbefore'⟩ := hts'
  have hreverse := congrArg List.reverse (hbefore.trans hbefore'.symm)
  rw [List.reverse_append, List.reverse_append] at hreverse
  rw [(Tree.eq_of_reverse_tokensWith_append hreverse).1]

/-- The expression at the end of a list is the whole list, or the list is none. -/
theorem WellFormed.length_eq_iff_of_suffix {ts ending : List Token} (h : WellFormed ending)
    (hts : ending <:+ ts) : ending.length = ts.length ↔ WellFormed ts := by
  constructor
  · intro hlength
    rw [← hts.eq_of_length hlength]
    exact h
  · intro hwhole
    rw [h.eq_of_suffix hwhole hts (List.suffix_refl ts)]

/-! ## Lists that pass the quick look -/

/-- A list that is read backwards begins with as many trees as it has operands in excess. The
induction is on the list: an operand is a tree, and an operator joins the first two of the trees
behind it. -/
theorem exists_trees_of_countP_le {us : List Token} (hproper : ∀ t ∈ us, isParenthesis t = false)
    {count : Nat}
    (hcount : us.countP (fun t => !t.isOperand) + count ≤ us.countP Token.isOperand) :
    ∃ (trees : List (Tree String)) (rest : List Token), trees.length = count ∧
      us = trees.flatMap (fun t => (t.tokensWith id).reverse) ++ rest := by
  induction us generalizing count with
  | nil =>
      have hzero : count = 0 := by simpa using hcount
      exact ⟨[], [], by simp [hzero], rfl⟩
  | cons t us ih =>
      cases count with
      | zero => exact ⟨[], t :: us, rfl, rfl⟩
      | succ count =>
          have ih := @ih (fun u hu => hproper u (List.mem_cons_of_mem _ hu))
          cases t with
          | operand text =>
              have hoperand : (Token.operand text).isOperand = true := rfl
              simp only [List.countP_cons, hoperand, Bool.not_true, Bool.false_eq_true, if_false,
                if_true] at hcount
              obtain ⟨trees, rest, hlength, hus⟩ := @ih count (by omega)
              exact ⟨.operand text :: trees, rest, by simp [hlength], by simp [hus]⟩
          | operator op =>
              have hoperator : (Token.operator op).isOperand = false := rfl
              simp only [List.countP_cons, hoperator, Bool.not_false, Bool.false_eq_true, if_false,
                if_true] at hcount
              obtain ⟨trees, rest, hlength, hus⟩ := @ih (count + 2) (by omega)
              match trees with
              | right :: left :: others =>
                  refine ⟨.operation op left right :: others, rest, ?_, ?_⟩
                  · simpa using hlength
                  · simp [hus]
          | opening =>
              have hopening := hproper .opening List.mem_cons_self
              contradiction
          | closing =>
              have hclosing := hproper .closing List.mem_cons_self
              contradiction

theorem countP_of_isPlausible {ts : List Token} (h : isPlausible ts = true) :
    ts.countP (fun t => !t.isOperand) + 1 = ts.countP Token.isOperand := by
  have hlength := length_eq_countP_isOperand_add ts
  match ts with
  | [] => contradiction
  | [single] =>
      have hsingle : single.isOperand = true := h
      simp [hsingle]
  | [_, _] => contradiction
  | first :: second :: third :: rest =>
      simp only [isPlausible, Bool.and_eq_true, beq_iff_eq] at h
      omega

/-- The list has a postfix expression at its end. -/
theorem exists_tree_of_isPlausible {ts : List Token} (h : isPlausible ts = true)
    (hproper : ∀ t ∈ ts, isParenthesis t = false) :
    ∃ (before : List Token) (tree : Tree String), ts = before ++ tree.tokensWith id := by
  have hcount := countP_of_isPlausible h
  rw [← List.countP_reverse, ← ts.countP_reverse] at hcount
  obtain ⟨trees, rest, hlength, hts⟩ := exists_trees_of_countP_le
    (fun t ht => hproper t (List.mem_reverse.1 ht)) (Nat.le_of_eq hcount)
  obtain ⟨tree, rfl⟩ := List.length_eq_one_iff.1 hlength
  refine ⟨rest.reverse, tree, ?_⟩
  have hreverse := congrArg List.reverse hts
  simpa using hreverse

end Postfix

end ArithTree
