import ArithTree.Expression
import ArithTree.Proofs.Postfix.Endings
import ArithTree.Proofs.Postfix.Respelling
import ArithTree.Proofs.Postfix.Substitution

/-!
# Renaming

The tokens of an expression may be written otherwise: operands with other texts, operators as others
of the same rank. Of two lists that differ in this only, one is reordered as the other is, and one
is parsed exactly if the other is, as long as the texts of numbers stay texts of numbers and the
others do not become any. The two trees have the same shape, and what stands at each place of the
one is renamed in the other. So an operand is one whatever is written in it.
-/

namespace ArithTree

open Postfix

/-- Another text for every operand, and another operator of the same rank for every operator. -/
structure Renaming where
  text : String → String
  operator : Operator → Operator
  rank_operator : ∀ op, (operator op).rank = op.rank

namespace Renaming

variable (ρ : Renaming)

def token : Token → Token
  | .operand text => .operand (ρ.text text)
  | .operator op => .operator (ρ.operator op)
  | .opening => .opening
  | .closing => .closing

/-- The renamings are the mappings of tokens that keep what kind of token it is and the rank of
every operator. -/
theorem exists_token_eq_iff {f : Token → Token} :
    (∃ ρ : Renaming, ρ.token = f) ↔
      (∀ text, (f (.operand text)).isOperand = true) ∧
        (∀ op, ∃ other : Operator, f (.operator op) = .operator other ∧ other.rank = op.rank) ∧
        f .opening = .opening ∧ f .closing = .closing := by
  constructor
  · rintro ⟨ρ, rfl⟩
    exact ⟨fun _ => rfl, fun op => ⟨ρ.operator op, rfl, ρ.rank_operator op⟩, rfl, rfl⟩
  · rintro ⟨hoperand, hoperator, hopening, hclosing⟩
    choose operator hoperator hrank using hoperator
    refine ⟨⟨fun text => (f (.operand text)).text, operator, hrank⟩, funext fun t => ?_⟩
    cases t with
    | operand text =>
        have hkind := hoperand text
        show Token.operand (f (.operand text)).text = _
        cases hf : f (.operand text) <;> simp [hf, Token.isOperand] at hkind
        rfl
    | operator op => exact (hoperator op).symm
    | opening => exact hopening.symm
    | closing => exact hclosing.symm

/-! ## Reordering -/

def substitution : Substitution where
  operator := ρ.operator
  rank_operator := ρ.rank_operator
  taken text := [.operand (ρ.text text)]
  released text := [.operand (ρ.text text)]
  acts text := Reorder.actsAsOperand_operand (ρ.text text)

theorem flatMap_before (ts : List Token) :
    ts.flatMap ρ.substitution.before = ts.map ρ.token := by
  rw [List.map_eq_flatMap]
  refine List.flatMap_congr fun t _ => ?_
  cases t <;> rfl

theorem flatMap_after (ts : List Token) :
    ts.flatMap ρ.substitution.after = ts.map ρ.token := by
  rw [List.map_eq_flatMap]
  refine List.flatMap_congr fun t _ => ?_
  cases t <;> rfl

theorem ofInfix_map (ts : List Token) :
    Postfix.ofInfix (ts.map ρ.token) = (Postfix.ofInfix ts).map (List.map ρ.token) := by
  rw [← ρ.flatMap_before, Substitution.ofInfix_flatMap]
  simp only [ρ.flatMap_after]

/-! ## Building -/

theorem token_eq_operand {t : Token} {text : String} (h : ρ.token t = .operand text) :
    ∃ other, t = .operand other := by
  cases t with
  | operand other => exact ⟨other, rfl⟩
  | _ => contradiction

theorem token_eq_operator {t : Token} {op : Operator} (h : ρ.token t = .operator op) :
    ∃ other, t = .operator other := by
  cases t with
  | operator other => exact ⟨other, rfl⟩
  | _ => contradiction

theorem wellFormed_map_iff {ts : List Token} :
    WellFormed (ts.map ρ.token) ↔ WellFormed ts := by
  constructor
  · intro h
    generalize hus : ts.map ρ.token = us at h
    induction h generalizing ts with
    | operand text =>
        obtain ⟨t, rfl, ht⟩ := List.map_eq_singleton_iff.1 hus
        obtain ⟨other, rfl⟩ := ρ.token_eq_operand ht
        exact .operand other
    | operation op _ _ ihl ihr =>
        obtain ⟨operands, last, rfl, hoperands, hlast⟩ := List.map_eq_append_iff.1 hus
        obtain ⟨left, right, rfl, hleft, hright⟩ := List.map_eq_append_iff.1 hoperands
        obtain ⟨t, rfl, ht⟩ := List.map_eq_singleton_iff.1 hlast
        obtain ⟨other, rfl⟩ := ρ.token_eq_operator ht
        exact .operation other (ihl hleft) (ihr hright)
  · intro h
    induction h with
    | operand text => exact .operand (ρ.text text)
    | operation op _ _ ihl ihr =>
        rw [List.map_append, List.map_append]
        exact .operation (ρ.operator op) ihl ihr

end Renaming

namespace Tree

def rename (ρ : Renaming) : Tree String → Tree String
  | operand text => operand (ρ.text text)
  | operation op left right => operation (ρ.operator op) (left.rename ρ) (right.rename ρ)

theorem tokensWith_rename (ρ : Renaming) (t : Tree String) :
    (t.rename ρ).tokensWith id = (t.tokensWith id).map ρ.token := by
  induction t with
  | operand text => simp [rename, Renaming.token]
  | operation op left right ihl ihr => simp [rename, Renaming.token, ihl, ihr]

theorem operands_rename (ρ : Renaming) (t : Tree String) :
    (t.rename ρ).operands = t.operands.map ρ.text := by
  induction t with
  | operand text => simp [rename]
  | operation op left right ihl ihr => simp [rename, ihl, ihr]

end Tree

namespace Postfix

theorem build_tokensWith {t : Tree String} {value : String → Float}
    (h : ∀ text ∈ t.operands, Numeral.read? text = some (value text)) :
    build (t.tokensWith id) = .ok (t.map value) :=
  build_eq_ok_iff.2 (meaning?_tokensWith id value t h)

theorem build_of_not_wellFormed {ts : List Token}
    (h : ¬ (WellFormed ts ∧ ∀ text, .operand text ∈ ts → (Numeral.read? text).isSome)) :
    build ts = .error .invalidExpression := by
  rw [← isSome_meaning?_iff, Option.not_isSome_iff_eq_none] at h
  rw [build, buildWith_eq, h]
  rfl

/-- A renaming that changes the texts of numbers into texts of numbers, and no others into such,
builds from one list what it builds from the other, renamed. -/
theorem build_map_token (ρ : Renaming) {ts : List Token}
    (h : ∀ text, .operand text ∈ ts →
      (Numeral.read? (ρ.text text)).isSome = (Numeral.read? text).isSome) :
    (build ts = .error .invalidExpression ∧
        build (ts.map ρ.token) = .error .invalidExpression) ∨
      ∃ (written : Tree String) (value : String → Float),
        ts = written.tokensWith id ∧
        (∀ text ∈ written.operands, Numeral.read? text = some (value text) ∧
          Numeral.read? (ρ.text text) = some (value (ρ.text text))) ∧
        build ts = .ok (written.map value) ∧
        build (ts.map ρ.token) = .ok ((written.rename ρ).map value) := by
  by_cases hts : WellFormed ts ∧ ∀ text, .operand text ∈ ts → (Numeral.read? text).isSome
  · obtain ⟨hwritten, hread⟩ := hts
    obtain ⟨written, rfl⟩ := hwritten.exists_tree
    have hvalue : ∀ text, (Numeral.read? text).isSome →
        Numeral.read? text = some ((Numeral.read? text).getD 0) := by
      intro text htext
      obtain ⟨x, hx⟩ := Option.isSome_iff_exists.1 htext
      rw [hx, Option.getD_some]
    have hold : ∀ text ∈ written.operands,
        Numeral.read? text = some ((Numeral.read? text).getD 0) :=
      fun text hmem => hvalue text (hread text (Tree.operand_mem_tokensWith_iff.2 hmem))
    have hnew : ∀ text ∈ written.operands,
        Numeral.read? (ρ.text text) = some ((Numeral.read? (ρ.text text)).getD 0) := by
      intro text hmem
      have htoken := Tree.operand_mem_tokensWith_iff.2 hmem
      exact hvalue _ ((h text htoken).trans (hread text htoken))
    refine Or.inr ⟨written, fun text => (Numeral.read? text).getD 0, rfl,
      fun text hmem => ⟨hold text hmem, hnew text hmem⟩, build_tokensWith hold, ?_⟩
    rw [← Tree.tokensWith_rename]
    refine build_tokensWith fun text hmem => ?_
    rw [Tree.operands_rename] at hmem
    obtain ⟨other, hother, rfl⟩ := List.mem_map.1 hmem
    exact hnew other hother
  · refine Or.inl ⟨build_of_not_wellFormed hts, build_of_not_wellFormed fun hmap => hts ?_⟩
    refine ⟨ρ.wellFormed_map_iff.1 hmap.1, fun text hmem => ?_⟩
    rw [← h text hmem]
    exact hmap.2 _ (List.mem_map_of_mem hmem)

end Postfix

/-- A renamed list is reordered as the list is, and the failure is the same if there is one. If the
texts of numbers stay such and no others become such, the two lists are both refused for the same
cause, or both are parsed: to the trees of the values of a tree of texts, which are the operands of
the list as they were written, and of this tree renamed. -/
theorem Tree.ofInfix_map_token (ρ : Renaming) (ts : List Token) :
    Postfix.ofInfix (ts.map ρ.token) = (Postfix.ofInfix ts).map (List.map ρ.token) ∧
      ((∀ text, .operand text ∈ ts →
          (Numeral.read? (ρ.text text)).isSome = (Numeral.read? text).isSome) →
        (∃ cause, Tree.ofInfix ts = .error cause ∧
            Tree.ofInfix (ts.map ρ.token) = .error cause) ∨
          ∃ (written : Tree String) (value : String → Float),
            Postfix.ofInfix ts = .ok (written.tokensWith id) ∧
            (∀ text ∈ written.operands, Numeral.read? text = some (value text) ∧
              Numeral.read? (ρ.text text) = some (value (ρ.text text))) ∧
            Tree.ofInfix ts = .ok (written.map value) ∧
            Tree.ofInfix (ts.map ρ.token) = .ok ((written.rename ρ).map value)) := by
  have hmap := ρ.ofInfix_map ts
  refine ⟨hmap, fun hread => ?_⟩
  rw [Tree.ofInfix, Tree.ofInfix, hmap]
  cases hout : Postfix.ofInfix ts with
  | error cause => exact Or.inl ⟨cause, rfl, rfl⟩
  | ok out =>
      have hread' : ∀ text, .operand text ∈ out →
          (Numeral.read? (ρ.text text)).isSome = (Numeral.read? text).isSome := by
        intro text hmem
        exact hread text (List.mem_filter.1 ((perm_of_ofInfix hout).mem_iff.1 hmem)).1
      rcases build_map_token ρ hread' with ⟨hold, hnew⟩ | ⟨written, value, rfl, hvalue, hold, hnew⟩
      · exact Or.inl ⟨.invalidExpression, hold, hnew⟩
      · exact Or.inr ⟨written, value, rfl, hvalue, hold, hnew⟩

/-- In `1 - 2 * 3` the difference becomes a sum, the product a quotient, and `1` is written
`0.5`. -/
theorem Tree.ofInfix_map_token_of_difference :
    let ρ : Renaming := {
      text := fun text => if text = "1" then "0.5" else text
      operator := fun op => match op with
        | .add => .subtract
        | .subtract => .add
        | .multiply => .divide
        | .divide => .multiply
        | .exponentiate => .exponentiate
      rank_operator := fun op => by cases op <;> rfl }
    let ts : List Token :=
      [.operand "1", .operator .subtract, .operand "2", .operator .multiply, .operand "3"]
    let out : List Token :=
      [.operand "1", .operand "2", .operand "3", .operator .multiply, .operator .subtract]
    (∀ text, .operand text ∈ ts →
        (Numeral.read? (ρ.text text)).isSome = (Numeral.read? text).isSome) ∧
      Postfix.ofInfix (ts.map ρ.token) =
        .ok [.operand "0.5", .operand "2", .operand "3", .operator .divide, .operator .add] ∧
      ∃ (written : Tree String) (value : String → Float),
        written.tokensWith id = out ∧
        Numeral.read? "1" = some (value "1") ∧ Numeral.read? "0.5" = some (value "0.5") ∧
        Tree.ofInfix ts = .ok (written.map value) ∧
        Tree.ofInfix (ts.map ρ.token) = .ok ((written.rename ρ).map value) := by
  intro ρ ts out
  have hread : ∀ text, .operand text ∈ ts →
      (Numeral.read? (ρ.text text)).isSome = (Numeral.read? text).isSome := by
    intro text hmem
    have htext : text = "1" ∨ text = "2" ∨ text = "3" := by simpa [ts] using hmem
    rcases htext with rfl | rfl | rfl
    · have hold : (Numeral.read? "1").isSome = true := by rfl
      have hnew : (Numeral.read? "0.5").isSome = true := by rfl
      exact hnew.trans hold.symm
    · rfl
    · rfl
  have hout : Postfix.ofInfix ts = .ok out := by rfl
  obtain ⟨hmap, hparse⟩ := Tree.ofInfix_map_token ρ ts
  refine ⟨hread, hmap.trans (by rw [hout]; rfl), ?_⟩
  rcases hparse hread with ⟨cause, herror, -⟩ | ⟨written, value, hwritten, hvalue, hold, hnew⟩
  · obtain ⟨tree, htree⟩ : ∃ tree, meaning? Numeral.read? out = some tree := ⟨_, rfl⟩
    rw [Tree.ofInfix, hout] at herror
    cases herror.symm.trans (build_eq_ok_iff.2 htree)
  · have hwritten' : out = written.tokensWith id := by simpa [hout] using hwritten
    have hone : "1" ∈ written.operands := by
      rw [← Tree.operand_mem_tokensWith_iff, ← hwritten']
      exact List.mem_cons_self
    exact ⟨written, value, hwritten'.symm, (hvalue "1" hone).1, (hvalue "1" hone).2, hold, hnew⟩

end ArithTree
