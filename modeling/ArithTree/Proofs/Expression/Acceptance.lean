import ArithTree.Expression
import ArithTree.Proofs.Infix.Alternation
import ArithTree.Proofs.Infix.Reordering
import ArithTree.Proofs.Postfix.Meaning
import ArithTree.Proofs.Token.Legibility

/-!
# What a parse accepts

The tree of an infix expression is the one that the layers of the grammar derive. A text is
accepted exactly if its tokens, put in postfix order, are a postfix expression. That is so for the
text of every infix expression, and for some others besides: those in which one operand follows
another directly.
-/

namespace ArithTree

open Postfix

/-! ## The tree of an expression -/

theorem Infix.Derives.mem_of_mem_operands {layer : Infix.Layer} {ts : List Token} {t : Tree String}
    (h : Infix.Derives layer ts t) {text : String} (hmem : text ∈ t.operands) :
    .operand text ∈ ts := by
  induction h with
  | operand other =>
      rw [Tree.operands_operand, List.mem_singleton] at hmem
      simp [hmem]
  | group _ ih => simp [ih hmem]
  | single _ ih => exact ih hmem
  | chain op _ _ ihl ihr =>
      rw [Tree.operands_operation, List.mem_append] at hmem
      rcases hmem with hleft | hright
      · simp [ihl hleft]
      · simp [ihr hright]

/-- What the layers derive is reordered into the postfix form of its tree, and parsed to this tree
with the values of the operands in it. -/
theorem Tree.ofInfix_of_derives {ts : List Token} {t : Tree String}
    (h : Infix.Derives .sum ts t) :
    Postfix.ofInfix ts = .ok (t.tokensWith id) ∧
      ∀ value : String → Float,
        (∀ text, .operand text ∈ ts → Numeral.read? text = some (value text)) →
        Tree.ofInfix ts = .ok (t.map value) := by
  have hreordered := Infix.ofInfix_eq_of_derives h
  refine ⟨hreordered, fun value hvalue => ?_⟩
  have hmeaning : meaning? Numeral.read? (t.tokensWith id) = some (t.map value) :=
    meaning?_tokensWith id value t fun text hmem => hvalue text (h.mem_of_mem_operands hmem)
  rw [Tree.ofInfix, hreordered]
  show build (t.tokensWith id) = _
  rw [build, buildWith_eq, hmeaning, Option.elim]

/-- The tree of `(1 + 2) * 3 - 4 ^ 5 ^ 6 - 7`: both powers and both differences are grouped from the
right. -/
theorem Tree.ofInfix_groups_from_right :
    let ts : List Token :=
      [.opening, .operand "1", .operator .add, .operand "2", .closing, .operator .multiply,
        .operand "3", .operator .subtract, .operand "4", .operator .exponentiate, .operand "5",
        .operator .exponentiate, .operand "6", .operator .subtract, .operand "7"]
    let t : Tree String :=
      .operation .subtract
        (.operation .multiply (.operation .add (.operand "1") (.operand "2")) (.operand "3"))
        (.operation .subtract
          (.operation .exponentiate (.operand "4")
            (.operation .exponentiate (.operand "5") (.operand "6")))
          (.operand "7"))
    let value (text : String) : Float := .ofScientific (Numeral.natOfDigits text.toList) false 0
    Infix.Derives .sum ts t ∧
      (∀ text, .operand text ∈ ts → Numeral.read? text = some (value text)) ∧
      Postfix.ofInfix ts = .ok (t.tokensWith id) ∧ Tree.ofInfix ts = .ok (t.map value) := by
  intro ts t value
  have hpower (text : String) : Infix.Derives .power [.operand text] (.operand text) :=
    .single (.operand text)
  have hproduct (text : String) : Infix.Derives .product [.operand text] (.operand text) :=
    .single (hpower text)
  have hsum (text : String) : Infix.Derives .sum [.operand text] (.operand text) :=
    .single (hproduct text)
  have hgroup := Infix.Derives.group (.chain .add (hproduct "1") (hsum "2"))
  have hfirst := Infix.Derives.chain .multiply (.single hgroup) (hproduct "3")
  have htower := Infix.Derives.chain .exponentiate (.operand "4")
    (.chain .exponentiate (.operand "5") (hpower "6"))
  have hderives : Infix.Derives .sum ts t :=
    .chain .subtract hfirst (.chain .subtract (.single htower) (hsum "7"))
  have hvalue : ∀ text, .operand text ∈ ts → Numeral.read? text = some (value text) := by
    intro text hmem
    simp only [ts, List.mem_cons, List.not_mem_nil, Token.operand.injEq, reduceCtorEq, or_false,
      false_or] at hmem
    rcases hmem with rfl | rfl | rfl | rfl | rfl | rfl | rfl <;> rfl
  obtain ⟨hreordered, hparsed⟩ := Tree.ofInfix_of_derives hderives
  exact ⟨hderives, hvalue, hreordered, hparsed value hvalue⟩

/-! ## The steps of a parse -/

namespace Expression

theorem parse_of_error {source : String} {cause : Cause} (h : ofText source = .error cause) :
    parse source = .error (.bare cause) := by
  unfold ofText at h
  unfold parse parseRecorded
  cases hscan : Token.scan source with
  | error other =>
      rw [hscan] at h
      cases h
      rfl
  | ok tokens =>
      rw [hscan] at h
      have hreorder : Postfix.ofInfix tokens = .error cause := h
      simp only [hreorder]

theorem exists_scan_of_ofText {source : String} {ts : List Token} (h : ofText source = .ok ts) :
    ∃ tokens, Token.scan source = .ok tokens ∧ Postfix.ofInfix tokens = .ok ts :=
  bind_eq_ok_iff.1 h

theorem parse_of_ok {source : String} {ts : List Token} (h : ofText source = .ok ts) :
    parse source = match meaning? Numeral.read? ts with
      | some root => .ok ⟨some root, source, Token.line ts⟩
      | none => .error (.whileBuilding source .invalidExpression) := by
  obtain ⟨tokens, hscan, hreorder⟩ := exists_scan_of_ofText h
  unfold parse parseRecorded
  simp only [hscan, hreorder, construct, tree_constructWith]
  cases meaning? Numeral.read? ts <;> rfl

/-- What is known of the tokens when a parse comes to build the tree. -/
theorem spec_of_ofText {source : String} {ts : List Token} (h : ofText source = .ok ts) :
    ∃ tokens, Token.scan source = .ok tokens ∧ Balanced .opening .closing tokens ∧
      ts.Perm (proper tokens) ∧
      ∀ text, .operand text ∈ ts → (Numeral.read? text).isSome := by
  obtain ⟨tokens, hscan, hreordered⟩ := exists_scan_of_ofText h
  have hperm := perm_of_ofInfix hreordered
  refine ⟨tokens, hscan, balanced_of_ofInfix hreordered, hperm, fun text hmem => ?_⟩
  have hmem' : .operand text ∈ tokens := (List.mem_filter.1 (hperm.mem_iff.1 hmem)).1
  exact Numeral.isSome_read?_of_isDigits (Token.isDigits_of_scan hscan hmem')

theorem isDigits_of_ofText {source : String} {ts : List Token} (h : ofText source = .ok ts)
    {text : String} (hmem : .operand text ∈ ts) : Numeral.IsDigits text := by
  obtain ⟨tokens, hscan, -, hperm, -⟩ := spec_of_ofText h
  exact Token.isDigits_of_scan hscan (List.mem_filter.1 (hperm.mem_iff.1 hmem)).1

/-- The operands that come out of a text can be read, so only their order matters. -/
theorem isSome_meaning?_of_ofText {source : String} {ts : List Token} (h : ofText source = .ok ts) :
    (meaning? Numeral.read? ts).isSome ↔ Postfix.WellFormed ts := by
  obtain ⟨_, _, _, _, hread⟩ := spec_of_ofText h
  rw [isSome_meaning?_iff]
  exact ⟨fun hts => hts.1, fun hts => ⟨hts, hread⟩⟩

theorem exists_parse_iff {source : String} {ts : List Token} (h : ofText source = .ok ts) :
    (∃ e, parse source = .ok e) ↔ Postfix.WellFormed ts := by
  rw [← isSome_meaning?_of_ofText h, parse_of_ok h]
  cases meaning? Numeral.read? ts <;> simp

theorem parse_of_not_wellFormed {source : String} {ts : List Token} (h : ofText source = .ok ts)
    (hts : ¬ Postfix.WellFormed ts) :
    parse source = .error (.whileBuilding source .invalidExpression) := by
  rw [← isSome_meaning?_of_ofText h, Option.not_isSome_iff_eq_none] at hts
  rw [parse_of_ok h, hts]

theorem exists_ofText_of_parse {source : String} {e : Expression} (h : parse source = .ok e) :
    ∃ ts, ofText source = .ok ts := by
  cases htext : ofText source with
  | error cause =>
      rw [parse_of_error htext] at h
      contradiction
  | ok ts => exact ⟨ts, rfl⟩

/-- An accepted text comes with its tokens in postfix order and with the tree of these tokens. -/
theorem parse_eq_ok_iff {source : String} {e : Expression} :
    parse source = .ok e ↔ ∃ ts root, ofText source = .ok ts ∧ Postfix.build ts = .ok root ∧
      e = ⟨some root, source, Token.line ts⟩ := by
  constructor
  · intro h
    obtain ⟨ts, htext⟩ := exists_ofText_of_parse h
    rw [parse_of_ok htext] at h
    split at h
    · rename_i root hroot
      cases h
      exact ⟨ts, root, htext, build_eq_ok_iff.2 hroot, rfl⟩
    · contradiction
  · rintro ⟨ts, root, htext, hroot, rfl⟩
    rw [parse_of_ok htext, build_eq_ok_iff.1 hroot]

/-! ## Infix expressions among the accepted texts -/

theorem exists_parse_of_wellFormed {source : String} {tokens : List Token}
    (hscan : Token.scan source = .ok tokens) (h : Infix.WellFormed tokens) :
    ∃ e, parse source = .ok e := by
  obtain ⟨t, ht⟩ := h.exists_derives
  have htext : ofText source = .ok (t.tokensWith id) := by
    rw [ofText, hscan]
    exact Infix.ofInfix_eq_of_derives ht
  have hsome : (meaning? (fun text => some text) (t.tokensWith id)).isSome := by
    rw [meaning?_tokensWith id id t fun _ _ => rfl]
    rfl
  exact (exists_parse_iff htext).2 (isSome_meaning?_iff.1 hsome).1

/-- A text of infix tokens is accepted, and of the texts that are accepted those are infix in which
no operand directly follows another one. -/
theorem wellFormed_iff_exists_parse {source : String} {tokens : List Token}
    (hscan : Token.scan source = .ok tokens) :
    Infix.WellFormed tokens ↔ (∃ e, parse source = .ok e) ∧ Infix.Separated tokens := by
  constructor
  · intro h
    exact ⟨exists_parse_of_wellFormed hscan h, h.separated⟩
  · rintro ⟨⟨e, he⟩, hseparated⟩
    obtain ⟨ts, htext⟩ := exists_ofText_of_parse he
    obtain ⟨tokens', hscan', hbalanced, hperm, -⟩ := spec_of_ofText htext
    rw [hscan] at hscan'
    cases hscan'
    have hcount := ((exists_parse_iff htext).1 ⟨e, he⟩).countP_isOperand
    rw [hperm.countP_eq, hperm.countP_eq] at hcount
    exact Infix.wellFormed_of_separated hbalanced hseparated hcount

/-- The text `1 2 +` is accepted, and it is no infix expression. -/
theorem parse_adjoining_operands :
    let tokens : List Token := [.operand "1", .operand "2", .operator .add]
    Token.scan "1 2 +" = .ok tokens ∧ (∃ e, parse "1 2 +" = .ok e) ∧
      ¬ Infix.WellFormed tokens := by
  intro tokens
  have htext : ofText "1 2 +" = .ok tokens := by rfl
  have hpostfixed : Postfix.WellFormed tokens :=
    .operation .add (.operand "1") (.operand "2")
  have hadjoining : ¬ Infix.Separated tokens := by decide
  exact ⟨by rfl, (exists_parse_iff htext).2 hpostfixed, fun h => hadjoining h.separated⟩

theorem parse_grouped_sum :
    let tokens : List Token :=
      [.opening, .operand "1", .operator .add, .operand "2", .closing, .operator .multiply,
        .operand "3"]
    Token.scan "(1 + 2) * 3" = .ok tokens ∧ Infix.WellFormed tokens ∧
      (∃ e, parse "(1 + 2) * 3" = .ok e) ∧ Infix.Separated tokens := by
  intro tokens
  have hscan : Token.scan "(1 + 2) * 3" = .ok tokens := by rfl
  have hgroup := Infix.WellFormed.group (.operation .add (.operand "1") (.operand "2"))
  have htokens : Infix.WellFormed tokens := .operation .multiply hgroup (.operand "3")
  exact ⟨hscan, htokens, (wellFormed_iff_exists_parse hscan).1 htokens⟩

end Expression

end ArithTree
