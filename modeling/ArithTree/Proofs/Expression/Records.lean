import ArithTree.Proofs.Expression.Acceptance
import ArithTree.Proofs.Postfix.Counts
import ArithTree.Proofs.Scaffold.Numbering

/-!
# What a parse puts on record

Of a text whose tokens can be put in postfix order the tokens are on record, as they were scanned
and as they were reordered. Then come the placements: those of the tree at the end of the postfix
form, whether or not something stands before it. Only a text with nothing before it is accepted,
and then the record of the finished tree comes last.
-/

namespace ArithTree

namespace Postfix

/-- What the placements show, if the tree `t` stands at the end of the tokens `ts`: all places of
the tree but its root in the order of their numbers, and at the number `k` the token that has `k`
others behind it, hanging from where it hangs in the tree. -/
structure PlacedFrom (ts : List Token) (t : Tree String) (placements : List Placement) : Prop where
  numbers : placements.map (fun p => p.place) = List.range' 1 (t.size - 1)
  tokens : ∀ p ∈ placements, ts.reverse[p.place]? = some p.token
  hang : ∀ p ∈ placements, t.Hangs 0 p

theorem PlacedFrom.length_add_one {ts : List Token} {t : Tree String} {placements : List Placement}
    (h : PlacedFrom ts t placements) : placements.length + 1 = (t.tokensWith id).length := by
  have hlength := congrArg List.length h.numbers
  have hpos : 0 < t.size := t.size_pos
  rw [List.length_map, List.length_range'] at hlength
  rw [Tree.length_tokensWith]
  omega

/-- What is put on record of a list that passes the quick look is what is put on record of the tree
at its end. -/
theorem placedFrom_construct {before : List Token} {t : Tree String}
    (hpasses : isPlausible (before ++ t.tokensWith id) = true)
    (hread : ∀ text ∈ t.operands, (Numeral.read? text).isSome) :
    PlacedFrom (before ++ t.tokensWith id) t
      (construct (before ++ t.tokensWith id)).placements := by
  have hplacements :
      (construct (before ++ t.tokensWith id)).placements = (t.placements 0 0).tail := by
    rw [construct, constructWith, if_pos hpasses, List.reverse_append]
    exact placements_constructBackwards hread before.reverse
  rw [hplacements]
  refine ⟨?_, fun p hp => ?_, (t.placements_hang 0 0).2⟩
  · rw [List.map_tail, Tree.map_place_placements, List.tail_range']
  · obtain ⟨-, htoken⟩ := Tree.getElem?_reverse_tokensWith_of_mem (List.mem_of_mem_tail hp)
    rw [Nat.sub_zero] at htoken
    have hlt := (List.getElem?_eq_some_iff.1 htoken).choose
    rw [List.reverse_append, List.getElem?_append_left hlt]
    exact htoken

end Postfix

namespace Expression

open Postfix

theorem isOk_parse_iff {source : String} {ts : List Token} (h : ofText source = .ok ts) :
    (parse source).isOk ↔ WellFormed ts := by
  rw [← exists_parse_iff h]
  cases parse source <;> simp [Except.isOk, Except.toBool]

theorem records_of_ofInfix {source : String} {tokens ts : List Token}
    (hscan : Token.scan source = .ok tokens) (hreordered : Postfix.ofInfix tokens = .ok ts) :
    (parseRecorded source).records =
      .scanned source tokens :: .reordered source ts ::
        ((construct ts).placements.map .placed ++
          if (parse source).isOk then [.built source (ts.countP fun t => t.operator?.isSome)]
          else []) := by
  have hresult : (parse source).isOk = (construct ts).tree.isSome := by
    simp only [parse, parseRecorded, hscan, hreordered]
    cases (construct ts).tree <;> rfl
  rw [hresult]
  simp only [parseRecorded, hscan, hreordered]
  cases htree : (construct ts).tree with
  | none => simp
  | some root =>
      have hmeaning : meaning? Numeral.read? ts = some root := by
        rw [← htree, construct, tree_constructWith]
      simp [operationCount_of_meaning? hmeaning]

/-- The records of a text that can be scanned and whose parentheses are balanced: its tokens, the
tokens reordered, the placements, and at last, if the text is accepted, how many operators it has. A
list that fails the quick look leaves no placement. Any other has a postfix expression at its end,
the shortest there, and the placements are those of its tree; the text is accepted if this is the
whole list. -/
theorem records_parseRecorded {source : String} {tokens : List Token}
    (hscan : Token.scan source = .ok tokens) (hbalanced : Balanced .opening .closing tokens) :
    ∃ ts placements, Postfix.ofInfix tokens = .ok ts ∧
      (parseRecorded source).records =
        .scanned source tokens :: .reordered source ts ::
          (placements.map .placed ++
            if (parse source).isOk then [.built source (ts.countP fun t => t.operator?.isSome)]
            else []) ∧
      (isPlausible ts = false → placements = []) ∧
      (isPlausible ts = true → ∃ t : Tree String,
        t.tokensWith id <:+ ts ∧ WellFormed (t.tokensWith id) ∧
        (∀ ending, ending <:+ ts → WellFormed ending →
          (t.tokensWith id).length ≤ ending.length) ∧
        placements.length + 1 = (t.tokensWith id).length ∧ PlacedFrom ts t placements ∧
        ((t.tokensWith id).length = ts.length ↔ (parse source).isOk)) := by
  obtain ⟨ts, hreordered, hperm⟩ := ofInfix_of_balanced hbalanced
  have htext : ofText source = .ok ts := bind_eq_ok_iff.2 ⟨tokens, hscan, hreordered⟩
  refine ⟨ts, (construct ts).placements, hreordered, records_of_ofInfix hscan hreordered,
    fun hfails => ?_, fun hpasses => ?_⟩
  · rw [construct, constructWith, hfails]
    rfl
  · have hproper : ∀ t ∈ ts, isParenthesis t = false := by
      intro t ht
      simpa using (List.mem_filter.1 (hperm.mem_iff.1 ht)).2
    obtain ⟨before, t, rfl⟩ := exists_tree_of_isPlausible hpasses hproper
    have hsuffix : t.tokensWith id <:+ before ++ t.tokensWith id := List.suffix_append _ _
    have hread : ∀ text ∈ t.operands, (Numeral.read? text).isSome := by
      intro text hmem
      have htoken := Tree.operand_mem_tokensWith_iff.2 hmem
      exact Numeral.isSome_read?_of_isDigits
        (isDigits_of_ofText htext (List.mem_append_right before htoken))
    have hplaced := placedFrom_construct hpasses hread
    have hwritten := t.wellFormed_tokensWith id
    refine ⟨t, hsuffix, hwritten, fun ending hending hwell => ?_, hplaced.length_add_one,
      hplaced, ?_⟩
    · rw [hwritten.eq_of_suffix hwell hsuffix hending]
    · rw [isOk_parse_iff htext, hwritten.length_eq_iff_of_suffix hsuffix]

/-- The postfix form of `1 2 (+ +) 3 * (4 - 5)` passes the quick look, and it is no expression. All
that is placed is the product at its end. -/
theorem records_parseRecorded_of_loose_operators :
    let source := "1 2 (+ +) 3 * (4 - 5)"
    let product : List Token :=
      [.operand "3", .operand "4", .operand "5", .operator .subtract, .operator .multiply]
    let ts := [.operand "1", .operand "2", .operator .add, .operator .add] ++ product
    ∃ tokens placements, Token.scan source = .ok tokens ∧ Balanced .opening .closing tokens ∧
      (parseRecorded source).records =
        [.scanned source tokens, .reordered source ts] ++ placements.map .placed ∧
      ∃ t : Tree String, t.tokensWith id = product ∧ placements.length = 4 ∧
        PlacedFrom ts t placements := by
  intro source product ts
  let tokens : List Token :=
    [.operand "1", .operand "2", .opening, .operator .add, .operator .add, .closing, .operand "3",
      .operator .multiply, .opening, .operand "4", .operator .subtract, .operand "5", .closing]
  have hscan : Token.scan "1 2 (+ +) 3 * (4 - 5)" = .ok tokens := by rfl
  have hreordered : Postfix.ofInfix tokens = .ok ts := by rfl
  have hbalanced := balanced_of_ofInfix hreordered
  obtain ⟨ts', placements, hts, hrecords, -, hplaced⟩ := records_parseRecorded hscan hbalanced
  cases hreordered.symm.trans hts
  obtain ⟨t, hsuffix, hwritten, -, hlength, hplaced, hwhole⟩ := hplaced (by decide)
  have hproduct : WellFormed product :=
    .operation .multiply (.operand "3") (.operation .subtract (.operand "4") (.operand "5"))
  have htokens : t.tokensWith id = product :=
    hwritten.eq_of_suffix hproduct hsuffix (List.suffix_append _ _)
  have hrefused : (parse source).isOk = false := by
    rw [htokens] at hwhole
    simpa [product, ts] using hwhole
  rw [hrefused] at hrecords
  rw [htokens] at hlength
  refine ⟨tokens, placements, hscan, hbalanced, by simpa using hrecords, t, htokens, ?_, hplaced⟩
  exact Nat.succ.inj hlength

end Expression

end ArithTree
