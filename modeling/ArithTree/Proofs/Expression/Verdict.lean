import ArithTree.Proofs.Expression.Acceptance

/-!
# How a parse ends

There are four verdicts on a text, and they are decided in turn: by its characters, by its
parentheses, and by the order of its tokens. Every text has exactly one of them.
-/

namespace ArithTree

open Postfix

inductive Verdict where
  /-- some character can not be read -/
  | illegible
  /-- some parenthesis has no partner -/
  | unbalanced
  /-- the tokens do not make up an expression -/
  | invalid
  | accepted
  deriving DecidableEq, Repr

/-- The verdict that a result tells of. A text that could be read is named with the failure, other
texts are not. -/
def Verdict.ofResult? : Except Failure Expression → Option Verdict
  | .ok _ => some accepted
  | .error ⟨.unexpectedCharacter _ _, none⟩ => some illegible
  | .error ⟨.mismatchedParenthesis, none⟩ => some unbalanced
  | .error ⟨.invalidExpression, some _⟩ => some invalid
  | .error _ => none

/-- Whether the verdict is the one on the text: what the text is like, and what comes of its
parse. -/
def Verdict.IsOn (source : String) : Verdict → Prop
  | illegible =>
      ∃ before c after, source.toList = before ++ c :: after ∧ (∀ d ∈ before, Token.Legible d) ∧
        ¬ Token.Legible c ∧
        Expression.parse source = .error (.bare (.unexpectedCharacter c before.length))
  | unbalanced =>
      (∀ c ∈ source.toList, Token.Legible c) ∧ ¬ Balanced '(' ')' source.toList ∧
        Expression.parse source = .error (.bare .mismatchedParenthesis)
  | invalid =>
      (∀ c ∈ source.toList, Token.Legible c) ∧ Balanced '(' ')' source.toList ∧
        (∃ ts, ofText source = .ok ts ∧ ¬ Postfix.WellFormed ts) ∧
        Expression.parse source = .error (.whileBuilding source .invalidExpression)
  | accepted =>
      (∀ c ∈ source.toList, Token.Legible c) ∧ Balanced '(' ')' source.toList ∧
        (∃ ts, ofText source = .ok ts ∧ Postfix.WellFormed ts) ∧
        ∃ e, Expression.parse source = .ok e

theorem Verdict.exists_isOn (source : String) : ∃ v : Verdict, v.IsOn source := by
  by_cases hlegible : ∀ c ∈ source.toList, Token.Legible c
  · obtain ⟨tokens, hscan, -, -⟩ := Token.scan_of_legible hlegible
    have htext : ofText source = Postfix.ofInfix tokens := by
      rw [ofText, hscan]
      rfl
    by_cases hbalanced : Balanced '(' ')' source.toList
    · obtain ⟨ts, hts, -⟩ := ofInfix_of_balanced ((Token.balanced_scan_iff hscan).2 hbalanced)
      rw [← htext] at hts
      by_cases hpost : Postfix.WellFormed ts
      · exact ⟨accepted, hlegible, hbalanced, ⟨ts, hts, hpost⟩,
          (Expression.exists_parse_iff hts).2 hpost⟩
      · exact ⟨invalid, hlegible, hbalanced, ⟨ts, hts, hpost⟩,
          Expression.parse_of_not_wellFormed hts hpost⟩
    · have herror := ofInfix_of_not_balanced (mt (Token.balanced_scan_iff hscan).1 hbalanced)
      rw [← htext] at herror
      exact ⟨unbalanced, hlegible, hbalanced, Expression.parse_of_error herror⟩
  · obtain ⟨before, c, after, hsource, hbefore, hc, hscan⟩ := Token.scan_of_not_legible hlegible
    have herror : ofText source = .error (.unexpectedCharacter c before.length) := by
      rw [ofText, hscan]
      rfl
    exact ⟨illegible, before, c, after, hsource, hbefore, hc, Expression.parse_of_error herror⟩

theorem Verdict.IsOn.ofResult? {source : String} {v : Verdict} (h : v.IsOn source) :
    Verdict.ofResult? (Expression.parse source) = some v := by
  cases v with
  | illegible =>
      obtain ⟨before, c, after, -, -, -, hparse⟩ := h
      rw [hparse]
      rfl
  | unbalanced =>
      obtain ⟨-, -, hparse⟩ := h
      rw [hparse]
      rfl
  | invalid =>
      obtain ⟨-, -, -, hparse⟩ := h
      rw [hparse]
      rfl
  | accepted =>
      obtain ⟨-, -, -, e, hparse⟩ := h
      rw [hparse]
      rfl

/-- Every text has exactly one of the four verdicts. A failure names the text exactly if its cause
is that there is no expression, and no cause is a token that cannot be read. -/
theorem Verdict.existsUnique_isOn (source : String) :
    (∃! v : Verdict, v.IsOn source) ∧
      ∀ failure, Expression.parse source = .error failure →
        (failure.building.isSome ↔ failure.cause = .invalidExpression) ∧
          ∀ misreading, failure.cause ≠ .unreadableToken misreading := by
  obtain ⟨v, hv⟩ := Verdict.exists_isOn source
  refine ⟨⟨v, hv, fun w hw => ?_⟩, fun failure hfailure => ?_⟩
  · exact Option.some.inj (hw.ofResult?.symm.trans hv.ofResult?)
  · have htold := hv.ofResult?
    rw [hfailure] at htold
    obtain ⟨cause, building⟩ := failure
    cases cause <;> cases building <;> simp [Verdict.ofResult?] at htold ⊢

end ArithTree
