import ArithTree.Proofs.Token.Legibility

/-!
# Runs of digits

The operands of a text are its runs of digits, each of them as long as it can be, and its operators
are as many as their symbols. The digits at hand in the middle of a scan are the beginning of a run
that goes on with the text still to be read; a character that is no digit ends it.
-/

namespace ArithTree

namespace Text

/-- The runs of digits of a text in their order, none of them part of a longer one. -/
def digitRuns (text : List Char) : List String :=
  ((text.splitOnP fun c => !c.isDigit).filter fun run => !run.isEmpty).map String.ofList

@[simp] theorem digitRuns_nil : digitRuns [] = [] := rfl

theorem digitRuns_of_digits {digits : List Char} (hne : digits ≠ [])
    (h : ∀ c ∈ digits, c.isDigit = true) : digitRuns digits = [String.ofList digits] := by
  have hsplit : digits.splitOnP (fun c => !c.isDigit) = [digits] :=
    List.splitOnP_eq_singleton fun c hc => by simp [h c hc]
  simp [digitRuns, hsplit, hne]

/-- What is no digit keeps the runs before it and those behind it apart. -/
theorem digitRuns_append_cons {c : Char} (h : c.isDigit = false) (before after : List Char) :
    digitRuns (before ++ c :: after) = digitRuns before ++ digitRuns after := by
  have hsplit : (before ++ c :: after).splitOnP (fun c => !c.isDigit) =
      before.splitOnP (fun c => !c.isDigit) ++ after.splitOnP fun c => !c.isDigit :=
    List.splitOnP_append_cons before after (by simp [h])
  rw [digitRuns, hsplit, List.filter_append, List.map_append]
  rfl

example : digitRuns "12+(3 007".toList = ["12", "3", "007"] := by decide

end Text

namespace Scan

theorem filter_isOperand_tokens {s : Scan} (h : ∀ c ∈ s.digits, c.isDigit = true) :
    s.tokens.filter Token.isOperand =
      s.finished.reverse.filter Token.isOperand ++
        (Text.digitRuns s.digits.reverse).map .operand := by
  by_cases hempty : s.digits = []
  · simp [tokens, tokensReversed, hempty]
  · have hruns : Text.digitRuns s.digits.reverse = [String.ofList s.digits.reverse] :=
      Text.digitRuns_of_digits (by simpa using hempty) (by simpa using h)
    simp [tokens, tokensReversed, hempty, hruns, Token.isOperand]

/-- A character that is no digit ends the run at hand and adds no operand. -/
theorem step_of_separator (s : Scan) {c : Char} (h : Token.Legible c) (hc : c.isDigit = false) :
    ∃ next, s.step c = .ok next ∧ next.digits = [] ∧
      next.finished.reverse.filter Token.isOperand = s.tokens.filter Token.isOperand := by
  rcases h with hdigit | hblank | hsymbol
  · rw [hc] at hdigit
    contradiction
  · exact ⟨_, s.step_blank hblank, rfl, rfl⟩
  · obtain ⟨t, ht⟩ := Token.exists_ofSymbol? hsymbol
    have hoperand := (Token.ofSymbol?_eq_some_iff.1 ht).1
    exact ⟨_, s.step_symbol ht, rfl, by simp [tokens, hoperand]⟩

/-- The run at hand goes on with the text that is still to be read. -/
theorem filter_isOperand_of_run {s last : Scan} {text : List Char}
    (hs : ∀ c ∈ s.digits, c.isDigit = true) (htext : ∀ c ∈ text, Token.Legible c)
    (h : s.run text = .ok last) :
    last.tokens.filter Token.isOperand =
      s.finished.reverse.filter Token.isOperand ++
        (Text.digitRuns (s.digits.reverse ++ text)).map .operand := by
  induction text generalizing s with
  | nil =>
      cases h
      rw [List.append_nil, filter_isOperand_tokens hs]
  | cons c rest ih =>
      have hrest : ∀ d ∈ rest, Token.Legible d := fun d hd => htext d (List.mem_cons_of_mem _ hd)
      rw [run_cons] at h
      cases hc : c.isDigit with
      | true =>
          rw [s.step_digit hc] at h
          have hdigits : ∀ d ∈ c :: s.digits, d.isDigit = true := List.forall_mem_cons.2 ⟨hc, hs⟩
          have hlast := ih (s := ⟨s.finished, c :: s.digits, s.position + 1⟩) hdigits hrest h
          simpa using hlast
      | false =>
          obtain ⟨next, hstep, hnext, hfinished⟩ :=
            s.step_of_separator (htext c List.mem_cons_self) hc
          rw [hstep] at h
          have hlast := ih (s := next) (by simp [hnext]) hrest h
          rw [hlast, hfinished, filter_isOperand_tokens hs, hnext, Text.digitRuns_append_cons hc]
          simp

end Scan

namespace Token

/-- The operands of a text are its runs of digits. -/
theorem filter_isOperand_of_scan {source : String} {ts : List Token} (h : scan source = .ok ts) :
    ts.filter isOperand = (Text.digitRuns source.toList).map .operand := by
  obtain ⟨last, hrun, rfl⟩ := map_eq_ok_iff.1 h
  exact Scan.filter_isOperand_of_run (by simp [Scan.start]) (legible_of_scan h) hrun

theorem ofSymbol?_symbol (op : Operator) : ofSymbol? op.symbol = some (.operator op) := by
  cases op <;> rfl

theorem count_operator_of_scan {source : String} {ts : List Token} (h : scan source = .ok ts)
    (op : Operator) : ts.count (.operator op) = source.toList.count op.symbol := by
  obtain ⟨ts', hscan, hsymbols, -⟩ := scan_of_legible (legible_of_scan h)
  rw [h] at hscan
  cases hscan
  calc
    ts.count (.operator op) = (ts.filter fun t => !t.isOperand).count (.operator op) :=
      (List.count_filter rfl).symm
    _ = (source.toList.filterMap ofSymbol?).count (.operator op) := by rw [hsymbols]
    _ = source.toList.countP (fun c => ofSymbol? c == some (.operator op)) :=
      List.count_filterMap
    _ = source.toList.count op.symbol := by
      refine List.countP_congr fun c _ => ?_
      rw [beq_iff_eq, beq_iff_eq, ofSymbol?_eq_some_iff_of_some (ofSymbol?_symbol op)]

end Token

end ArithTree
