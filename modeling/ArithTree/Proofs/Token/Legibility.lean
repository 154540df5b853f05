import ArithTree.Proofs.Infix.Balance
import ArithTree.Token.Scan

/-!
# Legible texts

A text is scanned exactly if all its characters are digits, blanks or symbols. Its tokens are then
the symbols of the text in their order, with operands between them that are written in digits.
-/

namespace ArithTree

def Numeral.IsDigits (text : String) : Prop :=
  text.toList ≠ [] ∧ ∀ c ∈ text.toList, c.isDigit = true

/-- A run of digits has no sign, so it is read as the decimal of these digits. -/
theorem Numeral.read?_of_isDigits {text : String} (h : IsDigits text) :
    read? text = some (Literal.value ⟨text.toList, 0⟩) := by
  obtain ⟨hne, hdigits⟩ := h
  unfold read?
  split
  · rename_i rest htext
    have hminus := hdigits '-' (by simp [htext])
    contradiction
  · rename_i rest htext
    have hplus := hdigits '+' (by simp [htext])
    contradiction
  · rw [readUnsigned?, readLiteral?_digits hne hdigits]

theorem Numeral.isSome_read?_of_isDigits {text : String} (h : IsDigits text) :
    (read? text).isSome := by
  rw [read?_of_isDigits h]
  rfl

namespace Token

/-- A character that may stand in a text. -/
def Legible (c : Char) : Prop := c.isDigit = true ∨ Text.isBlank c = true ∨ c ∈ symbols

instance (c : Char) : Decidable (Legible c) := inferInstanceAs (Decidable (_ ∨ _ ∨ _))

theorem exists_ofSymbol? {c : Char} (h : c ∈ symbols) : ∃ t, ofSymbol? c = some t := by
  have hall : symbols.all (fun c => (ofSymbol? c).isSome) = true := by decide
  exact Option.isSome_iff_exists.1 (List.all_eq_true.1 hall c h)

theorem ofSymbol?_eq_none {c : Char} (h : c ∉ symbols) : ofSymbol? c = none := by
  cases hc : ofSymbol? c with
  | none => rfl
  | some t =>
      obtain ⟨hoperand, htext⟩ := ofSymbol?_eq_some_iff.1 hc
      have hlist : t.text.toList = [c] := by simp [htext]
      have hall : t.text.toList.all (fun d => symbols.contains d) = true := by
        cases t with
        | operand text => contradiction
        | operator op => cases op <;> rfl
        | opening => rfl
        | closing => rfl
      have hc := List.all_eq_true.1 hall c (by simp [hlist])
      exact (h (List.contains_iff_mem.1 hc)).elim

theorem mem_symbols_of_ofSymbol? {c : Char} {t : Token} (h : ofSymbol? c = some t) :
    c ∈ symbols := by
  by_contra hnot
  rw [ofSymbol?_eq_none hnot] at h
  contradiction

/-- A symbol is written by one character only. -/
theorem ofSymbol?_eq_some_iff_of_some {c d : Char} {t : Token} (hd : ofSymbol? d = some t) :
    ofSymbol? c = some t ↔ c = d := by
  constructor
  · intro hc
    have htext : c.toString = d.toString :=
      (ofSymbol?_eq_some_iff.1 hc).2.symm.trans (ofSymbol?_eq_some_iff.1 hd).2
    simpa using congrArg String.toList htext
  · rintro rfl
    exact hd

theorem not_mem_symbols_of_isDigit {c : Char} (h : c.isDigit = true) : c ∉ symbols := by
  have hall : symbols.all (fun c => !c.isDigit) = true := by decide
  intro hc
  have hnot := List.all_eq_true.1 hall c hc
  simp [h] at hnot

theorem not_mem_symbols_of_isBlank {c : Char} (h : Text.isBlank c = true) : c ∉ symbols := by
  have hall : symbols.all (fun c => !Text.isBlank c) = true := by decide
  intro hc
  have hnot := List.all_eq_true.1 hall c hc
  simp [h] at hnot

end Token

namespace Scan

def symbols (s : Scan) : List Token := s.finished.filter fun t => !t.isOperand

structure Sound (s : Scan) : Prop where
  digits : ∀ c ∈ s.digits, c.isDigit = true
  operands : ∀ text, .operand text ∈ s.finished → Numeral.IsDigits text

theorem filter_tokensReversed (s : Scan) :
    s.tokensReversed.filter (fun t => !t.isOperand) = s.symbols := by
  unfold tokensReversed
  split
  · rfl
  · rfl

theorem Sound.tokensReversed {s : Scan} (hs : s.Sound) {text : String}
    (h : .operand text ∈ s.tokensReversed) : Numeral.IsDigits text := by
  unfold Scan.tokensReversed at h
  split at h
  · exact hs.operands text h
  · rename_i hne
    rcases List.mem_cons.1 h with htext | hmem
    · cases htext
      refine ⟨?_, ?_⟩
      · simpa using hne
      · intro c hc
        exact hs.digits c (by simpa using hc)
    · exact hs.operands text hmem

theorem step_digit (s : Scan) {c : Char} (h : c.isDigit = true) :
    s.step c = .ok ⟨s.finished, c :: s.digits, s.position + 1⟩ := by
  rw [step, if_pos h]

theorem step_blank (s : Scan) {c : Char} (h : Text.isBlank c = true) :
    s.step c = .ok ⟨s.tokensReversed, [], s.position + 1⟩ := by
  have hdigit : ¬ c.isDigit = true := by
    intro hc
    rw [Text.isBlank_eq_false_of_isDigit c hc] at h
    contradiction
  rw [step, if_neg hdigit, if_pos h]

theorem step_symbol (s : Scan) {c : Char} {t : Token} (h : Token.ofSymbol? c = some t) :
    s.step c = .ok ⟨t :: s.tokensReversed, [], s.position + 1⟩ := by
  obtain ⟨hoperand, htext⟩ := Token.ofSymbol?_eq_some_iff.1 h
  have hc : c ∈ Token.symbols := Token.mem_symbols_of_ofSymbol? h
  have hdigit : ¬ c.isDigit = true := fun hd => Token.not_mem_symbols_of_isDigit hd hc
  have hblank : ¬ Text.isBlank c = true := fun hb => Token.not_mem_symbols_of_isBlank hb hc
  rw [step, if_neg hdigit, if_neg hblank, if_pos hc, ← htext, Token.read_text_of_symbol hoperand]

/-- A legible character is read: a symbol becomes a token, and nothing else does. -/
theorem step_of_legible (s : Scan) {c : Char} (h : Token.Legible c) :
    ∃ next, s.step c = .ok next ∧ next.symbols = (Token.ofSymbol? c).toList ++ s.symbols ∧
      (s.Sound → next.Sound) := by
  rcases h with hdigit | hblank | hsymbol
  · rw [s.step_digit hdigit, Token.ofSymbol?_eq_none (Token.not_mem_symbols_of_isDigit hdigit)]
    refine ⟨_, rfl, rfl, fun hs => ⟨?_, hs.operands⟩⟩
    intro d hd
    rcases List.mem_cons.1 hd with rfl | hd
    · exact hdigit
    · exact hs.digits d hd
  · rw [s.step_blank hblank, Token.ofSymbol?_eq_none (Token.not_mem_symbols_of_isBlank hblank)]
    refine ⟨_, rfl, s.filter_tokensReversed, fun hs => ⟨by simp, ?_⟩⟩
    intro text hmem
    exact hs.tokensReversed hmem
  · obtain ⟨t, ht⟩ := Token.exists_ofSymbol? hsymbol
    have hoperand := (Token.ofSymbol?_eq_some_iff.1 ht).1
    rw [s.step_symbol ht, ht]
    refine ⟨_, rfl, ?_, fun hs => ⟨by simp, ?_⟩⟩
    · rw [symbols, List.filter_cons_of_pos (by simp [hoperand]), filter_tokensReversed]
      rfl
    · intro text hmem
      rcases List.mem_cons.1 hmem with rfl | hmem
      · contradiction
      · exact hs.tokensReversed hmem

theorem step_of_not_legible (s : Scan) {c : Char} (h : ¬ Token.Legible c) :
    s.step c = .error (.unexpectedCharacter c s.position) := by
  unfold Token.Legible at h
  unfold step
  rw [if_neg fun hc => h (Or.inl hc), if_neg fun hc => h (Or.inr (Or.inl hc)),
    if_neg fun hc => h (Or.inr (Or.inr hc))]

theorem run_of_legible (s : Scan) {text : List Char} (h : ∀ c ∈ text, Token.Legible c) :
    ∃ last, s.run text = .ok last ∧
      last.symbols = (text.filterMap Token.ofSymbol?).reverse ++ s.symbols ∧
      (s.Sound → last.Sound) := by
  induction text generalizing s with
  | nil => exact ⟨s, rfl, rfl, fun hs => hs⟩
  | cons c rest ih =>
      obtain ⟨next, hstep, hsymbols, hsound⟩ := s.step_of_legible (h c List.mem_cons_self)
      obtain ⟨last, hrun, hsymbols', hsound'⟩ :=
        ih next fun d hd => h d (List.mem_cons_of_mem _ hd)
      refine ⟨last, ?_, ?_, fun hs => hsound' (hsound hs)⟩
      · rw [run_cons, hstep]
        exact hrun
      · rw [hsymbols', hsymbols]
        cases hc : Token.ofSymbol? c with
        | none => simp [List.filterMap_cons_none hc]
        | some t => simp [List.filterMap_cons_some hc]

/-- The first character that is not legible ends the scan, whatever follows. -/
theorem run_of_not_legible (s : Scan) {before : List Char} (h : ∀ c ∈ before, Token.Legible c)
    {c : Char} (hc : ¬ Token.Legible c) (after : List Char) :
    s.run (before ++ c :: after) =
      .error (.unexpectedCharacter c (s.position + before.length)) := by
  obtain ⟨last, hrun, -, -⟩ := s.run_of_legible h
  rw [run_append, hrun]
  show last.run (c :: after) = _
  rw [run_cons, last.step_of_not_legible hc, position_of_run hrun]
  rfl

end Scan

namespace Token

/-- The tokens of a legible text: its symbols in their order, and operands written in digits. -/
theorem scan_of_legible {source : String} (h : ∀ c ∈ source.toList, Legible c) :
    ∃ ts, scan source = .ok ts ∧
      ts.filter (fun t => !t.isOperand) = source.toList.filterMap ofSymbol? ∧
      ∀ text, .operand text ∈ ts → Numeral.IsDigits text := by
  obtain ⟨last, hrun, hsymbols, hsound⟩ := Scan.start.run_of_legible h
  have hstart : Scan.start.Sound := ⟨by simp [Scan.start], by simp [Scan.start]⟩
  refine ⟨last.tokens, ?_, ?_, ?_⟩
  · rw [scan, hrun]
    rfl
  · rw [Scan.tokens, List.filter_reverse, Scan.filter_tokensReversed, hsymbols]
    simp [Scan.symbols, Scan.start]
  · intro text hmem
    exact (hsound hstart).tokensReversed (List.mem_reverse.1 hmem)

theorem scan_of_not_legible {source : String} (h : ¬ ∀ c ∈ source.toList, Legible c) :
    ∃ before c after, source.toList = before ++ c :: after ∧ (∀ d ∈ before, Legible d) ∧
      ¬ Legible c ∧ scan source = .error (.unexpectedCharacter c before.length) := by
  have hexists : ∃ c ∈ source.toList, (!decide (Legible c)) = true := by
    simpa only [Classical.not_forall, exists_prop, Bool.not_eq_true', decide_eq_false_iff_not]
      using h
  obtain ⟨c, hfind⟩ := Option.isSome_iff_exists.1 (List.find?_isSome.2 hexists)
  obtain ⟨hc, before, after, hsource, hbefore⟩ := List.find?_eq_some_iff_append.1 hfind
  have hlegible : ∀ d ∈ before, Legible d := fun d hd => by simpa using hbefore d hd
  have hillegible : ¬ Legible c := by simpa using hc
  refine ⟨before, c, after, hsource, hlegible, hillegible, ?_⟩
  rw [scan, hsource, Scan.run_of_not_legible _ hlegible hillegible]
  simp [Scan.start, Except.map]

theorem legible_of_scan {source : String} {ts : List Token} (h : scan source = .ok ts) :
    ∀ c ∈ source.toList, Legible c := by
  by_cases hlegible : ∀ c ∈ source.toList, Legible c
  · exact hlegible
  · obtain ⟨before, c, after, -, -, -, herror⟩ := scan_of_not_legible hlegible
    rw [h] at herror
    contradiction

theorem isDigits_of_scan {source : String} {ts : List Token} (h : scan source = .ok ts)
    {text : String} (hmem : .operand text ∈ ts) : Numeral.IsDigits text := by
  obtain ⟨ts', hscan, -, hdigits⟩ := scan_of_legible (legible_of_scan h)
  rw [h] at hscan
  cases hscan
  exact hdigits text hmem

/-- A text and its tokens are balanced alike. -/
theorem balanced_scan_iff {source : String} {ts : List Token} (h : scan source = .ok ts) :
    Balanced .opening .closing ts ↔ Balanced '(' ')' source.toList := by
  obtain ⟨ts', hscan, hsymbols, -⟩ := scan_of_legible (legible_of_scan h)
  rw [h] at hscan
  cases hscan
  have htokens : Balanced .opening .closing (ts.filter fun t => !t.isOperand) ↔
      Balanced .opening .closing ts := by
    rw [← List.filterMap_eq_filter]
    refine balancedFrom_filterMap _ (by decide) (by decide) ?_ ?_
    · intro t
      cases t <;> simp [Option.guard, isOperand]
    · intro t
      cases t <;> simp [Option.guard, isOperand]
  have htext : Balanced .opening .closing (source.toList.filterMap ofSymbol?) ↔
      Balanced '(' ')' source.toList := by
    refine balancedFrom_filterMap _ (by decide) (by decide) ?_ ?_
    · intro c
      exact ofSymbol?_eq_some_iff_of_some rfl
    · intro c
      exact ofSymbol?_eq_some_iff_of_some rfl
  rw [← htokens, hsymbols, htext]

end Token

end ArithTree
