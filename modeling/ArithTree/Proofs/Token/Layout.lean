import ArithTree.Proofs.Token.Cursor
import ArithTree.Proofs.Token.Runs
import Mathlib.Data.List.Chain

/-!
# Layouts

A text that can be scanned is its tokens with white space around them. Operands are runs of digits,
and white space keeps neighbouring ones apart, so no run is taken for two operands and no two for
one: a text is laid out in one way only, and the scan finds it.
-/

namespace ArithTree

/-- The white space in front of a text, and its tokens, each with the white space behind it. -/
structure Layout where
  lead : List Char
  words : List (Token × List Char)

namespace Layout

def tokens (l : Layout) : List Token := l.words.map Prod.fst

def text (l : Layout) : List Char :=
  l.lead ++ l.words.flatMap fun word => word.1.text.toList ++ word.2

structure Proper (l : Layout) : Prop where
  lead : ∀ c ∈ l.lead, Text.isBlank c = true
  gaps : ∀ word ∈ l.words, ∀ c ∈ word.2, Text.isBlank c = true
  digits : ∀ word ∈ l.words, ∀ text, word.1 = .operand text → Numeral.IsDigits text
  /-- white space stands between two operands -/
  apart : l.words.IsChain fun word next =>
    word.1.isOperand = true → next.1.isOperand = true → word.2 ≠ []

section Words

variable {lead gap : List Char} {t : Token} {words : List (Token × List Char)}

theorem text_nil : text ⟨lead, []⟩ = lead := by
  simp [text]

theorem text_cons :
    text ⟨lead, (t, gap) :: words⟩ = lead ++ (t.text.toList ++ text ⟨gap, words⟩) := by
  simp [text]

theorem proper_nil : Proper ⟨lead, []⟩ ↔ ∀ c ∈ lead, Text.isBlank c = true :=
  ⟨fun h => h.lead, fun h => ⟨h, by simp, by simp, .nil⟩⟩

theorem proper_cons :
    Proper ⟨lead, (t, gap) :: words⟩ ↔
      (∀ c ∈ lead, Text.isBlank c = true) ∧ (∀ text, t = .operand text → Numeral.IsDigits text) ∧
        (t.isOperand = true → ∀ next ∈ words.head?, next.1.isOperand = true → gap ≠ []) ∧
        Proper ⟨gap, words⟩ := by
  constructor
  · rintro ⟨hlead, hgaps, hdigits, hapart⟩
    obtain ⟨hhead, hrest⟩ := List.isChain_cons.1 hapart
    exact ⟨hlead, hdigits _ List.mem_cons_self, fun ht next hnext => hhead next hnext ht,
      hgaps _ List.mem_cons_self, fun word hword => hgaps word (List.mem_cons_of_mem _ hword),
      fun word hword => hdigits word (List.mem_cons_of_mem _ hword), hrest⟩
  · rintro ⟨hlead, hdigits, hhead, hrest⟩
    exact ⟨hlead, List.forall_mem_cons.2 ⟨hrest.lead, hrest.gaps⟩,
      List.forall_mem_cons.2 ⟨hdigits, hrest.digits⟩,
      List.isChain_cons.2 ⟨fun next hnext ht => hhead ht next hnext, hrest.apart⟩⟩

end Words

/-! ## Every legible text is laid out -/

theorem isDigits_cons {c : Char} (hc : c.isDigit = true) {digits : List Char}
    (h : ∀ d ∈ digits, d.isDigit = true) : Numeral.IsDigits (String.ofList (c :: digits)) := by
  refine ⟨by simp, ?_⟩
  rw [String.toList_ofList]
  exact List.forall_mem_cons.2 ⟨hc, h⟩

/-- A digit in front of a laid-out text begins the operand that begins there, or is one. -/
theorem exists_proper_cons_digit {c : Char} (hc : c.isDigit = true) {l : Layout} (h : l.Proper) :
    ∃ next : Layout, next.Proper ∧ next.text = c :: l.text := by
  obtain ⟨lead, words⟩ := l
  by_cases hjoin : lead = [] ∧ ∃ text gap rest, words = (.operand text, gap) :: rest
  · obtain ⟨rfl, text, gap, rest, rfl⟩ := hjoin
    obtain ⟨hlead, hdigits, hapart, hrest⟩ := proper_cons.1 h
    refine ⟨⟨[], (.operand (String.ofList (c :: text.toList)), gap) :: rest⟩,
      proper_cons.2 ⟨hlead, ?_, fun _ => hapart rfl, hrest⟩, ?_⟩
    · intro other hother
      obtain rfl := Token.operand.inj hother
      exact isDigits_cons hc (hdigits text rfl).2
    · simp [text_cons, Token.text]
  · refine ⟨⟨[], (.operand (String.ofList [c]), lead) :: words⟩,
      proper_cons.2 ⟨by simp, ?_, fun _ next hnext hkind hlead => ?_, h⟩, ?_⟩
    · intro other hother
      obtain rfl := Token.operand.inj hother
      exact isDigits_cons hc (by simp)
    · obtain ⟨rest, hwords⟩ := List.head?_eq_some_iff.1 (Option.mem_def.1 hnext)
      obtain ⟨t, gap⟩ := next
      cases t with
      | operand text => exact hjoin ⟨hlead, text, gap, rest, hwords⟩
      | _ => contradiction
    · simp [text_cons, Token.text]

theorem exists_proper {source : List Char} (h : ∀ c ∈ source, Token.Legible c) :
    ∃ l : Layout, l.Proper ∧ l.text = source := by
  induction source with
  | nil => exact ⟨⟨[], []⟩, proper_nil.2 (by simp), rfl⟩
  | cons c rest ih =>
      obtain ⟨⟨lead, words⟩, hproper, rfl⟩ := ih fun d hd => h d (List.mem_cons_of_mem _ hd)
      rcases h c List.mem_cons_self with hdigit | hblank | hsymbol
      · exact exists_proper_cons_digit hdigit hproper
      · refine ⟨⟨c :: lead, words⟩, ?_, rfl⟩
        exact ⟨List.forall_mem_cons.2 ⟨hblank, hproper.lead⟩, hproper.gaps, hproper.digits,
          hproper.apart⟩
      · obtain ⟨t, ht⟩ := Token.exists_ofSymbol? hsymbol
        obtain ⟨hkind, htext⟩ := Token.ofSymbol?_eq_some_iff.1 ht
        refine ⟨⟨[], (t, lead) :: words⟩, proper_cons.2 ⟨by simp, ?_, ?_, hproper⟩, ?_⟩
        · rintro text rfl
          contradiction
        · simp [hkind]
        · simp [text_cons, htext, Char.toString]

/-! ## A text is scanned as it is laid out -/

/-- White space adds no token, and leaves no digit at hand unless there is none of it. -/
theorem run_blanks (s : Scan) {blanks : List Char} (h : ∀ c ∈ blanks, Text.isBlank c = true) :
    ∃ next, s.run blanks = .ok next ∧ next.tokensReversed = s.tokensReversed ∧
      (next.digits ≠ [] → next = s ∧ blanks = []) := by
  induction blanks generalizing s with
  | nil => exact ⟨s, rfl, rfl, fun _ => ⟨rfl, rfl⟩⟩
  | cons c rest ih =>
      obtain ⟨next, hrun, htokens, hdigits⟩ :=
        ih ⟨s.tokensReversed, [], s.position + 1⟩ fun d hd => h d (List.mem_cons_of_mem _ hd)
      have hblank : (⟨s.tokensReversed, [], s.position + 1⟩ : Scan).tokensReversed =
          s.tokensReversed := Scan.tokensReversed_of_digits_eq_nil rfl
      rw [hblank] at htokens
      refine ⟨next, ?_, htokens, fun hne => ?_⟩
      · rw [Scan.run_cons, s.step_blank (h c List.mem_cons_self)]
        exact hrun
      · obtain ⟨rfl, -⟩ := hdigits hne
        exact (hne rfl).elim

/-- A text whose operands stay apart from the digits read before it comes to its tokens. -/
theorem run_text {l : Layout} (h : l.Proper) {s : Scan}
    (hs : s.digits ≠ [] → ∀ next ∈ l.words.head?, next.1.isOperand = true → l.lead ≠ []) :
    ∃ last, s.run l.text = .ok last ∧
      last.tokensReversed = l.tokens.reverse ++ s.tokensReversed := by
  obtain ⟨lead, words⟩ := l
  induction words generalizing lead s with
  | nil =>
      obtain ⟨last, hrun, hlast, -⟩ := run_blanks s (proper_nil.1 h)
      exact ⟨last, by rw [text_nil, hrun], hlast⟩
  | cons word words ih =>
      obtain ⟨t, gap⟩ := word
      obtain ⟨hlead, hdigits, hapart, hrest⟩ := proper_cons.1 h
      obtain ⟨middle, hmiddle, htokens, hfresh⟩ := run_blanks s hlead
      -- the digits at hand would be those of `s`, from which the white space keeps an operand apart
      have hempty : t.isOperand = true → middle.digits = [] := by
        intro hkind
        by_contra hne
        obtain ⟨rfl, hlead'⟩ := hfresh hne
        exact hs hne _ rfl hkind hlead'
      obtain ⟨next, hrun, hnext, hkind⟩ := Scan.run_text hempty hdigits
      obtain ⟨last, hrun', hlast⟩ := ih gap hrest (s := next) fun hne => hapart (hkind hne)
      refine ⟨last, ?_, ?_⟩
      · rw [text_cons, Scan.run_append, hmiddle]
        show middle.run _ = _
        rw [Scan.run_append, hrun]
        exact hrun'
      · rw [hlast, hnext, htokens]
        simp [tokens]

theorem scan_of_proper {l : Layout} (h : l.Proper) {source : String}
    (hsource : l.text = source.toList) : Token.scan source = .ok l.tokens := by
  obtain ⟨last, hrun, hlast⟩ := run_text h (s := .start) fun hne => (hne rfl).elim
  have hstart : Scan.start.tokensReversed = [] := rfl
  rw [hsource] at hrun
  rw [Token.scan, hrun]
  simp [Except.map, Scan.tokens, hlast, hstart]

/-! ## A text is laid out in one way -/

theorem not_blank_of_mem_text {t : Token} (ht : ∀ text, t = .operand text → Numeral.IsDigits text) :
    t.text.toList ≠ [] ∧ ∀ c ∈ t.text.toList, Text.isBlank c = false := by
  cases hkind : t.isOperand with
  | false =>
      obtain ⟨c, hc, hsymbol⟩ := Token.exists_text_eq_toString hkind
      have hblank : Text.isBlank c = false := by
        cases hb : Text.isBlank c with
        | false => rfl
        | true =>
            have hmem := Token.mem_symbols_of_ofSymbol? hsymbol
            exact (Token.not_mem_symbols_of_isBlank hb hmem).elim
      simpa [hc, Char.toString] using hblank
  | true =>
      cases t with
      | operand text =>
          obtain ⟨hne, hdigits⟩ := ht text rfl
          exact ⟨hne, fun c hc => Text.isBlank_eq_false_of_isDigit c (hdigits c hc)⟩
      | _ => contradiction

/-- The white space in front of a text ends where its first token begins. -/
theorem takeWhile_text {l : Layout} (h : l.Proper) : l.text.takeWhile Text.isBlank = l.lead := by
  obtain ⟨lead, words⟩ := l
  cases words with
  | nil =>
      have hall : (lead ++ []).takeWhile Text.isBlank = lead ++ [] :=
        List.takeWhile_append_of_pos h.lead
      simpa [text_nil] using hall
  | cons word words =>
      obtain ⟨t, gap⟩ := word
      obtain ⟨hlead, hdigits, -, -⟩ := proper_cons.1 h
      obtain ⟨hne, hblank⟩ := not_blank_of_mem_text hdigits
      obtain ⟨c, rest, hc⟩ := List.exists_cons_of_ne_nil hne
      have hstop := hblank c (by simp [hc])
      rw [text_cons, List.takeWhile_append_of_pos hlead, hc]
      simp [hstop]

theorem lead_eq_of_text_eq {l l' : Layout} (h : l.Proper) (h' : l'.Proper)
    (htext : l.text = l'.text) : l.lead = l'.lead := by
  rw [← takeWhile_text h, htext, takeWhile_text h']

theorem eq_of_tokens_eq {l l' : Layout} (h : l.Proper) (h' : l'.Proper)
    (htokens : l.tokens = l'.tokens) (htext : l.text = l'.text) : l = l' := by
  obtain ⟨lead, words⟩ := l
  obtain ⟨lead', words'⟩ := l'
  obtain rfl : lead = lead' := lead_eq_of_text_eq h h' htext
  induction words generalizing lead words' with
  | nil =>
      have hnil : words' = [] := by simpa [tokens] using htokens.symm
      rw [hnil]
  | cons word words ih =>
      obtain ⟨t, gap⟩ := word
      cases words' with
      | nil => simp [tokens] at htokens
      | cons word' words' =>
          obtain ⟨t', gap'⟩ := word'
          obtain ⟨rfl, htokens'⟩ := List.cons.inj htokens
          obtain ⟨-, -, -, hrest⟩ := proper_cons.1 h
          obtain ⟨-, -, -, hrest'⟩ := proper_cons.1 h'
          rw [text_cons, text_cons] at htext
          have htext' := List.append_cancel_left (List.append_cancel_left htext)
          obtain rfl : gap = gap' := lead_eq_of_text_eq hrest hrest' htext'
          cases ih gap hrest words' hrest' htokens' htext'
          rfl

theorem eq_of_text_eq {l l' : Layout} (h : l.Proper) (h' : l'.Proper) (htext : l.text = l'.text) :
    l = l' := by
  have hscan : Token.scan (String.ofList l'.text) = .ok l.tokens :=
    scan_of_proper h (by simp [htext])
  have hscan' : Token.scan (String.ofList l'.text) = .ok l'.tokens :=
    scan_of_proper h' (by simp)
  exact eq_of_tokens_eq h h' (Except.ok.inj (hscan.symm.trans hscan')) htext

/-- Without its white space, a text is the texts of its tokens. -/
theorem filter_text {l : Layout} (h : l.Proper) :
    l.text.filter (fun c => !Text.isBlank c) = l.tokens.flatMap fun t => t.text.toList := by
  obtain ⟨lead, words⟩ := l
  have hblanks : ∀ blanks : List Char, (∀ c ∈ blanks, Text.isBlank c = true) →
      blanks.filter (fun c => !Text.isBlank c) = [] := by
    intro blanks hb
    simpa [List.filter_eq_nil_iff] using hb
  induction words generalizing lead with
  | nil =>
      rw [text_nil, hblanks lead (proper_nil.1 h)]
      rfl
  | cons word words ih =>
      obtain ⟨t, gap⟩ := word
      obtain ⟨hlead, hdigits, -, hrest⟩ := proper_cons.1 h
      have hword : t.text.toList.filter (fun c => !Text.isBlank c) = t.text.toList := by
        rw [List.filter_eq_self]
        intro c hc
        simp [(not_blank_of_mem_text hdigits).2 c hc]
      rw [text_cons, List.filter_append, List.filter_append, hblanks lead hlead, hword,
        ih gap hrest]
      rfl

end Layout

/-- A text that is scanned is laid out as its tokens in exactly one way. So without its white space
it is the texts of its tokens, and its operands are its runs of digits. In any text the slice that a
cursor cuts out between its offsets in bytes, from a digit on, is the run of digits from there. -/
theorem Token.scan_layout (source : String) :
    (∀ ts, scan source = .ok ts →
      (∃ l : Layout, l.Proper ∧ l.text = source.toList ∧ l.tokens = ts ∧
        ∀ other : Layout, other.Proper → other.text = source.toList → other = l) ∧
      (ts.flatMap fun t => t.text.toList) = source.toList.filter (fun c => !Text.isBlank c) ∧
      ts.filter isOperand = (Text.digitRuns source.toList).map .operand) ∧
    (∀ (before : String) (c : Char) (digits after : List Char),
      source.toList = before.toList ++ (c :: digits ++ after) →
      (∀ d ∈ c :: digits, d.isDigit = true) → (∀ d ∈ after.head?, d.isDigit = false) →
      let stop := before.utf8ByteSize + c.utf8Size
      Text.slice? source before.utf8ByteSize
          (Text.digitsAhead stop (Text.locate (before.length + 1) stop (digits ++ after))).1 =
        some (String.ofList (c :: digits))) ∧
    scanWithCursor? source = some (scan source) := by
  refine ⟨fun ts h => ?_, fun before c digits after hsource hdigits hafter => ?_,
    scanWithCursor?_eq source⟩
  · obtain ⟨l, hproper, htext⟩ := Layout.exists_proper (legible_of_scan h)
    have htokens : l.tokens = ts :=
      Except.ok.inj ((Layout.scan_of_proper hproper htext).symm.trans h)
    refine ⟨⟨l, hproper, htext, htokens, fun other hother hsource => ?_⟩, ?_,
      filter_isOperand_of_scan h⟩
    · exact Layout.eq_of_text_eq hother hproper (hsource.trans htext.symm)
    · rw [← htokens, ← Layout.filter_text hproper, htext]
  · exact Text.slice?_digitsAhead _ hdigits hafter hsource

/-- The wide blanks keep two operands apart, and the bytes that they take cut none of them short. -/
theorem Token.scan_layout_of_wide_blanks :
    let source := "12\u00a03 +\u2003(4"
    let ts := [operand "12", operand "3", operator .add, opening, operand "4"]
    (scan source = .ok ts ∧
      ∃ l : Layout, l.Proper ∧ l.text = source.toList ∧ l.tokens = ts ∧
        ∀ other : Layout, other.Proper → other.text = source.toList → other = l) ∧
    Text.slice? source 11 (Text.digitsAhead 12 []).1 = some "4" := by
  have hlayout := scan_layout "12\u00a03 +\u2003(4"
  exact ⟨⟨rfl, (hlayout.1 _ rfl).1⟩,
    hlayout.2.1 "12\u00a03 +\u2003(" '4' [] [] (by decide) (by simp) (by simp)⟩

end ArithTree
