import ArithTree.Proofs.Token.Layout
import Mathlib.Logic.Relation

/-!
# Adjoining texts

The scan of two adjoining texts is decided by the scans of its parts. What has been read of a text
influences what follows only through the run of digits at its end, so the tokens of the parts stand
one behind the other unless a run of digits goes on across the seam; and what ends the scan of the
second part ends it at a position that counts the characters of the first. White space at a seam
that cuts no run of digits therefore changes nothing.
-/

namespace ArithTree

namespace Text

def DigitsMeet (before after : String) : Prop :=
  (∃ c ∈ before.toList.getLast?, c.isDigit = true) ∧
    ∃ c ∈ after.toList.head?, c.isDigit = true

/-- White space is put into a text, at a place that is not between two digits. -/
inductive Spaced : String → String → Prop where
  | insert {before blanks after : String} (hblanks : ∀ c ∈ blanks.toList, isBlank c = true)
      (hseam : ¬ DigitsMeet before after) :
      Spaced (before ++ after) (before ++ blanks ++ after)

theorem not_digitsMeet_blanks_right {before blanks : String}
    (h : ∀ c ∈ blanks.toList, isBlank c = true) : ¬ DigitsMeet before blanks := by
  rintro ⟨-, c, hc, hdigit⟩
  have hblank := h c (List.mem_of_mem_head? hc)
  rw [isBlank_eq_false_of_isDigit c hdigit] at hblank
  contradiction

theorem not_digitsMeet_append_blanks {before blanks after : String}
    (h : ∀ c ∈ blanks.toList, isBlank c = true) (hseam : ¬ DigitsMeet before after) :
    ¬ DigitsMeet (before ++ blanks) after := by
  rintro ⟨⟨c, hc, hdigit⟩, hafter⟩
  rw [String.toList_append, List.getLast?_append] at hc
  cases hlast : blanks.toList.getLast? with
  | none =>
      rw [hlast, Option.none_or] at hc
      exact hseam ⟨⟨c, hc, hdigit⟩, hafter⟩
  | some d =>
      rw [hlast, Option.some_or, Option.mem_some_iff] at hc
      have hblank := h d (List.mem_of_getLast? hlast)
      rw [hc, isBlank_eq_false_of_isDigit c hdigit] at hblank
      contradiction

end Text

namespace Scan

/-! ## A scan behind another text -/

/-- The scan as it is behind a text of `n` characters with the given tokens, the last one first. -/
def behind (s : Scan) (before : List Token) (n : Nat) : Scan :=
  ⟨s.finished ++ before, s.digits, s.position + n⟩

section Behind

variable {s next last : Scan} (before : List Token) (n : Nat)

theorem tokensReversed_behind (s : Scan) :
    (s.behind before n).tokensReversed = s.tokensReversed ++ before := by
  unfold tokensReversed behind
  split <;> rfl

theorem step_behind {c : Char} (h : s.step c = .ok next) :
    (s.behind before n).step c = .ok (next.behind before n) := by
  have hposition : s.position + n + 1 = s.position + 1 + n := by omega
  by_cases hlegible : Token.Legible c
  · rcases hlegible with hdigit | hblank | hsymbol
    · rw [s.step_digit hdigit] at h
      cases h
      rw [step_digit _ hdigit]
      simp [behind, hposition]
    · rw [s.step_blank hblank] at h
      cases h
      rw [step_blank _ hblank, tokensReversed_behind]
      simp [behind, hposition]
    · obtain ⟨t, ht⟩ := Token.exists_ofSymbol? hsymbol
      rw [s.step_symbol ht] at h
      cases h
      rw [step_symbol _ ht, tokensReversed_behind]
      simp [behind, hposition]
  · rw [s.step_of_not_legible hlegible] at h
    contradiction

theorem run_behind {text : List Char} (h : s.run text = .ok last) :
    (s.behind before n).run text = .ok (last.behind before n) := by
  induction text generalizing s with
  | nil =>
      cases h
      rfl
  | cons c rest ih =>
      rw [run_cons] at h
      obtain ⟨next, hstep, hrest⟩ := bind_eq_ok_iff.1 h
      rw [run_cons, step_behind before n hstep]
      exact ih hrest

end Behind

/-- A character that no digits at hand are joined to is read as if it began a text of its own. -/
theorem step_eq_step_behind (s : Scan) {c : Char} (h : c.isDigit = true → s.digits = []) :
    s.step c = (start.behind s.tokensReversed s.position).step c := by
  have htokens : (start.behind s.tokensReversed s.position).tokensReversed = s.tokensReversed := rfl
  have hposition : (start.behind s.tokensReversed s.position).position = s.position :=
    Nat.zero_add _
  cases hc : c.isDigit with
  | true =>
      have hempty := h hc
      have hfinished := tokensReversed_of_digits_eq_nil hempty
      rw [step_digit _ hc, step_digit _ hc, hposition, hfinished, hempty]
      rfl
  | false =>
      have hdigit : ¬ c.isDigit = true := by simp [hc]
      rw [step, step, if_neg hdigit, if_neg hdigit, htokens, hposition]

/-- A text that no digits at hand are joined to adds the tokens that it has by itself. -/
theorem exists_run_of_apart {s last : Scan} {text : List Char}
    (hs : ∀ c ∈ text.head?, c.isDigit = true → s.digits = []) (h : start.run text = .ok last) :
    ∃ next, s.run text = .ok next ∧ next.tokens = s.tokens ++ last.tokens := by
  cases text with
  | nil =>
      cases h
      exact ⟨s, rfl, (List.append_nil _).symm⟩
  | cons c rest =>
      refine ⟨last.behind s.tokensReversed s.position, ?_, ?_⟩
      · rw [run_cons, s.step_eq_step_behind (hs c rfl), ← run_cons]
        exact run_behind _ _ h
      · rw [tokens, tokensReversed_behind, List.reverse_append]
        rfl

/-- The digits in front of a text are joined to those at hand, and what follows them adds the tokens
that it has by itself. -/
theorem exists_run_of_digits (s : Scan) {rest : Scan} {digits after : List Char}
    (hne : digits ≠ []) (hdigits : ∀ c ∈ digits, c.isDigit = true)
    (hafter : ∀ c ∈ after.head?, c.isDigit = false) (h : start.run after = .ok rest) :
    ∃ last, s.run (digits ++ after) = .ok last ∧
      last.tokens = s.finished.reverse ++
        .operand (String.ofList (s.digits.reverse ++ digits)) :: rest.tokens := by
  let middle : Scan := ⟨s.finished, digits.reverse ++ s.digits, s.position + digits.length⟩
  have hmiddle : middle.tokens =
      s.finished.reverse ++ [.operand (String.ofList (s.digits.reverse ++ digits))] := by
    simp [middle, tokens, tokensReversed, hne]
  have hapart : ∀ c ∈ after.head?, c.isDigit = true → middle.digits = [] := by
    intro c hc hdigit
    rw [hafter c hc] at hdigit
    contradiction
  obtain ⟨last, hlast, htokens⟩ := exists_run_of_apart hapart h
  refine ⟨last, ?_, ?_⟩
  · rw [run_append, s.run_digits hdigits]
    exact hlast
  · rw [htokens, hmiddle, List.append_assoc]
    rfl

theorem digits_of_step {s next : Scan} {c : Char} (h : s.step c = .ok next) :
    next.digits = [] ↔ c.isDigit = false := by
  unfold step at h
  split at h
  · rename_i hdigit
    cases h
    simp [hdigit]
  · rename_i hdigit
    have hc : c.isDigit = false := by simpa using hdigit
    repeat' split at h
    all_goals first | contradiction | (cases h; simp [hc])

/-- Digits are at hand behind a text exactly if it ends with a digit. -/
theorem digits_of_run {last : Scan} {text : List Char} (h : start.run text = .ok last) :
    last.digits ≠ [] ↔ ∃ c ∈ text.getLast?, c.isDigit = true := by
  rcases List.eq_nil_or_concat text with rfl | ⟨init, c, rfl⟩
  · cases h
    simp [start]
  · rw [List.concat_eq_append, run_append] at h
    obtain ⟨middle, -, hlast⟩ := bind_eq_ok_iff.1 h
    rw [run_cons] at hlast
    obtain ⟨next, hstep, hnil⟩ := bind_eq_ok_iff.1 hlast
    cases hnil
    simp [digits_of_step hstep]

end Scan

namespace Token

variable {a b : String} {ts us : List Token} {cause : Cause}

/-! ## The two parts of a text -/

theorem scan_of_illegible_at {source : String} {before after : List Char} {c : Char}
    (hsource : source.toList = before ++ c :: after) (hbefore : ∀ d ∈ before, Legible d)
    (hc : ¬ Legible c) : scan source = .error (.unexpectedCharacter c before.length) := by
  rw [scan, hsource, Scan.run_of_not_legible _ hbefore hc]
  simp [Scan.start, Except.map]

theorem exists_of_scan_error (h : scan a = .error cause) :
    ∃ before c after, a.toList = before ++ c :: after ∧ (∀ d ∈ before, Legible d) ∧
      ¬ Legible c ∧ cause = .unexpectedCharacter c before.length := by
  have hillegible : ¬ ∀ c ∈ a.toList, Legible c := by
    intro hlegible
    obtain ⟨ts, hscan, -⟩ := scan_of_legible hlegible
    cases hscan.symm.trans h
  obtain ⟨before, c, after, hsource, hbefore, hc, herror⟩ := scan_of_not_legible hillegible
  cases herror.symm.trans h
  exact ⟨before, c, after, hsource, hbefore, hc, rfl⟩

theorem exists_scan_of_scan_append (h : scan (a ++ b) = .ok ts) :
    (∃ us, scan a = .ok us) ∧ ∃ vs, scan b = .ok vs := by
  have hlegible := legible_of_scan h
  rw [String.toList_append] at hlegible
  obtain ⟨us, ha, -⟩ := scan_of_legible fun c hc => hlegible c (List.mem_append_left _ hc)
  obtain ⟨vs, hb, -⟩ := scan_of_legible fun c hc => hlegible c (List.mem_append_right _ hc)
  exact ⟨⟨us, ha⟩, vs, hb⟩

/-- What ends the scan of the first part ends that of both. -/
theorem scan_append_of_error (h : scan a = .error cause) :
    (∃ c p, cause = .unexpectedCharacter c p) ∧ scan (a ++ b) = .error cause := by
  obtain ⟨before, c, after, hsource, hbefore, hc, rfl⟩ := exists_of_scan_error h
  have hboth : (a ++ b).toList = before ++ c :: (after ++ b.toList) := by
    rw [String.toList_append, hsource, List.append_assoc, List.cons_append]
  exact ⟨⟨c, before.length, rfl⟩, scan_of_illegible_at hboth hbefore hc⟩

theorem scan_append_of_ok_of_error (ha : scan a = .ok ts) (hb : scan b = .error cause) :
    ∃ c p, cause = .unexpectedCharacter c p ∧
      scan (a ++ b) = .error (.unexpectedCharacter c (p + a.length)) := by
  obtain ⟨before, c, after, hsource, hbefore, hc, rfl⟩ := exists_of_scan_error hb
  have hboth : (a ++ b).toList = (a.toList ++ before) ++ c :: after := by
    rw [String.toList_append, hsource, List.append_assoc]
  have hlegible : ∀ d ∈ a.toList ++ before, Legible d :=
    List.forall_mem_append.2 ⟨legible_of_scan ha, hbefore⟩
  refine ⟨c, before.length, rfl, ?_⟩
  rw [scan_of_illegible_at hboth hlegible hc, List.length_append, String.length_toList,
    Nat.add_comm]

theorem scan_append_of_apart (hseam : ¬ Text.DigitsMeet a b) (ha : scan a = .ok ts)
    (hb : scan b = .ok us) : scan (a ++ b) = .ok (ts ++ us) := by
  obtain ⟨first, hfirst, rfl⟩ := map_eq_ok_iff.1 ha
  obtain ⟨second, hsecond, rfl⟩ := map_eq_ok_iff.1 hb
  have hapart : ∀ c ∈ b.toList.head?, c.isDigit = true → first.digits = [] := by
    intro c hc hdigit
    by_contra hne
    exact hseam ⟨(Scan.digits_of_run hfirst).1 hne, c, hc, hdigit⟩
  obtain ⟨last, hlast, htokens⟩ := Scan.exists_run_of_apart hapart hsecond
  rw [scan, String.toList_append, Scan.run_append, hfirst, ← htokens]
  show (first.run b.toList).map Scan.tokens = _
  rw [hlast]
  rfl

/-- A run of digits that goes on across the seam is one operand. -/
theorem scan_append_of_digitsMeet (hseam : Text.DigitsMeet a b) (ha : scan a = .ok ts)
    (hb : scan b = .ok us) :
    ∃ before x y after, ts = before ++ [.operand x] ∧ us = .operand y :: after ∧
      scan (a ++ b) = .ok (before ++ .operand (x ++ y) :: after) := by
  obtain ⟨first, hfirst, rfl⟩ := map_eq_ok_iff.1 ha
  obtain ⟨hlast, c, hc, hdigit⟩ := hseam
  have hfirst_ne : first.digits ≠ [] := (Scan.digits_of_run hfirst).2 hlast
  obtain ⟨digits, after, hsplit, hdigits, hafter⟩ := Text.exists_digits_append b.toList
  have hne : digits ≠ [] := by
    rintro rfl
    rw [hsplit, List.nil_append] at hc
    rw [hafter c hc] at hdigit
    contradiction
  have hlegible : ∀ d ∈ after, Legible d := by
    intro d hd
    exact legible_of_scan hb d (hsplit ▸ List.mem_append_right digits hd)
  obtain ⟨rest, hrest, -⟩ := Scan.start.run_of_legible hlegible
  -- the run is read once behind the digits of the first part, and once by itself
  obtain ⟨joined, hjoined, htokens⟩ := first.exists_run_of_digits hne hdigits hafter hrest
  obtain ⟨second, hsecond, husTokens⟩ := Scan.start.exists_run_of_digits hne hdigits hafter hrest
  rw [← hsplit] at hjoined hsecond
  refine ⟨first.finished.reverse, String.ofList first.digits.reverse, String.ofList digits,
    rest.tokens, ?_, ?_, ?_⟩
  · simp [Scan.tokens, Scan.tokensReversed, hfirst_ne]
  · rw [scan, hsecond] at hb
    exact (Except.ok.inj hb).symm.trans husTokens
  · rw [scan, String.toList_append, Scan.run_append, hfirst, ← String.ofList_append, ← htokens]
    show (first.run b.toList).map Scan.tokens = _
    rw [hjoined]
    rfl

/-! ## White space at a seam -/

theorem scan_blanks {blanks : String} (h : ∀ c ∈ blanks.toList, Text.isBlank c = true) :
    scan blanks = .ok [] :=
  Layout.scan_of_proper (Layout.proper_nil.2 h) Layout.text_nil

theorem scan_insert_blanks {blanks : String} (hblanks : ∀ c ∈ blanks.toList, Text.isBlank c = true)
    (hseam : ¬ Text.DigitsMeet a b) (ha : scan a = .ok ts) (hb : scan b = .ok us) :
    scan (a ++ blanks ++ b) = scan (a ++ b) := by
  have hfirst := scan_append_of_apart (Text.not_digitsMeet_blanks_right hblanks) ha
    (scan_blanks hblanks)
  rw [List.append_nil] at hfirst
  rw [scan_append_of_apart (Text.not_digitsMeet_append_blanks hblanks hseam) hfirst hb,
    scan_append_of_apart hseam ha hb]

theorem scan_eq_ok_iff_of_spaced {s t : String} (h : Text.Spaced s t) :
    scan s = .ok ts ↔ scan t = .ok ts := by
  obtain ⟨hblanks, hseam⟩ := h
  constructor
  · intro hscan
    obtain ⟨⟨us, ha⟩, vs, hb⟩ := exists_scan_of_scan_append hscan
    rw [scan_insert_blanks hblanks hseam ha hb, hscan]
  · intro hscan
    obtain ⟨⟨us, hfirst⟩, vs, hb⟩ := exists_scan_of_scan_append hscan
    obtain ⟨⟨ws, ha⟩, -⟩ := exists_scan_of_scan_append hfirst
    rw [← scan_insert_blanks hblanks hseam ha hb, hscan]

theorem scan_eq_ok_iff_of_eqvGen {s t : String} (h : Relation.EqvGen Text.Spaced s t) :
    scan s = .ok ts ↔ scan t = .ok ts := by
  induction h with
  | rel s t h => exact scan_eq_ok_iff_of_spaced h
  | refl s => exact Iff.rfl
  | symm s t _ ih => exact ih.symm
  | trans s t u _ _ ihs iht => exact ihs.trans iht

/-- Two adjoining texts are scanned as their parts are. The first character that is not legible ends
the scan in either part, in the second one at a position that counts the characters of the first.
Otherwise the tokens of the parts stand one behind the other, but for two operands that meet at the
seam in a digit each: those become one. Texts that differ by white space put in or taken out
anywhere but between two digits have the same tokens. A cursor that looks ahead across the seam
comes to the same. -/
theorem scan_append (a b : String) :
    (∀ cause, scan a = .error cause →
      (∃ c p, cause = .unexpectedCharacter c p) ∧ scan (a ++ b) = .error cause) ∧
    (∀ ts cause, scan a = .ok ts → scan b = .error cause →
      ∃ c p, cause = .unexpectedCharacter c p ∧
        scan (a ++ b) = .error (.unexpectedCharacter c (p + a.length))) ∧
    (∀ ts us, scan a = .ok ts → scan b = .ok us →
      (¬ Text.DigitsMeet a b → scan (a ++ b) = .ok (ts ++ us)) ∧
      (Text.DigitsMeet a b →
        ∃ before x y after, ts = before ++ [.operand x] ∧ us = .operand y :: after ∧
          scan (a ++ b) = .ok (before ++ .operand (x ++ y) :: after))) ∧
    (∀ s t, Relation.EqvGen Text.Spaced s t → ∀ ts, scan s = .ok ts ↔ scan t = .ok ts) ∧
    scanWithCursor? (a ++ b) = some (scan (a ++ b)) := by
  refine ⟨fun cause ha => scan_append_of_error ha,
    fun ts cause ha hb => scan_append_of_ok_of_error ha hb, fun ts us ha hb => ⟨?_, ?_⟩,
    fun s t h ts => scan_eq_ok_iff_of_eqvGen h, scanWithCursor?_eq _⟩
  · intro hseam
    exact scan_append_of_apart hseam ha hb
  · intro hseam
    exact scan_append_of_digitsMeet hseam ha hb

/-- The digits of `3` and `45` meet, so they are one operand. What is no token is found at its place
in the whole text. A wide blank between an operator and a digit adds nothing. -/
theorem scan_append_of_cut_run :
    (scan "2 %" = .error (.unexpectedCharacter '%' 2) ∧
      scan ("2 %" ++ "45") = .error (.unexpectedCharacter '%' 2)) ∧
    (scan "12 + 3" = .ok [.operand "12", .operator .add, .operand "3"] ∧
      scan "4 %" = .error (.unexpectedCharacter '%' 2) ∧
      ∃ c p, Cause.unexpectedCharacter '%' 2 = .unexpectedCharacter c p ∧
        scan ("12 + 3" ++ "4 %") = .error (.unexpectedCharacter c (p + 6))) ∧
    (scan "45 (" = .ok [.operand "45", .opening] ∧ Text.DigitsMeet "12 + 3" "45 (" ∧
      ∃ before x y after, [.operand "12", .operator .add, .operand "3"] = before ++ [.operand x] ∧
        [.operand "45", .opening] = .operand y :: after ∧
        scan ("12 + 3" ++ "45 (") = .ok (before ++ .operand (x ++ y) :: after)) ∧
    (Relation.EqvGen Text.Spaced ("12 +" ++ "3") ("12 +" ++ "\u2003" ++ "3") ∧
      ∀ ts, scan ("12 +" ++ "3") = .ok ts ↔ scan ("12 +" ++ "\u2003" ++ "3") = .ok ts) := by
  have hillegible : scan "2 %" = .error (.unexpectedCharacter '%' 2) := rfl
  have hfirst : scan "12 + 3" = .ok [.operand "12", .operator .add, .operand "3"] := rfl
  have herror : scan "4 %" = .error (.unexpectedCharacter '%' 2) := rfl
  have hsecond : scan "45 (" = .ok [.operand "45", .opening] := rfl
  have hmeet : Text.DigitsMeet "12 + 3" "45 (" := ⟨⟨'3', rfl, rfl⟩, '4', rfl, rfl⟩
  have hblank : ∀ c ∈ "\u2003".toList, Text.isBlank c = true := by
    intro c hc
    obtain rfl : c = '\u2003' := by simpa using hc
    rfl
  have hspaced : Relation.EqvGen Text.Spaced ("12 +" ++ "3") ("12 +" ++ "\u2003" ++ "3") := by
    refine .rel _ _ (.insert hblank ?_)
    rintro ⟨⟨c, hc, hdigit⟩, -⟩
    obtain rfl : '+' = c := by simpa using hc
    exact absurd hdigit (by decide)
  exact ⟨⟨hillegible, ((scan_append "2 %" "45").1 _ hillegible).2⟩,
    ⟨hfirst, herror, (scan_append "12 + 3" "4 %").2.1 _ _ hfirst herror⟩,
    ⟨hsecond, hmeet, ((scan_append "12 + 3" "45 (").2.2.1 _ _ hfirst hsecond).2 hmeet⟩,
    hspaced, (scan_append "12 +" "3").2.2.2.1 _ _ hspaced⟩

end Token

end ArithTree
