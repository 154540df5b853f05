import ArithTree.Proofs.Token.Line
import ArithTree.Token.Cursor

/-!
# The cursor and the scan

Looking ahead and cutting operands out by their offsets comes to the same as reading one character
after the other, for every text: no offset falls within a character, and no character is passed over
or met twice.
-/

namespace ArithTree

namespace Text

theorem exists_digits_append (text : List Char) :
    ∃ digits after, text = digits ++ after ∧ (∀ c ∈ digits, c.isDigit = true) ∧
      ∀ c ∈ after.head?, c.isDigit = false := by
  refine ⟨text.takeWhile Char.isDigit, text.dropWhile Char.isDigit,
    List.takeWhile_append_dropWhile.symm, List.all_eq_true.1 List.all_takeWhile, ?_⟩
  intro c hc
  have hstop := List.head?_dropWhile_not Char.isDigit text
  rw [Option.mem_def.1 hc] at hstop
  exact hstop

/-- The digits in front are passed by as many characters and bytes as they have. -/
theorem digitsAhead_locate (position start : Nat) {digits after : List Char}
    (hdigits : ∀ c ∈ digits, c.isDigit = true) (hafter : ∀ c ∈ after.head?, c.isDigit = false) :
    digitsAhead start (locate position start (digits ++ after)) =
      (start + (String.ofList digits).utf8ByteSize,
        locate (position + digits.length) (start + (String.ofList digits).utf8ByteSize) after) := by
  induction digits generalizing position start with
  | nil =>
      cases after with
      | nil => simp [locate, digitsAhead]
      | cons c rest => simp [locate, digitsAhead, hafter c rfl]
  | cons c digits ih =>
      rw [List.cons_append, locate, digitsAhead, if_pos (hdigits c List.mem_cons_self),
        Located.stop, ih _ _ fun d hd => hdigits d (List.mem_cons_of_mem _ hd)]
      simp [String.ofList_cons, Nat.add_assoc, Nat.add_comm 1]

section Slices

variable {source before : String} (position : Nat) {c : Char} {digits after : List Char}

/-- From the first digit of a run the cursor looks ahead to the end of the run. -/
theorem digitsAhead_locate_of_digit (hdigits : ∀ d ∈ c :: digits, d.isDigit = true)
    (hafter : ∀ d ∈ after.head?, d.isDigit = false) :
    digitsAhead (before.utf8ByteSize + c.utf8Size)
        (locate position (before.utf8ByteSize + c.utf8Size) (digits ++ after)) =
      (before.utf8ByteSize + (String.ofList (c :: digits)).utf8ByteSize,
        locate (position + digits.length)
          (before.utf8ByteSize + (String.ofList (c :: digits)).utf8ByteSize) after) := by
  have hbytes : before.utf8ByteSize + c.utf8Size + (String.ofList digits).utf8ByteSize =
      before.utf8ByteSize + (String.ofList (c :: digits)).utf8ByteSize := by
    simp [String.ofList_cons, Nat.add_assoc]
  have hahead := digitsAhead_locate position (before.utf8ByteSize + c.utf8Size)
    (fun d hd => hdigits d (List.mem_cons_of_mem _ hd)) hafter
  rw [hbytes] at hahead
  exact hahead

theorem slice?_digitsAhead (hdigits : ∀ d ∈ c :: digits, d.isDigit = true)
    (hafter : ∀ d ∈ after.head?, d.isDigit = false)
    (hsource : source.toList = before.toList ++ (c :: digits ++ after)) :
    slice? source before.utf8ByteSize
        (digitsAhead (before.utf8ByteSize + c.utf8Size)
          (locate position (before.utf8ByteSize + c.utf8Size) (digits ++ after))).1 =
      some (String.ofList (c :: digits)) := by
  have hcut : source = before ++ String.ofList (c :: digits) ++ String.ofList after := by
    apply String.toList_injective
    simpa using hsource
  rw [digitsAhead_locate_of_digit position hdigits hafter, hcut]
  exact slice?_append _ _ _

end Slices

end Text

namespace Token

section Steps

variable (source : String) (made : List Token) {c : Text.Located} (rest : List Text.Located)

theorem scanLocated?_blank (h : Text.isBlank c.character = true) :
    scanLocated? source made (c :: rest) = scanLocated? source made rest := by
  rw [scanLocated?, if_pos h]

theorem scanLocated?_symbol {t : Token} (h : ofSymbol? c.character = some t) :
    scanLocated? source made (c :: rest) = scanLocated? source (t :: made) rest := by
  obtain ⟨hkind, htext⟩ := ofSymbol?_eq_some_iff.1 h
  have hsymbol := mem_symbols_of_ofSymbol? h
  have hblank : ¬ Text.isBlank c.character = true :=
    fun hb => not_mem_symbols_of_isBlank hb hsymbol
  rw [scanLocated?, if_neg hblank, if_pos hsymbol, ← htext, read_text_of_symbol hkind]

theorem scanLocated?_digit (h : c.character.isDigit = true) {text : String}
    (htext : Text.slice? source c.start (Text.digitsAhead c.stop rest).1 = some text) :
    scanLocated? source made (c :: rest) =
      scanLocated? source (.operand text :: made) (Text.digitsAhead c.stop rest).2 := by
  have hblank := Text.isBlank_eq_false_of_isDigit _ h
  rw [scanLocated?, if_neg (by simp [hblank]), if_neg (not_mem_symbols_of_isDigit h), if_pos h,
    htext]

theorem scanLocated?_of_not_legible (h : ¬ Legible c.character) :
    scanLocated? source made (c :: rest) =
      some (.error (.unexpectedCharacter c.character c.position)) := by
  unfold Legible at h
  rw [scanLocated?, if_neg fun hc => h (Or.inr (Or.inl hc)),
    if_neg fun hc => h (Or.inr (Or.inr hc)), if_neg fun hc => h (Or.inl hc)]

end Steps

/-- A run of digits that no digit follows is cut out of the text as one operand. -/
theorem scanLocated?_digits {source before : String} (made : List Token) (position : Nat) {c : Char}
    {digits after : List Char} (hdigits : ∀ d ∈ c :: digits, d.isDigit = true)
    (hafter : ∀ d ∈ after.head?, d.isDigit = false)
    (hsource : source.toList = before.toList ++ (c :: digits ++ after)) :
    scanLocated? source made (Text.locate position before.utf8ByteSize (c :: digits ++ after)) =
      scanLocated? source (.operand (String.ofList (c :: digits)) :: made)
        (Text.locate (position + (c :: digits).length)
          (before ++ String.ofList (c :: digits)).utf8ByteSize after) := by
  have hslice := Text.slice?_digitsAhead (position + 1) hdigits hafter hsource
  rw [List.cons_append, Text.locate, scanLocated?_digit _ _ _ (hdigits c List.mem_cons_self) hslice,
    Text.Located.stop, Text.digitsAhead_locate_of_digit (position + 1) hdigits hafter,
    String.utf8ByteSize_append]
  simp [Nat.add_assoc, Nat.add_comm 1]

/-- From any place in a text the cursor goes on as the scan does, as long as no run of digits is cut
in two there. -/
theorem scanLocated?_locate {source before : String} {rest : List Char} {s : Scan}
    (hsource : source.toList = before.toList ++ rest)
    (hdigits : ∀ c ∈ rest.head?, c.isDigit = true → s.digits = []) :
    scanLocated? source s.tokensReversed (Text.locate s.position before.utf8ByteSize rest) =
      some ((s.run rest).map Scan.tokens) := by
  induction hn : rest.length using Nat.strongRecOn generalizing before rest s with
  | ind n ih =>
      cases rest with
      | nil =>
          rw [Text.locate, scanLocated?]
          rfl
      | cons c more =>
          have hmore : more.length < n := by
            rw [← hn]
            exact Nat.lt_succ_self _
          have hpush : source.toList = (before.push c).toList ++ more := by
            rw [hsource, String.toList_push, List.append_assoc, List.singleton_append]
          by_cases hlegible : Legible c
          · rcases hlegible with hdigit | hblank | hsymbol
            · -- the whole run is read at once, so the induction goes on behind it
              have hs : s.digits = [] := hdigits c rfl hdigit
              obtain ⟨digits, after, rfl, hall, hafter⟩ := Text.exists_digits_append more
              have hall' : ∀ d ∈ c :: digits, d.isDigit = true :=
                List.forall_mem_cons.2 ⟨hdigit, hall⟩
              let last : Scan :=
                ⟨s.finished, (c :: digits).reverse ++ s.digits, s.position + (c :: digits).length⟩
              have hlast : last.tokensReversed =
                  .operand (String.ofList (c :: digits)) :: s.tokensReversed := by
                simp [last, Scan.tokensReversed, hs]
              have hshorter : after.length < n := by
                rw [List.length_append] at hmore
                omega
              have hnext := @ih _ hshorter (before ++ String.ofList (c :: digits)) after last
                (by simpa using hsource) (by simp +contextual [hafter]) rfl
              rw [hlast] at hnext
              rw [← List.cons_append, scanLocated?_digits _ _ hall' hafter hsource, Scan.run_append,
                s.run_digits hall']
              exact hnext
            · have hnext := @ih _ hmore (before.push c) more
                ⟨s.tokensReversed, [], s.position + 1⟩ hpush (fun _ _ _ => rfl) rfl
              rw [Scan.tokensReversed_of_digits_eq_nil rfl, String.utf8ByteSize_push] at hnext
              rw [Text.locate, scanLocated?_blank _ _ _ hblank, Scan.run_cons, s.step_blank hblank]
              exact hnext
            · obtain ⟨t, ht⟩ := exists_ofSymbol? hsymbol
              have hnext := @ih _ hmore (before.push c) more
                ⟨t :: s.tokensReversed, [], s.position + 1⟩ hpush (fun _ _ _ => rfl) rfl
              rw [Scan.tokensReversed_of_digits_eq_nil rfl, String.utf8ByteSize_push] at hnext
              rw [Text.locate, scanLocated?_symbol _ _ _ ht, Scan.run_cons, s.step_symbol ht]
              exact hnext
          · rw [Text.locate, scanLocated?_of_not_legible _ _ _ hlegible, Scan.run_cons,
              s.step_of_not_legible hlegible]
            rfl

theorem scanWithCursor?_eq (source : String) : scanWithCursor? source = some (scan source) :=
  @scanLocated?_locate source "" source.toList .start (by simp) fun _ _ _ => rfl

/-- A text is scanned exactly if all its characters are legible. If some are not, the first of them
is named with the number of characters before it, whatever those are and however many bytes they
take: a cursor that looks ahead and cuts by bytes ends in the same way. -/
theorem scan_ends_at_first_illegible (source : String) :
    ((∃ ts, scan source = .ok ts) ↔ ∀ c ∈ source.toList, Legible c) ∧
      (∀ cause, scan source = .error cause ↔
        ∃ before c after, source.toList = before ++ c :: after ∧ (∀ d ∈ before, Legible d) ∧
          ¬ Legible c ∧ cause = .unexpectedCharacter c before.length) ∧
      scanWithCursor? source = some (scan source) := by
  refine ⟨⟨fun ⟨ts, hscan⟩ => legible_of_scan hscan, fun h => ?_⟩, fun cause => ⟨fun h => ?_, ?_⟩,
    scanWithCursor?_eq source⟩
  · obtain ⟨ts, hscan, -⟩ := scan_of_legible h
    exact ⟨ts, hscan⟩
  · have hillegible : ¬ ∀ c ∈ source.toList, Legible c := by
      intro hlegible
      obtain ⟨ts, hscan, -⟩ := scan_of_legible hlegible
      cases hscan.symm.trans h
    obtain ⟨before, c, after, hsource, hbefore, hc, herror⟩ := scan_of_not_legible hillegible
    cases herror.symm.trans h
    exact ⟨before, c, after, hsource, hbefore, hc, rfl⟩
  · rintro ⟨before, c, after, hsource, hbefore, hc, rfl⟩
    rw [scan, hsource, Scan.run_of_not_legible _ hbefore hc]
    simp [Scan.start, Except.map]

/-- Each of the blanks takes two bytes or three. -/
example : scanWithCursor? "12\u00a0+\u2003%" = some (.error (.unexpectedCharacter '%' 5)) := by
  rw [scanWithCursor?_eq]
  rfl

end Token

end ArithTree
