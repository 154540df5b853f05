import ArithTree.Proofs.Token.Legibility
import Mathlib.Data.List.Basic

/-!
# Lines of tokens

A line of tokens is read in two ways. Taken apart at its spaces, it gives back every token whose
text has no space in it and is read as what it is. Scanned as a text, it gives back all tokens whose
operands are runs of digits: the space behind a token ends the run and adds nothing.
-/

namespace ArithTree

namespace Token

/-! ## Reading a line piece by piece -/

/-- The pieces of a text between its spaces. -/
def pieces (text : String) : List String := (text.split ' ').toList.map (·.copy)

def readPieces (text : String) : Except Cause (List Token) := (pieces text).mapM read

theorem pieces_line {ts : List Token} (hne : ts ≠ []) (h : ∀ t ∈ ts, ' ' ∉ t.text.toList) :
    pieces (line ts) = ts.map text := by
  have hspace : ∀ piece ∈ ts.map text, ' ' ∉ piece.toList := by
    intro piece hpiece
    obtain ⟨t, ht, rfl⟩ := List.mem_map.1 hpiece
    exact h t ht
  have hsplit := String.toList_split_intercalate hspace
  rw [if_neg (by simpa using hne)] at hsplit
  exact hsplit

theorem exists_text_eq_toString {t : Token} (h : t.isOperand = false) :
    ∃ c : Char, t.text = c.toString ∧ ofSymbol? c = some t := by
  have htext : ∃ c : Char, t.text = c.toString := by
    cases t with
    | operand => contradiction
    | operator op => exact ⟨op.symbol, rfl⟩
    | opening => exact ⟨'(', rfl⟩
    | closing => exact ⟨')', rfl⟩
  obtain ⟨c, hc⟩ := htext
  exact ⟨c, hc, ofSymbol?_eq_some_iff.2 ⟨h, hc⟩⟩

theorem space_not_mem_text_of_symbol {t : Token} (h : t.isOperand = false) :
    ' ' ∉ t.text.toList := by
  cases t with
  | operand => contradiction
  | operator op => cases op <;> decide
  | opening => decide
  | closing => decide

theorem read?_text_of_symbol {t : Token} (h : t.isOperand = false) :
    Numeral.read? t.text = none := by
  cases t with
  | operand => contradiction
  | operator op => cases op <;> rfl
  | opening => rfl
  | closing => rfl

/-- The text of a number is no symbol, so it is read as an operand. -/
theorem read_of_isSome_read? {text : String} (h : (Numeral.read? text).isSome) :
    read text = .ok (.operand text) := by
  unfold read
  split
  · rename_i symbol hsymbol
    unfold ofSymbolText? at hsymbol
    split at hsymbol
    · rename_i c hlist
      obtain ⟨hkind, htext⟩ := ofSymbol?_eq_some_iff.1 hsymbol
      have hc : text = symbol.text := by
        apply String.toList_injective
        rw [hlist, htext, Char.toString, String.toList_singleton]
      rw [hc, read?_text_of_symbol hkind] at h
      contradiction
    · contradiction
  · rw [if_pos h]

theorem readPieces_line {ts : List Token} (hne : ts ≠ [])
    (hspace : ∀ t ∈ ts, ' ' ∉ t.text.toList)
    (hread : ∀ text, .operand text ∈ ts → (Numeral.read? text).isSome) :
    readPieces (line ts) = .ok ts := by
  rw [readPieces, pieces_line hne hspace]
  clear hne hspace
  induction ts with
  | nil => rfl
  | cons t ts ih =>
      have ht : read t.text = .ok t := by
        cases hkind : t.isOperand with
        | false => exact read_text_of_symbol hkind
        | true =>
            cases t with
            | operand text => exact read_of_isSome_read? (hread text List.mem_cons_self)
            | _ => contradiction
      rw [List.map_cons, List.mapM_cons, ht,
        ih fun text hmem => hread text (List.mem_cons_of_mem _ hmem)]
      rfl

end Token

/-! ## Scanning a line -/

namespace Scan

theorem run_digits (s : Scan) {digits : List Char} (h : ∀ c ∈ digits, c.isDigit = true) :
    s.run digits = .ok ⟨s.finished, digits.reverse ++ s.digits, s.position + digits.length⟩ := by
  induction digits generalizing s with
  | nil => rfl
  | cons c rest ih =>
      rw [run_cons, s.step_digit (h c List.mem_cons_self)]
      show run _ rest = _
      rw [ih _ fun d hd => h d (List.mem_cons_of_mem _ hd)]
      simp [Nat.add_comm, Nat.add_left_comm]

theorem tokensReversed_of_digits_eq_nil {s : Scan} (h : s.digits = []) :
    s.tokensReversed = s.finished := by
  rw [tokensReversed, h]
  rfl

/-- The text of a token comes to this token, unless digits in front of an operand belong to it. -/
theorem run_text {s : Scan} {t : Token} (hs : t.isOperand = true → s.digits = [])
    (ht : ∀ text, t = .operand text → Numeral.IsDigits text) :
    ∃ next, s.run t.text.toList = .ok next ∧ next.tokensReversed = t :: s.tokensReversed ∧
      (next.digits ≠ [] → t.isOperand = true) := by
  cases hkind : t.isOperand with
  | false =>
      obtain ⟨c, hc, hsymbol⟩ := Token.exists_text_eq_toString hkind
      refine ⟨⟨t :: s.tokensReversed, [], s.position + 1⟩, ?_,
        tokensReversed_of_digits_eq_nil rfl, fun hne => (hne rfl).elim⟩
      rw [hc, Char.toString, String.toList_singleton, run_cons, s.step_symbol hsymbol]
      rfl
  | true =>
      have hempty := hs hkind
      cases t with
      | operand text =>
          obtain ⟨hne, hdigits⟩ := ht text rfl
          refine ⟨_, s.run_digits hdigits, ?_, fun _ => rfl⟩
          simp [tokensReversed, hempty, hne, Token.text]
      | _ => contradiction

theorem run_line {s : Scan} (hs : s.digits = []) {ts : List Token}
    (h : ∀ text, .operand text ∈ ts → Numeral.IsDigits text) :
    ∃ last, s.run (Token.line ts).toList = .ok last ∧
      last.tokensReversed = ts.reverse ++ s.finished := by
  induction ts generalizing s with
  | nil => exact ⟨s, rfl, tokensReversed_of_digits_eq_nil hs⟩
  | cons t ts ih =>
      have ht : ∀ text, t = .operand text → Numeral.IsDigits text := by
        rintro text rfl
        exact h text List.mem_cons_self
      obtain ⟨next, hrun, hnext, -⟩ := run_text (fun _ => hs) ht
      rw [tokensReversed_of_digits_eq_nil hs] at hnext
      cases ts with
      | nil => exact ⟨next, by rw [Token.line_singleton, hrun], hnext⟩
      | cons u rest =>
          have hblank := next.step_blank (c := ' ') (by decide)
          obtain ⟨last, hrest, hlast⟩ :=
            @ih ⟨next.tokensReversed, [], next.position + 1⟩ rfl
              fun text hmem => h text (List.mem_cons_of_mem _ hmem)
          refine ⟨last, ?_, ?_⟩
          · rw [Token.line_cons_cons, String.toList_append, String.toList_append,
              List.append_assoc, run_append, hrun]
            show next.run (' ' :: (Token.line (u :: rest)).toList) = _
            rw [run_cons, hblank]
            exact hrest
          · rw [hlast, hnext]
            simp

end Scan

theorem Token.scan_line {ts : List Token}
    (h : ∀ text, .operand text ∈ ts → Numeral.IsDigits text) : scan (line ts) = .ok ts := by
  obtain ⟨last, hrun, hlast⟩ := Scan.run_line (s := .start) rfl h
  rw [scan, hrun]
  simp [Except.map, Scan.tokens, hlast, Scan.start]

end ArithTree
