import ArithTree.Proofs.Expression.Acceptance
import ArithTree.Proofs.Tree.Spelling

/-!
# The line of an expression

An expression keeps its tokens on a line as they were written, while its tree is written from the
values of its operands. The two lines differ at the operands that are not written as their values
are. The line that was kept is scanned as the tokens it was made of, so it determines the tree.
-/

namespace ArithTree

/-- The text is how the number that it is read as is written. -/
def Numeral.IsPrinted (text : String) : Prop := (read? text).map write = some text

instance (text : String) : Decidable (Numeral.IsPrinted text) :=
  inferInstanceAs (Decidable (_ = _))

/-- The reader never takes a run of digits for what is no number. -/
theorem Numeral.isNaN_of_isDigits {text : String} (h : IsDigits text) {x : Float}
    (hx : read? text = some x) : x.isNaN = false := by
  rw [read?_of_isDigits h] at hx
  cases hx
  exact isNaN_value _

/-! ## Lines of digits -/

namespace Token

theorem space_not_mem_text_of_isDigits {ts : List Token}
    (h : ∀ text, .operand text ∈ ts → Numeral.IsDigits text) {t : Token} (ht : t ∈ ts) :
    ' ' ∉ t.text.toList := by
  cases hkind : t.isOperand with
  | false => exact space_not_mem_text_of_symbol hkind
  | true =>
      cases t with
      | operand text =>
          intro hspace
          have hdigit := (h text ht).2 ' ' hspace
          contradiction
      | _ => contradiction

theorem text_eq_iff_of_respelled? {t u : Token} (h : t.respelled? = some u) :
    u.text = t.text ↔ ∀ text, t = .operand text → Numeral.IsPrinted text := by
  cases t with
  | operand text =>
      obtain ⟨x, hx, rfl⟩ : ∃ x, Numeral.read? text = some x ∧ .operand (Numeral.write x) = u := by
        simpa [respelled?, content?, Content.token] using h
      simp [Token.text, Numeral.IsPrinted, hx]
  | operator op =>
      cases h
      simp [Content.token]
  | opening => contradiction
  | closing => contradiction

theorem getElem?_text_ne_iff {ts us : List Token} (h : ts.map respelled? = us.map some) (i : Nat) :
    (us.map text)[i]? ≠ (ts.map text)[i]? ↔
      ∃ text, ts[i]? = some (.operand text) ∧ ¬ Numeral.IsPrinted text := by
  have hi := congrArg (fun tokens => tokens[i]?) h
  simp only [List.getElem?_map] at hi ⊢
  cases ht : ts[i]? with
  | none =>
      cases hu : us[i]? with
      | none => simp
      | some u => simp [ht, hu] at hi
  | some t =>
      cases hu : us[i]? with
      | none => simp [ht, hu] at hi
      | some u =>
          have htu : t.respelled? = some u := by simpa [ht, hu] using hi
          simp only [Option.map_some, ne_eq, Option.some.injEq, text_eq_iff_of_respelled? htu]
          simp

end Token

theorem Tree.isNaN_of_mem_operands {ts : List Token} {t : Tree Float}
    (h : ∀ text, .operand text ∈ ts → Numeral.IsDigits text) (hbuild : Postfix.build ts = .ok t) :
    ∀ x ∈ t.operands, x.isNaN = false := by
  intro x hx
  rw [Postfix.operands_of_build hbuild] at hx
  obtain ⟨token, hmem, hvalue⟩ := List.mem_filterMap.1 hx
  cases token with
  | operand text => exact Numeral.isNaN_of_isDigits (h text hmem) hvalue
  | operator op => contradiction
  | opening => contradiction
  | closing => contradiction

namespace Expression

open Postfix

/-- A tree is written in the tokens that it was built from, with every operand as its value is
written. So the line of an accepted text and the line of its tree have the same pieces, except for
the operands that are not written as their values are. -/
theorem pieces_root_line :
    (∀ ts t, build ts = .ok t → ts.map Token.respelled? = t.tokens.map some) ∧
    ∀ source e, parse source = .ok e →
      ∃ ts root, ofText source = .ok ts ∧ lineOfText source = .ok e.line ∧ e.root = some root ∧
        Token.pieces e.line = ts.map Token.text ∧
        (∀ i : Nat, (Token.pieces root.line)[i]? ≠ (Token.pieces e.line)[i]? ↔
          ∃ text, ts[i]? = some (Token.operand text) ∧ ¬ Numeral.IsPrinted text) ∧
        (root.line = e.line ↔ ∀ text, .operand text ∈ ts → Numeral.IsPrinted text) := by
  refine ⟨fun ts t => map_respelled?_of_build, fun source e h => ?_⟩
  obtain ⟨ts, root, htext, hbuild, rfl⟩ := parse_eq_ok_iff.1 h
  have hrespelled := map_respelled?_of_build hbuild
  have hne : ts ≠ [] := by
    rintro rfl
    cases hbuild
  have hpieces : Token.pieces (Token.line ts) = ts.map Token.text := by
    refine Token.pieces_line hne fun _ => ?_
    exact Token.space_not_mem_text_of_isDigits fun _ => isDigits_of_ofText htext
  have hdiffer : ∀ i : Nat, (Token.pieces root.line)[i]? ≠ (Token.pieces (Token.line ts))[i]? ↔
      ∃ text, ts[i]? = some (Token.operand text) ∧ ¬ Numeral.IsPrinted text := by
    intro i
    rw [root.pieces_line, hpieces]
    exact Token.getElem?_text_ne_iff hrespelled i
  have hline : lineOfText source = .ok (Token.line ts) := by
    rw [lineOfText, htext]
    rfl
  refine ⟨ts, root, htext, hline, rfl, hpieces, hdiffer, ?_⟩
  constructor
  · intro hsame text hmem
    obtain ⟨i, hi⟩ := List.getElem?_of_mem hmem
    by_contra hnot
    exact (hdiffer i).2 ⟨text, hi, hnot⟩ (by rw [hsame])
  · intro hprinted
    have hsame : root.tokens.map Token.text = ts.map Token.text := by
      rw [← root.pieces_line, ← hpieces]
      refine List.ext_getElem? fun i => ?_
      by_contra hnot
      obtain ⟨text, hi, hunprinted⟩ := (hdiffer i).1 hnot
      exact hunprinted (hprinted text (List.mem_of_getElem? hi))
    rw [Tree.line, Token.line, hsame, Token.line]

/-- The line of the tree differs from the line that was kept, since `007` is not how seven is
written. -/
theorem root_line_ne_line : ∃ e root, parse "007 + 1" = .ok e ∧ e.root = some root ∧
    e.line = "007 1 +" ∧ root.line ≠ e.line := by
  have htext : ofText "007 + 1" = .ok [.operand "007", .operand "1", .operator .add] := by rfl
  obtain ⟨root, hroot⟩ : ∃ root,
      build [.operand "007", .operand "1", .operator .add] = .ok root :=
    ⟨_, build_eq_ok_iff.2 rfl⟩
  have hparse : parse "007 + 1" = .ok ⟨some root, "007 + 1", "007 1 +"⟩ :=
    parse_eq_ok_iff.2 ⟨_, root, htext, hroot, rfl⟩
  obtain ⟨ts, root', htext', -, hroot', -, -, hline⟩ := pieces_root_line.2 _ _ hparse
  rw [htext] at htext'
  cases htext'
  cases hroot'
  refine ⟨_, root, hparse, rfl, rfl, fun hsame => ?_⟩
  have hprinted := hline.1 hsame "007" (by simp)
  revert hprinted
  decide +kernel

/-- Tokens whose operands are runs of digits are scanned from their line. Scanning the line of an
accepted text gives the tokens that its tree was built from, so no two trees have one line. -/
theorem scan_line_of_parse :
    (∀ ts, (∀ text, .operand text ∈ ts → Numeral.IsDigits text) →
      Token.scan (Token.line ts) = .ok ts) ∧
    (∀ source e, parse source = .ok e →
      ∃ ts root, ofText source = .ok ts ∧ Token.scan e.line = .ok ts ∧ build ts = .ok root ∧
        e.root = some root ∧ root.agrees root = true) ∧
    ∀ source other e f, parse source = .ok e → parse other = .ok f → e.line = f.line →
      e.root = f.root := by
  have hscan : ∀ {source ts}, ofText source = .ok ts → Token.scan (Token.line ts) = .ok ts :=
    fun htext => Token.scan_line fun _ => isDigits_of_ofText htext
  refine ⟨fun ts => Token.scan_line, fun source e h => ?_, fun source other e f he hf hline => ?_⟩
  · obtain ⟨ts, root, htext, hbuild, rfl⟩ := parse_eq_ok_iff.1 h
    have hagrees := Tree.agrees_self_iff.2
      (Tree.isNaN_of_mem_operands (fun _ => isDigits_of_ofText htext) hbuild)
    exact ⟨ts, root, htext, hscan htext, hbuild, rfl, hagrees⟩
  · obtain ⟨ts, root, htext, hbuild, rfl⟩ := parse_eq_ok_iff.1 he
    obtain ⟨us, root', htext', hbuild', rfl⟩ := parse_eq_ok_iff.1 hf
    have hsame := hscan htext
    rw [show Token.line ts = Token.line us from hline, hscan htext'] at hsame
    cases hsame
    rw [hbuild] at hbuild'
    cases hbuild'
    rfl

/-- Parentheses that change nothing are not on the line, and they do not change the tree. -/
theorem root_eq_of_needless_group : ∃ e f, parse "12 + 3" = .ok e ∧ parse "(12+(3))" = .ok f ∧
    Token.scan e.line = .ok [.operand "12", .operand "3", .operator .add] ∧
    e.line = f.line ∧ e.root = f.root := by
  let ts : List Token := [.operand "12", .operand "3", .operator .add]
  have hdigits : ∀ text, .operand text ∈ ts → Numeral.IsDigits text := by
    intro text hmem
    have htext : text = "12" ∨ text = "3" := by simpa [ts] using hmem
    rcases htext with rfl | rfl
    · exact ⟨by simp, by simp⟩
    · exact ⟨by simp, by simp⟩
  obtain ⟨root, hroot⟩ : ∃ root, build [.operand "12", .operand "3", .operator .add] = .ok root :=
    ⟨_, build_eq_ok_iff.2 rfl⟩
  have he : parse "12 + 3" = .ok ⟨some root, "12 + 3", "12 3 +"⟩ :=
    parse_eq_ok_iff.2 ⟨ts, root, by rfl, hroot, rfl⟩
  have hf : parse "(12+(3))" = .ok ⟨some root, "(12+(3))", "12 3 +"⟩ :=
    parse_eq_ok_iff.2 ⟨ts, root, by rfl, hroot, rfl⟩
  obtain ⟨hscan, -, hdetermined⟩ := scan_line_of_parse
  have hline : Token.scan "12 3 +" = .ok ts := hscan ts hdigits
  exact ⟨_, _, he, hf, hline, rfl, hdetermined _ _ _ _ he hf rfl⟩

end Expression

end ArithTree
