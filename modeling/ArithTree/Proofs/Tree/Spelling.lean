import ArithTree.Proofs.Numeral.Glyphs
import ArithTree.Proofs.Numeral.RoundTrip
import ArithTree.Proofs.Postfix.Respelling
import ArithTree.Proofs.Token.Line
import ArithTree.Proofs.Tree.Agreement
import ArithTree.Tree.Report

/-!
# Trees that are written and read again

The line of a tree is the texts of its tokens with spaces between them. No token has a space in its
text and no number is written like a symbol, so reading the line piece by piece gives the tokens
back. Every number is read as it was written, so the tokens build the tree again.
-/

namespace ArithTree

namespace Tree

variable {α : Type} {write : α → String}

theorem tokensWith_ne_nil (t : Tree α) : t.tokensWith write ≠ [] := by
  cases t <;> simp

/-- A tree is written in operands and operators alone. -/
theorem mem_tokensWith {t : Tree α} {token : Token} (h : token ∈ t.tokensWith write) :
    (∃ x ∈ t.operands, token = .operand (write x)) ∨ ∃ op, token = .operator op := by
  rw [tokensWith_eq_map_contents] at h
  obtain ⟨content, hcontent, rfl⟩ := List.mem_map.1 h
  cases content with
  | operand x => exact Or.inl ⟨x, mem_operands_iff.2 hcontent, rfl⟩
  | operation op => exact Or.inr ⟨op, rfl⟩

theorem exists_of_operand_mem_tokensWith {t : Tree α} {text : String}
    (h : .operand text ∈ t.tokensWith write) : ∃ x ∈ t.operands, write x = text := by
  rcases mem_tokensWith h with ⟨x, hx, htoken⟩ | ⟨op, hop⟩
  · cases htoken
    exact ⟨x, hx, rfl⟩
  · contradiction

theorem space_not_mem_text_of_mem_tokens {t : Tree Float} {token : Token} (h : token ∈ t.tokens) :
    ' ' ∉ token.text.toList := by
  rcases mem_tokensWith h with ⟨x, -, rfl⟩ | ⟨op, rfl⟩
  · exact Numeral.space_not_mem_write x
  · exact Token.space_not_mem_text_of_symbol rfl

theorem pieces_line (t : Tree Float) : Token.pieces t.line = t.tokens.map Token.text :=
  Token.pieces_line (tokensWith_ne_nil t) fun _ => space_not_mem_text_of_mem_tokens

/-- The line of a tree is read as its tokens, and these build the tree again, with every operand as
it was. The tree agrees with itself as numbers do: exactly if no operand is NaN. -/
theorem build_readPieces_line (t : Tree Float) :
    Token.readPieces t.line = .ok t.tokens ∧ Postfix.build t.tokens = .ok t ∧
      (t.agrees t = true ↔ ∀ x ∈ t.operands, x.isNaN = false) := by
  refine ⟨?_, ?_, agrees_self_iff⟩
  · refine Token.readPieces_line (tokensWith_ne_nil t)
      (fun _ => space_not_mem_text_of_mem_tokens) fun text hmem => ?_
    obtain ⟨x, -, rfl⟩ := exists_of_operand_mem_tokensWith hmem
    rw [Numeral.read?_write]
    rfl
  · have hmeaning := Postfix.meaning?_tokensWith Numeral.write id t fun x _ => Numeral.read?_write x
    rw [map_id] at hmeaning
    exact Postfix.build_eq_ok_iff.2 hmeaning

end Tree

end ArithTree
