import ArithTree.Proofs.Numeral.Digits

/-!
# The characters of a written number

A number is written in digits, a minus sign, a point and the letters of its two words. None of
these is a space or a line break.
-/

namespace ArithTree.Numeral

/-- A character that may stand in the text of a number. -/
def Glyph (c : Char) : Prop := c.isDigit = true ∨ c ∈ ['-', '.', 'i', 'n', 'f', 'N', 'a']

instance (c : Char) : Decidable (Glyph c) := inferInstanceAs (Decidable (_ ∨ _))

theorem glyph_of_all {text : List Char} (hall : text.all (fun c => decide (Glyph c)) = true)
    {c : Char} (h : c ∈ text) : Glyph c :=
  of_decide_eq_true (List.all_eq_true.1 hall c h)

theorem Decimal.glyph_of_mem_positional {d : Decimal} {c : Char} (h : c ∈ d.positional) :
    Glyph c := by
  obtain ⟨whole, fraction, -, hdigits, hpositional, -⟩ := d.positional_spec
  rw [hpositional] at h
  cases fraction with
  | nil => exact Or.inl (hdigits c (List.mem_append_left _ h))
  | cons f fs =>
      rcases List.mem_append.1 h with hwhole | hrest
      · exact Or.inl (hdigits c (List.mem_append_left _ hwhole))
      · rcases List.mem_cons.1 hrest with rfl | hfraction
        · decide
        · exact Or.inl (hdigits c (List.mem_append_right _ hfraction))

theorem glyph_of_mem_writeMagnitude {x : Float} {c : Char} (h : c ∈ writeMagnitude x) :
    Glyph c := by
  unfold writeMagnitude at h
  split at h
  · exact glyph_of_all (by decide) h
  · simp only at h
    split at h
    · exact glyph_of_all (by decide) h
    · exact Decimal.glyph_of_mem_positional h

theorem glyph_of_mem_write {x : Float} {c : Char} (h : c ∈ (write x).toList) : Glyph c := by
  unfold write at h
  split at h
  · exact glyph_of_all (by decide) h
  · split at h
    · rw [String.toList_ofList] at h
      rcases List.mem_cons.1 h with rfl | hrest
      · decide
      · exact glyph_of_mem_writeMagnitude hrest
    · rw [String.toList_ofList] at h
      exact glyph_of_mem_writeMagnitude h

/-- The text of a number does not come apart at spaces. -/
theorem space_not_mem_write (x : Float) : ' ' ∉ (write x).toList := by
  intro h
  have hspace : ¬ Glyph ' ' := by decide
  exact hspace (glyph_of_mem_write h)

/-- The text of a number stays on its line. -/
theorem newline_not_mem_write (x : Float) : '\n' ∉ (write x).toList := by
  intro h
  have hnewline : ¬ Glyph '\n' := by decide
  exact hnewline (glyph_of_mem_write h)

end ArithTree.Numeral
