import ArithTree.Text.CodeRange

/-!
# White space

The characters that separate tokens without being part of one: those with the Unicode property
`White_Space`.
-/

namespace ArithTree.Text

/-- The property `White_Space`, which has not changed since Unicode 6.3. -/
def blankRanges : List CodeRange :=
  [⟨0x09, 0x0D⟩, ⟨0x20, 0x20⟩, ⟨0x85, 0x85⟩, ⟨0xA0, 0xA0⟩, ⟨0x1680, 0x1680⟩, ⟨0x2000, 0x200A⟩,
    ⟨0x2028, 0x2029⟩, ⟨0x202F, 0x202F⟩, ⟨0x205F, 0x205F⟩, ⟨0x3000, 0x3000⟩]

def isBlank (c : Char) : Bool :=
  CodeRange.holds blankRanges c.toNat

example : CodeRange.ascending blankRanges = true := by decide
example : CodeRange.count blankRanges = 25 := by decide

/-- No decimal digit is a blank. -/
theorem isBlank_eq_false_of_isDigit (c : Char) (h : c.isDigit = true) : isBlank c = false := by
  simp only [Char.isDigit, Bool.and_eq_true, decide_eq_true_eq] at h
  have hlow : 48 ≤ c.toNat := h.1
  have hhigh : c.toNat ≤ 57 := h.2
  simp only [isBlank, blankRanges, CodeRange.holds, Bool.or_false, Bool.and_eq_false_iff,
    Bool.or_eq_false_iff, decide_eq_false_iff_not]
  omega

end ArithTree.Text
