import ArithTree.Text.Quoted

/-!
# Lines

A text that is put together line by line, each with a line break at its end, comes apart into the
same lines if no line has a line break in it. Quoted texts have none: the line break is among the
characters that are written by a letter, and no other character is written with it.
-/

namespace ArithTree.Text

theorem splitOnP_newline {lines : List String} (h : ∀ line ∈ lines, '\n' ∉ line.toList) :
    (lines.flatMap fun line => line.toList ++ ['\n']).splitOnP (fun c => c == '\n') =
      lines.map String.toList ++ [[]] := by
  induction lines with
  | nil => rfl
  | cons line rest ih =>
      have hline : line.toList.splitOnP (fun c => c == '\n') = [line.toList] := by
        refine List.splitOnP_eq_singleton fun c hc => beq_eq_false_iff_ne.2 ?_
        rintro rfl
        exact h line List.mem_cons_self hc
      have hrest := ih fun other hmem => h other (List.mem_cons_of_mem _ hmem)
      rw [List.flatMap_cons, List.append_assoc, List.singleton_append,
        List.splitOnP_append_cons (p := fun c => c == '\n') _ _ rfl, hline, hrest]
      rfl

theorem count_newline {lines : List String} (h : ∀ line ∈ lines, '\n' ∉ line.toList) :
    (lines.flatMap fun line => line.toList ++ ['\n']).count '\n' = lines.length := by
  induction lines with
  | nil => rfl
  | cons line rest ih =>
      have hline : line.toList.count '\n' = 0 :=
        List.count_eq_zero_of_not_mem (h line List.mem_cons_self)
      have hrest := ih fun other hmem => h other (List.mem_cons_of_mem _ hmem)
      rw [List.flatMap_cons, List.count_append, List.count_append, hline, hrest, List.length_cons]
      simp [Nat.add_comm]

theorem toList_join_lines (lines : List String) :
    (String.join (lines.map fun line => line ++ "\n")).toList =
      lines.flatMap fun line => line.toList ++ ['\n'] := by
  rw [String.toList_join, List.flatMap_map]
  simp

/-! ## What is written without a line break -/

theorem exists_digitChar_of_mem_toDigits {base n : Nat} (hbase : 1 < base) {c : Char}
    (h : c ∈ Nat.toDigits base n) : ∃ d, c = Nat.digitChar d := by
  induction n using Nat.strongRecOn with
  | ind n ih =>
      rw [Nat.toDigits_eq_if hbase] at h
      split at h
      · exact ⟨n, List.mem_singleton.1 h⟩
      · rename_i hle
        rcases List.mem_append.1 h with hquotient | hlast
        · exact ih (n / base) (Nat.div_lt_self (by omega) hbase) hquotient
        · exact ⟨n % base, List.mem_singleton.1 hlast⟩

theorem digitChar_ne_newline (d : Nat) : Nat.digitChar d ≠ '\n' := by
  grind [Nat.digitChar]

theorem newline_not_mem_toDigits {base : Nat} (hbase : 1 < base) (n : Nat) :
    '\n' ∉ Nat.toDigits base n := by
  intro h
  obtain ⟨d, hd⟩ := exists_digitChar_of_mem_toDigits hbase h
  exact digitChar_ne_newline d hd.symm

theorem newline_not_mem_escape (c : Char) : '\n' ∉ escape c := by
  unfold escape
  split
  · rename_i letter hletter
    have hne : letter ≠ '\n' := by
      rintro rfl
      unfold escapeLetter? at hletter
      split at hletter <;> simp at hletter
    simp [hne.symm]
  · rename_i hnone
    have hne : c ≠ '\n' := by
      rintro rfl
      contradiction
    split
    · simp [numbered, newline_not_mem_toDigits]
    · simp [hne.symm]

theorem newline_not_mem_quote (text : String) : '\n' ∉ (quote text).toList := by
  simp [quote, newline_not_mem_escape]

end ArithTree.Text
