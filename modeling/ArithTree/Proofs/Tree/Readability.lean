import ArithTree.Proofs.Numeral.RoundTrip
import ArithTree.Proofs.Text.Lines
import ArithTree.Proofs.Token.Line
import ArithTree.Proofs.Tree.Likeness
import ArithTree.Proofs.Tree.Rendering

/-!
# Reading a drawing

A drawing shows the tree it is of, up to how the operands are written. It comes apart into its lines
at the line breaks, and the lines are the rows of one tree only: the number of an operand is never
written like the symbol of an operator, so each row shows whether the rows of two more trees follow.
-/

namespace ArithTree

/-! ## Lines -/

theorem Outline.splitOnP_draw {outline : Outline}
    (h : ∀ line ∈ outline.lines, '\n' ∉ line.toList) :
    outline.draw.toList.splitOnP (fun c => c == '\n') =
      outline.lines.map String.toList ++ [[]] := by
  rw [toList_draw, Text.splitOnP_newline h]

/-- Outlines with one drawing have the same lines. -/
theorem Outline.lines_eq_of_draw_eq {outline other : Outline}
    (h : ∀ line ∈ outline.lines, '\n' ∉ line.toList)
    (h' : ∀ line ∈ other.lines, '\n' ∉ line.toList) (hdraw : outline.draw = other.draw) :
    outline.lines = other.lines := by
  have hsplit := splitOnP_draw h
  rw [hdraw, splitOnP_draw h', List.append_left_inj] at hsplit
  exact (List.map_injective_iff.2 fun _ _ => String.toList_injective) hsplit.symm

theorem Outline.Row.text_inj {around : List Bool} {isLast : Bool} {label other : String} :
    Row.text ⟨around, isLast, label⟩ = Row.text ⟨around, isLast, other⟩ ↔ label = other :=
  String.append_right_inj _

/-! ## Rows -/

/-- No number is written like an operator. -/
theorem Numeral.write_ne_symbol (x : Float) (op : Operator) : write x ≠ op.symbol.toString := by
  intro h
  have hread := read?_write x
  have hsymbol : read? op.symbol.toString = none :=
    Token.read?_text_of_symbol (t := .operator op) rfl
  rw [h, hsymbol] at hread
  contradiction

namespace Tree

open Outline

section Writing

variable {α : Type} {write : α → String}

/-- The rows of a tree show where they end, and up to how the operands are written they show the
tree: a tree is told from the rows behind it. -/
theorem alike_of_rows_append (hwrite : ∀ x (op : Operator), write x ≠ op.symbol.toString)
    {t u : Tree α} {around : List Bool} {isLast : Bool} {rest more : List String}
    (h : (t.rows write around isLast).map Row.text ++ rest =
      (u.rows write around isLast).map Row.text ++ more) :
    t.Alike (fun x y => write x = write y) u ∧ rest = more := by
  induction t generalizing u around isLast rest more with
  | operand x =>
      cases u with
      | operand y =>
          obtain ⟨hrow, hrest⟩ := List.cons.inj h
          exact ⟨.operand (Row.text_inj.1 hrow), hrest⟩
      | operation op left right =>
          obtain ⟨hrow, -⟩ := List.cons.inj h
          exact absurd (Row.text_inj.1 hrow) (hwrite x op)
  | operation op left right ihl ihr =>
      cases u with
      | operand y =>
          obtain ⟨hrow, -⟩ := List.cons.inj h
          exact absurd (Row.text_inj.1 hrow).symm (hwrite y op)
      | operation op' left' right' =>
          simp only [rows, List.map_cons, List.map_append, List.cons_append, List.append_assoc,
            List.cons.injEq] at h
          obtain ⟨hrow, hrows⟩ := h
          have hop : op = op' := by
            have hsymbol := congrArg String.toList (Row.text_inj.1 hrow)
            exact Operator.symbol_injective (by simpa using hsymbol)
          subst hop
          obtain ⟨hl, hrows⟩ := ihl hrows
          obtain ⟨hr, hrest⟩ := ihr hrows
          exact ⟨.operation op hl hr, hrest⟩

theorem rows_eq_of_alike {t u : Tree α} (h : t.Alike (fun x y => write x = write y) u)
    (around : List Bool) (isLast : Bool) :
    t.rows write around isLast = u.rows write around isLast := by
  induction h generalizing around isLast with
  | operand h => rw [rows, rows, h]
  | operation op _ _ ihl ihr => rw [rows, rows, ihl, ihr]

end Writing

/-- Two trees have one drawing exactly if they have the same shape, the same operators in the same
places, and operands that are written alike. -/
theorem drawing_eq_iff (t u : Tree Float) :
    t.drawing = u.drawing ↔ t.Alike (fun x y => Numeral.write x = Numeral.write y) u := by
  constructor
  · intro h
    have hlines := lines_eq_of_draw_eq (fun _ => newline_not_mem_lines)
      (fun _ => newline_not_mem_lines) h
    rw [lines_outlineWith, lines_outlineWith, List.cons.injEq] at hlines
    have hrows : (t.rows Numeral.write [] true).map Row.text ++ [] =
        (u.rows Numeral.write [] true).map Row.text ++ [] := by
      rw [hlines.2]
    exact (alike_of_rows_append Numeral.write_ne_symbol hrows).1
  · intro h
    rw [drawing, drawing, draw, draw, lines_outlineWith, lines_outlineWith, rows_eq_of_alike h]

end Tree

end ArithTree
