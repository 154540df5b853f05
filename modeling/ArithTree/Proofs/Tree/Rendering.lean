import ArithTree.Proofs.Numeral.Glyphs
import ArithTree.Proofs.Outline.Nesting
import ArithTree.Proofs.Text.Lines
import ArithTree.Proofs.Tree.Visits
import ArithTree.Tree.Drawing

/-!
# The rows of a drawing

Below its heading a drawing has one row for each place of the tree, an operation before its
operands and the left operand before the right one. In front of a row stand the continuations of
the operations around the place, and a branch mark. A walk that begins an item for each operation
and ends it later comes to these rows, with every builder that nests.
-/

namespace ArithTree

/-! ## Rows -/

namespace Outline

def branch (isLast : Bool) : String := if isLast then lastBranch else innerBranch

def continuation (isLast : Bool) : String := if isLast then lastContinuation else innerContinuation

structure Row where
  /-- of each item around this one, from the outside to the inside, whether it is the last of its
  parent -/
  around : List Bool
  isLast : Bool
  label : String

def margin (around : List Bool) : String := String.join (around.map continuation)

def Row.text (row : Row) : String := margin row.around ++ branch row.isLast ++ row.label

theorem margin_concat (around : List Bool) (isLast : Bool) :
    margin (around ++ [isLast]) = margin around ++ continuation isLast := by
  simp [margin]

theorem toList_draw (outline : Outline) :
    outline.draw.toList = outline.lines.flatMap fun line => line.toList ++ ['\n'] := by
  suffices h : ∀ drawn : String,
      (outline.lines.foldl (fun drawn line => drawn ++ line ++ "\n") drawn).toList =
        drawn.toList ++ outline.lines.flatMap fun line => line.toList ++ ['\n'] from h ""
  induction outline.lines with
  | nil => simp
  | cons line rest ih =>
      intro drawn
      rw [List.foldl_cons, ih]
      simp

end Outline

namespace Tree

open Outline

variable {α : Type}

/-- The rows of a tree that stands below the items `around` it. -/
def rows (write : α → String) (around : List Bool) (isLast : Bool) : Tree α → List Row
  | operand value => [⟨around, isLast, write value⟩]
  | operation op left right =>
      ⟨around, isLast, op.symbol.toString⟩ ::
        (left.rows write (around ++ [isLast]) false ++ right.rows write (around ++ [isLast]) true)

theorem length_rows (write : α → String) (around : List Bool) (isLast : Bool) (t : Tree α) :
    (t.rows write around isLast).length = t.operationCount + t.operandCount := by
  induction t generalizing around isLast with
  | operand value => simp [rows]
  | operation op left right ihl ihr =>
      simp only [rows, List.length_cons, List.length_append, ihl, ihr, operationCount_operation,
        operandCount_operation]
      omega

/-- Each line of an outline's tree shows its way from the outermost item. -/
theorem linesBehind_toOutline (write : α → String) (around : List Bool) (isLast : Bool)
    (t : Tree α) :
    linesBehind (margin around ++ branch isLast) (margin around ++ continuation isLast)
        (t.toOutline write) = (t.rows write around isLast).map Row.text := by
  induction t generalizing around isLast with
  | operand value => rfl
  | operation op left right ihl ihr =>
      have hleft := ihl (around ++ [isLast]) false
      have hright := ihr (around ++ [isLast]) true
      rw [margin_concat] at hleft hright
      rw [rows, List.map_cons, List.map_append, ← hleft, ← hright]
      rfl

end Tree

/-! ## Building -/

def Event.call {α : Type} (write : α → String) : Event α → Outline.Call
  | enter op => .beginItem op.symbol.toString
  | operand value => .addItem (write value)
  | leave _ => .endItem

namespace Tree

open Outline

variable {α σ : Type}

def building (b : Builder σ) (write : α → String) : Visitor α σ where
  operand value state := b.answer state (.addItem (write value))
  enter op state := b.answer state (.beginItem op.symbol.toString)
  leave _ state := b.answer state .endItem

/-- With the sketch this is the visitor that draws. -/
theorem building_sketch (write : α → String) : building Sketch.builder write = sketcher write :=
  rfl

theorem accept_building (b : Builder σ) (write : α → String) (t : Tree α) (state : σ) :
    t.accept (building b write) state = (t.events.map (Event.call write)).foldl b.answer state := by
  have hrespond : (building b write).respond =
      fun state event => b.answer state (Event.call write event) := by
    funext state event
    cases event <;> rfl
  rw [accept_eq_traverse, traverse_eq_foldl, events_eq_visits, hrespond, List.foldl_map]

/-- The item of an operation is ended right behind the items of its operands. -/
theorem nested_events (write : α → String) (t : Tree α) :
    Nested (t.events.map (Event.call write)) [t.toOutline write] := by
  rw [events_eq_visits]
  induction t with
  | operand value => exact .add (write value) .nil
  | operation op left right ihl ihr =>
      rw [visits, List.map_cons, List.map_append, List.map_append]
      exact .group op.symbol.toString (ihl.append ihr) .nil

/-- With every builder that nests, the root is the only item below the heading, and each operand is
below its own operation. -/
theorem finish_building {b : Builder σ} (hb : b.Nests) (write : α → String) (t : Tree α) :
    b.finish (t.accept (building b write) (b.start heading)) =
      .item heading [t.toOutline write] := by
  rw [accept_building]
  exact hb (t.nested_events write) heading

theorem outlineWith_eq (write : α → String) (t : Tree α) :
    t.outlineWith write = .item heading [t.toOutline write] := by
  rw [outlineWith, ← building_sketch]
  exact finish_building Sketch.builder_nests write t

theorem lines_outlineWith (write : α → String) (t : Tree α) :
    (t.outlineWith write).lines = heading :: (t.rows write [] true).map Row.text := by
  rw [outlineWith_eq, ← linesBehind_toOutline]
  rfl

end Tree

/-! ## Lines -/

theorem Outline.newline_not_mem_margin (around : List Bool) :
    '\n' ∉ (margin around).toList := by
  rw [margin, String.toList_join, List.mem_flatMap]
  rintro ⟨text, htext, hmem⟩
  obtain ⟨isLast, -, rfl⟩ := List.mem_map.1 htext
  cases isLast with
  | true => exact absurd hmem (by decide)
  | false => exact absurd hmem (by decide)

theorem Outline.Row.newline_not_mem_text {row : Row} (h : '\n' ∉ row.label.toList) :
    '\n' ∉ row.text.toList := by
  have hbranch : '\n' ∉ (branch row.isLast).toList := by
    cases row.isLast <;> decide
  simp [text, newline_not_mem_margin, hbranch, h]

theorem Outline.count_newline_draw {outline : Outline}
    (h : ∀ line ∈ outline.lines, '\n' ∉ line.toList) :
    outline.draw.toList.count '\n' = outline.lines.length := by
  rw [toList_draw, Text.count_newline h]

namespace Tree

open Outline

theorem newline_not_mem_label {α : Type} {write : α → String}
    (hwrite : ∀ x, '\n' ∉ (write x).toList) {around : List Bool} {isLast : Bool} {t : Tree α}
    {row : Row} (h : row ∈ t.rows write around isLast) : '\n' ∉ row.label.toList := by
  induction t generalizing around isLast with
  | operand value =>
      rw [rows, List.mem_singleton] at h
      rw [h]
      exact hwrite value
  | operation op left right ihl ihr =>
      rw [rows, List.mem_cons, List.mem_append] at h
      have hsymbol : '\n' ≠ op.symbol := by cases op <;> decide
      rcases h with rfl | hleft | hright
      · simpa using hsymbol
      · exact ihl hleft
      · exact ihr hright

/-- Every line of the drawing is one line. -/
theorem newline_not_mem_lines {t : Tree Float} {line : String}
    (h : line ∈ (t.outlineWith Numeral.write).lines) : '\n' ∉ line.toList := by
  rw [lines_outlineWith, List.mem_cons, List.mem_map] at h
  rcases h with rfl | ⟨row, hrow, rfl⟩
  · decide
  · exact Row.newline_not_mem_text (newline_not_mem_label Numeral.newline_not_mem_write hrow)

/-- The drawing of a tree, put together with any builder that nests, is the heading and the rows of
the tree, each on a line of its own. The calls of the builder are the events of the walk: every
beginning has an end of its own, and there is one way only to read them, with each item below that
of its own operation. -/
theorem drawing_eq_rows {σ : Type} {b : Builder σ} (hb : b.Nests) (t : Tree Float) :
    let calls := t.events.map (Event.call Numeral.write)
    let outline := b.finish (t.accept (building b Numeral.write) (b.start heading))
    let rows := t.rows Numeral.write [] true
    t.accept (building b Numeral.write) (b.start heading) = calls.foldl b.answer (b.start heading) ∧
      (∀ outlines, Nested calls outlines ↔ outlines = [t.toOutline Numeral.write]) ∧
      outline = .item heading [t.toOutline Numeral.write] ∧
      outline.draw = t.drawing ∧
      t.drawing = String.join ((heading :: rows.map Row.text).map fun line => line ++ "\n") ∧
      rows.length = t.operationCount + t.operandCount ∧
      t.drawing.toList.count '\n' = 1 + t.operationCount + t.operandCount := by
  intro calls outline rows
  have houtline : outline = .item heading [t.toOutline Numeral.write] :=
    finish_building hb Numeral.write t
  have hnested : Nested calls [t.toOutline Numeral.write] := t.nested_events Numeral.write
  refine ⟨accept_building b Numeral.write t _, fun outlines => ⟨fun h => h.eq hnested, ?_⟩,
    houtline, ?_, ?_, length_rows .., ?_⟩
  · rintro rfl
    exact hnested
  · rw [drawing, outlineWith_eq, houtline]
  · apply String.toList_injective
    rw [drawing, toList_draw, lines_outlineWith, String.toList_join, List.flatMap_map]
    simp [rows]
  · rw [drawing, count_newline_draw fun line => newline_not_mem_lines, lines_outlineWith,
      List.length_cons, List.length_map, length_rows, Nat.add_comm, Nat.add_assoc]

/-- The drawing of `(1 - -1) * 2`: the row of an operand below the difference shows that the
difference is not the last item below the product. -/
theorem drawing_eq_rows_of_product :
    let t : Tree Float :=
      .operation .multiply (.operation .subtract (.operand 1.0) (.operand (-1.0))) (.operand 2.0)
    let built := t.accept (building Sketch.builder Numeral.write) (Sketch.builder.start heading)
    Sketch.builder.Nests ∧ (Sketch.builder.finish built).draw = t.drawing ∧
      (t.rows Numeral.write [] true)[3]? = some ⟨[true, false], true, "-1"⟩ ∧
      t.drawing = "expression\n└─ *\n   ├─ -\n   │  ├─ 1\n   │  └─ -1\n   └─ 2\n" ∧
      t.drawing.toList.count '\n' = 6 := by
  intro t built
  obtain ⟨-, -, -, hdrawn, hdrawing, -, hcount⟩ := drawing_eq_rows Sketch.builder_nests t
  have hrows : t.rows Numeral.write [] true =
      [⟨[], true, "*"⟩, ⟨[true], false, "-"⟩, ⟨[true, false], false, "1"⟩,
        ⟨[true, false], true, "-1"⟩, ⟨[true], true, "2"⟩] := by
    have hone : Numeral.write 1.0 = "1" := by decide +kernel
    have hminus : Numeral.write (-1.0) = "-1" := by decide +kernel
    have htwo : Numeral.write 2.0 = "2" := by decide +kernel
    simp only [t, rows, hone, hminus, htwo]
    rfl
  refine ⟨Sketch.builder_nests, hdrawn, ?_, ?_, ?_⟩
  · rw [hrows]
    rfl
  · rw [hdrawing, hrows]
    decide +kernel
  · rw [hcount]
    simp [t]

end Tree

end ArithTree
