import ArithTree.Outline.Sketch

/-!
# Beginnings and ends of items

The items of an outline are begun, ended and added one after the other. If every beginning has an
end of its own, what is done between the two makes up the items below the one that was begun. A
builder nests if it puts the outline together in just this way, whatever it keeps in the meantime;
the sketch does.
-/

namespace ArithTree.Outline

inductive Call where
  | beginItem (text : String)
  | endItem
  | addItem (text : String)

/-- Every beginning among the calls has an end of its own, and with the calls in between standing
for the items below it, the calls stand for the outlines. -/
inductive Nested : List Call → List Outline → Prop where
  | nil : Nested [] []
  | add {calls : List Call} {outlines : List Outline} (text : String) (h : Nested calls outlines) :
      Nested (.addItem text :: calls) (item text [] :: outlines)
  | group {inner calls : List Call} {children outlines : List Outline} (text : String)
      (hi : Nested inner children) (h : Nested calls outlines) :
      Nested (.beginItem text :: (inner ++ .endItem :: calls)) (item text children :: outlines)

theorem Nested.append {calls more : List Call} {outlines others : List Outline}
    (h : Nested calls outlines) (h' : Nested more others) :
    Nested (calls ++ more) (outlines ++ others) := by
  induction h with
  | nil => exact h'
  | add text _ ih => exact .add text ih
  | group text hi _ _ ih =>
      rw [List.cons_append, List.append_assoc]
      exact .group text hi ih

structure Builder (σ : Type) where
  /-- the state when only the text of the outermost item is known -/
  start : String → σ
  answer : σ → Call → σ
  finish : σ → Outline

/-- Nested calls put their outlines below the outermost item. -/
def Builder.Nests {σ : Type} (b : Builder σ) : Prop :=
  ∀ {calls : List Call} {outlines : List Outline}, Nested calls outlines →
    ∀ text, b.finish (calls.foldl b.answer (b.start text)) = item text outlines

namespace Sketch

def builder : Builder Sketch where
  start := start
  answer s
    | .beginItem text => s.beginItem text
    | .endItem => s.endItem
    | .addItem text => s.addItem text
  finish := finish

/-- Nested calls hang their outlines from the innermost open item and open and close no other. -/
theorem foldl_answer_of_nested {calls : List Call} {outlines : List Outline}
    (h : Nested calls outlines) (s : Sketch) :
    calls.foldl builder.answer s =
      ⟨⟨s.innermost.text, outlines.reverse ++ s.innermost.children⟩, s.around⟩ := by
  induction h generalizing s with
  | nil => rfl
  | add text _ ih =>
      rw [List.foldl_cons, ih]
      simp [builder, addItem, OpenItem.add]
  | group text _ _ ihi ih =>
      rw [List.foldl_cons, List.foldl_append, ihi, List.foldl_cons, ih]
      simp [builder, beginItem, endItem, OpenItem.add, OpenItem.close]

theorem builder_nests : builder.Nests := by
  intro calls outlines h text
  rw [foldl_answer_of_nested h]
  simp [builder, start, finish, OpenItem.close]

end Sketch

/-- There is only one way to pair the beginnings with the ends. -/
theorem Nested.eq {calls : List Call} {outlines others : List Outline}
    (h : Nested calls outlines) (h' : Nested calls others) : outlines = others := by
  have hitem := (Sketch.builder_nests h "").symm.trans (Sketch.builder_nests h' "")
  exact (item.inj hitem).2

end ArithTree.Outline
