import ArithTree.Numeral.Written
import ArithTree.Outline.Sketch
import ArithTree.Tree.Walk

/-!
# The drawing of a tree

A walk turns a tree into an outline: entering an operation begins an item, leaving it ends that
item, and an operand is an item of its own. The root stands below the heading of the drawing.
-/

namespace ArithTree.Tree

variable {α : Type}

def heading : String := "expression"

def sketcher (write : α → String) : Visitor α Outline.Sketch where
  operand value sketch := sketch.addItem (write value)
  enter op sketch := sketch.beginItem op.symbol.toString
  leave _ sketch := sketch.endItem

def outlineWith (write : α → String) (t : Tree α) : Outline :=
  (t.accept (sketcher write) (Outline.Sketch.start heading)).finish

def drawing (t : Tree Float) : String := (t.outlineWith Numeral.write).draw

def toOutline (write : α → String) : Tree α → Outline
  | operand value => .item (write value) []
  | operation op left right =>
      .item op.symbol.toString [left.toOutline write, right.toOutline write]

end ArithTree.Tree
