import ArithTree.Outline.Basic

/-!
# Outlines in the making

An outline is put together from its first line to its last. Beginning an item opens it inside the
innermost open item, ending it closes it, and an item without anything below it is added at once.
The outermost item stays open until the outline is taken.
-/

namespace ArithTree.Outline

structure OpenItem where
  text : String
  /-- the finished items below it, the last one first -/
  children : List Outline

def OpenItem.close (opened : OpenItem) : Outline := item opened.text opened.children.reverse

def OpenItem.add (opened : OpenItem) (child : Outline) : OpenItem :=
  { opened with children := child :: opened.children }

structure Sketch where
  innermost : OpenItem
  /-- the open items around the innermost one, from the inside to the outside -/
  around : List OpenItem

namespace Sketch

def start (text : String) : Sketch := ⟨⟨text, []⟩, []⟩

def beginItem (text : String) (s : Sketch) : Sketch := ⟨⟨text, []⟩, s.innermost :: s.around⟩

/-- Closes the innermost open item; the outermost stays open. -/
def endItem (s : Sketch) : Sketch :=
  match s.around with
  | [] => s
  | parent :: around => ⟨parent.add s.innermost.close, around⟩

def addItem (text : String) (s : Sketch) : Sketch :=
  ⟨s.innermost.add (item text []), s.around⟩

def finish (s : Sketch) : Outline :=
  s.around.foldl (fun inner parent => (parent.add inner).close) s.innermost.close

end Sketch

end ArithTree.Outline
