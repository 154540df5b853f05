/-!
# Outlines

An outline is a text with outlines below it. Drawn, it takes one line for each of its items: an
item below another stands behind a branch mark, and the lines of what is below it go on behind a
continuation that shows whether the item was the last of its parent.
-/

namespace ArithTree

inductive Outline where
  | item (text : String) (children : List Outline)

namespace Outline

/-- What stands before an item that is not the last of its parent, and before the items below
it. -/
def innerBranch : String := "├─ "
def innerContinuation : String := "│  "

def lastBranch : String := "└─ "
def lastContinuation : String := "   "

mutual

/-- The lines of an outline whose first line stands behind `branch` and whose other lines stand
behind `continuation`. -/
def linesBehind (branch continuation : String) : Outline → List String
  | item text children => (branch ++ text) :: childLines continuation children

def childLines (continuation : String) : List Outline → List String
  | [] => []
  | [child] =>
      linesBehind (continuation ++ lastBranch) (continuation ++ lastContinuation) child
  | child :: next :: rest =>
      linesBehind (continuation ++ innerBranch) (continuation ++ innerContinuation) child ++
        childLines continuation (next :: rest)

end

def lines (outline : Outline) : List String := linesBehind "" "" outline

/-- The drawing of a whole outline, a line break behind every line. -/
def draw (outline : Outline) : String :=
  outline.lines.foldl (fun drawn line => drawn ++ line ++ "\n") ""

end Outline

end ArithTree
