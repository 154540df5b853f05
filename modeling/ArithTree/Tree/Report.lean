import ArithTree.Tree.Count
import ArithTree.Tree.Drawing
import ArithTree.Tree.Evaluation
import ArithTree.Tree.Tokens

/-!
# All about a tree

The texts and numbers by which a tree of numbers is shown.
-/

namespace ArithTree.Tree

def line (t : Tree Float) : String := Token.line t.tokens

def enumeration (t : Tree Float) : String := Token.enumeration t.tokens

structure Report where
  line : String
  value : Float
  operations : Nat
  operands : Nat
  drawing : String

def report (t : Tree Float) : Report where
  line := t.line
  value := t.evaluate
  operations := t.operationCount
  operands := t.operandCount
  drawing := t.drawing

end ArithTree.Tree
