import ArithTree.Scaffold.Placement
import ArithTree.Text.Quoted

/-!
# The trace of a parse

What is put on record while the text of an expression is turned into a tree, one record for each
thing that was achieved.
-/

namespace ArithTree

/-- How closely one has to look to be shown a record. -/
inductive Level where
  | info
  | debug
  | trace
  deriving DecidableEq, Repr

def Level.label : Level → String
  | info => "INFO"
  | debug => "DEBUG"
  | trace => "TRACE"

/-- How many levels are shown before it. The first two, for errors and for warnings, have no
records here. -/
def Level.depth : Level → Nat
  | info => 2
  | debug => 3
  | trace => 4

inductive Record where
  | scanned (source : String) (tokens : List Token)
  | reordered (source : String) (tokens : List Token)
  /-- a token was placed below the root -/
  | placed (placement : Placement)
  | built (source : String) (operations : Nat)
  deriving DecidableEq, Repr

def Placement.text (p : Placement) : String :=
  if p.token.isOperand then
    "Placed operand " ++ p.token.text ++ " as node " ++ toString p.place ++ " under " ++
      toString p.parent
  else "Placed operator " ++ p.token.text ++ " as node " ++ toString p.place

namespace Record

/-- The level of a record: the two results of a parse can be seen from further away. -/
def level : Record → Level
  | scanned .. => .trace
  | reordered .. => .debug
  | placed _ => .trace
  | built .. => .debug

def target : Record → String
  | scanned .. => "expression_tree::interpreter::lexer"
  | reordered .. => "expression_tree::interpreter::parser"
  | placed _ => "expression_tree::interpreter::parser::tree_builder"
  | built .. => "expression_tree::interpreter::syntax::expression_tree"

def text : Record → String
  | scanned source tokens =>
      "Tokenized " ++ Text.quote source ++ " into " ++ Token.enumeration tokens
  | reordered source tokens =>
      "Converted " ++ Text.quote source ++ " into postfix " ++ Token.enumeration tokens
  | placed placement => placement.text
  | built source operations =>
      "Built expression tree for " ++ Text.quote source ++ " with " ++ toString operations ++
        " operations"

end Record

end ArithTree
