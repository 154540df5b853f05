import ArithTree.Token
import ArithTree.Tree.Basic

/-!
# Infix expressions

Two descriptions of the lists of tokens that are infix expressions. The first says only where
operands, operators and parentheses may stand. The second has a layer for each rank of operators
and gives every list at most one tree: an operator of a tighter layer takes its operands first, and
a chain of operators of one layer is grouped from the right.
-/

namespace ArithTree.Infix

inductive WellFormed : List Token → Prop where
  | operand (text : String) : WellFormed [.operand text]
  | group {ts : List Token} (inner : WellFormed ts) :
      WellFormed (.opening :: ts ++ [.closing])
  | operation {ts us : List Token} (op : Operator) (left : WellFormed ts)
      (right : WellFormed us) : WellFormed (ts ++ .operator op :: us)

/-- The layers of the grammar, from the loosest to the tightest. -/
inductive Layer where
  | sum
  | product
  | power
  | atom
  deriving DecidableEq, Repr

def Layer.inner : Layer → Layer
  | sum => product
  | product => power
  | power => atom
  | atom => atom

def layerOf : Operator → Layer
  | .add | .subtract => .sum
  | .multiply | .divide => .product
  | .exponentiate => .power

/-- The lists of tokens of each layer, with their trees. -/
inductive Derives : Layer → List Token → Tree String → Prop where
  | operand (text : String) : Derives .atom [.operand text] (.operand text)
  | group {ts : List Token} {t : Tree String} (inner : Derives .sum ts t) :
      Derives .atom (.opening :: ts ++ [.closing]) t
  | single {layer : Layer} {ts : List Token} {t : Tree String}
      (inner : Derives layer.inner ts t) : Derives layer ts t
  | chain {ts us : List Token} {t u : Tree String} (op : Operator)
      (left : Derives (layerOf op).inner ts t) (right : Derives (layerOf op) us u) :
      Derives (layerOf op) (ts ++ .operator op :: us) (.operation op t u)

end ArithTree.Infix
