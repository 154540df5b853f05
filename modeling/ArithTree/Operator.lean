/-!
# The five binary operators

An operator has a symbol, a name, a rank that says how tightly it binds, and a meaning on binary64
numbers. Ranks come in three classes: sums, products and powers.
-/

namespace ArithTree

inductive Operator where
  | add
  | subtract
  | multiply
  | divide
  | exponentiate
  deriving DecidableEq, Repr

namespace Operator

def symbol : Operator → Char
  | add => '+'
  | subtract => '-'
  | multiply => '*'
  | divide => '/'
  | exponentiate => '^'

def ofSymbol? : Char → Option Operator
  | '+' => some add
  | '-' => some subtract
  | '*' => some multiply
  | '/' => some divide
  | '^' => some exponentiate
  | _ => none

theorem ofSymbol?_symbol (op : Operator) : ofSymbol? op.symbol = some op := by
  cases op <;> rfl

theorem symbol_of_ofSymbol? {c : Char} {op : Operator} (h : ofSymbol? c = some op) :
    op.symbol = c := by
  unfold ofSymbol? at h
  split at h <;> first | contradiction | (cases h; rfl)

theorem symbol_injective {op other : Operator} (h : op.symbol = other.symbol) : op = other := by
  simpa [ofSymbol?_symbol] using congrArg ofSymbol? h

def name : Operator → String
  | add => "Add"
  | subtract => "Subtract"
  | multiply => "Multiply"
  | divide => "Divide"
  | exponentiate => "Exponentiate"

/-- How tightly the operator binds: the operator of the greater rank takes its operands first. -/
def rank : Operator → Nat
  | add | subtract => 3
  | multiply | divide => 4
  | exponentiate => 5

/-- The operator's value at two numbers. Nothing fails: a quotient by zero is infinite or no
number, and a power follows the rules of the binary64 power function. -/
def apply : Operator → Float → Float → Float
  | add, x, y => x + y
  | subtract, x, y => x - y
  | multiply, x, y => x * y
  | divide, x, y => x / y
  | exponentiate, x, y => Float.pow x y

end Operator

end ArithTree
