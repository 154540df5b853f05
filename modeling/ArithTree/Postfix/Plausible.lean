import ArithTree.Token

/-!
# A quick look at a list in postfix order

A list that is one operand can be evaluated. A longer one has to begin with two operands, to end
with something else, and to hold one operand more than other tokens. A list that passes need not
be a postfix expression, but a list that fails is none. Parentheses count among the other tokens.
-/

namespace ArithTree.Postfix

/-- Whether the list may be a postfix expression, by its ends and its numbers of tokens. -/
def isPlausible : List Token → Bool
  | [] => false
  | [single] => single.isOperand
  | [_, _] => false
  | first :: second :: third :: rest =>
      let tokens := first :: second :: third :: rest
      let operators := tokens.countP fun t => !t.isOperand
      first.isOperand && second.isOperand && !((third :: rest).getLastD third).isOperand &&
        operators + 1 == tokens.length - operators

end ArithTree.Postfix
