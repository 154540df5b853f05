import ArithTree.Failure
import ArithTree.Numeral.Reader
import ArithTree.Operator

/-!
# Tokens

The words of an expression: operands, operators and parentheses. An operand keeps the text that
wrote it, whatever that text is, so that `007` and `7` stay apart until their values are asked
for.
-/

namespace ArithTree

inductive Token where
  | operand (text : String)
  | operator (op : Operator)
  | opening
  | closing
  deriving DecidableEq, Repr

namespace Token

def text : Token → String
  | operand text => text
  | operator op => op.symbol.toString
  | opening => "("
  | closing => ")"

def isOperand : Token → Bool
  | operand _ => true
  | _ => false

/-- The operator that the token is. An operand is none, even if its text is an operator's symbol. -/
def operator? : Token → Option Operator
  | operator op => some op
  | _ => none

def value? : Token → Option Float
  | operand text => Numeral.read? text
  | _ => none

def symbols : List Char := ['+', '-', '*', '/', '^', '(', ')']

def ofSymbol? (c : Char) : Option Token :=
  if c = '(' then some opening
  else if c = ')' then some closing
  else (Operator.ofSymbol? c).map operator

def ofSymbolText? (text : String) : Option Token :=
  match text.toList with
  | [c] => ofSymbol? c
  | _ => none

/-- Reads a text that stands alone: a symbol, or the text of a number, which is kept. -/
def read (text : String) : Except Cause Token :=
  match ofSymbolText? text with
  | some symbol => .ok symbol
  | none =>
      if (Numeral.read? text).isSome then .ok (operand text)
      else .error (.unreadableToken (.unknown text))

def line (tokens : List Token) : String :=
  " ".intercalate (tokens.map text)

def enumeration (tokens : List Token) : String :=
  "[" ++ ", ".intercalate (tokens.map text) ++ "]"

theorem ofSymbol?_eq_some_iff {c : Char} {t : Token} :
    ofSymbol? c = some t ↔ t.isOperand = false ∧ t.text = c.toString := by
  constructor
  · intro h
    unfold ofSymbol? at h
    split at h
    · rename_i hc
      cases h
      exact ⟨rfl, by subst hc; rfl⟩
    · split at h
      · rename_i hc
        cases h
        exact ⟨rfl, by subst hc; rfl⟩
      · obtain ⟨op, hop, rfl⟩ := Option.map_eq_some_iff.1 h
        exact ⟨rfl, by rw [text, Operator.symbol_of_ofSymbol? hop]⟩
  · rintro ⟨hkind, htext⟩
    have hlist := congrArg String.toList htext
    cases t with
    | operand => simp [isOperand] at hkind
    | operator op =>
        have hc : op.symbol = c := by simpa [text] using hlist
        subst hc
        cases op <;> rfl
    | opening =>
        have hc : '(' = c := by simpa [text] using hlist
        subst hc
        rfl
    | closing =>
        have hc : ')' = c := by simpa [text] using hlist
        subst hc
        rfl

/-- A symbol written alone is read as itself. -/
theorem read_text_of_symbol {t : Token} (h : t.isOperand = false) : read t.text = .ok t := by
  cases t with
  | operand => simp [isOperand] at h
  | operator op => cases op <;> rfl
  | opening => rfl
  | closing => rfl

theorem line_singleton (t : Token) : line [t] = t.text := by
  simp [line]

theorem line_cons_cons (t u : Token) (rest : List Token) :
    line (t :: u :: rest) = t.text ++ " " ++ line (u :: rest) := by
  apply String.toList_injective
  simp [line, String.toList_intercalate, List.intercalate]

end Token

end ArithTree
