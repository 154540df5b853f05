import ArithTree.Text.DefaultIgnorable
import ArithTree.Text.GraphemeExtend
import ArithTree.Text.Invisible

/-!
# Quoted text

A text between double quotation marks, such that every character of it can be seen. Quotation mark
and backslash stand behind a backslash, four controls have a letter, and every other character that
has no shape of its own, or that would attach itself to its neighbour, is written by its number.
-/

namespace ArithTree.Text

def escapeLetter? : Char → Option Char
  | '"' => some '"'
  | '\\' => some '\\'
  | '\t' => some 't'
  | '\n' => some 'n'
  | '\r' => some 'r'
  | '\x00' => some '0'
  | _ => none

/-- The two sound marks of halfwidth kana, the only letters among the characters that extend the
one before: each stands in a cell of its own. -/
def halfwidthSoundMarks : CodeRange := ⟨0xFF9E, 0xFF9F⟩

/-- Whether the character is drawn onto the one before it. -/
def isAttached (c : Char) : Bool :=
  CodeRange.holds graphemeExtendRanges c.toNat && !CodeRange.holds [halfwidthSoundMarks] c.toNat

def isUnseen (c : Char) : Bool :=
  CodeRange.holds invisibleRanges c.toNat || CodeRange.holds defaultIgnorableRanges c.toNat ||
    isAttached c

/-- The character by its number: lower-case hexadecimal digits without leading zeros, in braces. -/
def numbered (c : Char) : List Char :=
  ['\\', 'u', '\x7b'] ++ Nat.toDigits 16 c.toNat ++ ['\x7d']

def escape (c : Char) : List Char :=
  match escapeLetter? c with
  | some letter => ['\\', letter]
  | none => if isUnseen c then numbered c else [c]

def quote (text : String) : String :=
  String.ofList ('"' :: text.toList.flatMap escape ++ ['"'])

end ArithTree.Text
