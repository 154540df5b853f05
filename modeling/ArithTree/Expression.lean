import ArithTree.Postfix.Build
import ArithTree.Postfix.Reorder
import ArithTree.Token.Scan
import ArithTree.Trace
import ArithTree.Tree.Copy
import ArithTree.Tree.Equality
import ArithTree.Tree.Report

/-!
# Expressions

An expression is a text together with its tree and with its tokens in postfix order as they were
written. The empty expression has no tree. The three parts of an expression change together or not
at all: a text that cannot be parsed leaves an expression as it was.
-/

namespace ArithTree

def Postfix.ofText (text : String) : Except Cause (List Token) :=
  (Token.scan text).bind Postfix.ofInfix

def Postfix.lineOfText (text : String) : Except Cause String :=
  (Postfix.ofText text).map Token.line

def Tree.ofInfix (tokens : List Token) : Except Cause (Tree Float) :=
  (Postfix.ofInfix tokens).bind Postfix.build

structure Expression where
  root : Option (Tree Float)
  /-- the text as it was given -/
  source : String
  /-- the tokens of the text in postfix order, operands as written -/
  line : String

structure Parsing where
  records : List Record
  result : Except Failure Expression

namespace Expression

def empty : Expression := ⟨none, "", ""⟩

/-- Parses a text and keeps the records. A failure to build the tree names the text; the failures
before that do not. -/
def parseRecorded (source : String) : Parsing :=
  match Token.scan source with
  | .error cause => ⟨[], .error (.bare cause)⟩
  | .ok tokens =>
      match Postfix.ofInfix tokens with
      | .error cause => ⟨[.scanned source tokens], .error (.bare cause)⟩
      | .ok reordered =>
          let construction := Postfix.construct reordered
          let records :=
            .scanned source tokens :: .reordered source reordered ::
              construction.placements.map .placed
          match construction.tree with
          | none => ⟨records, .error (.whileBuilding source .invalidExpression)⟩
          | some root =>
              ⟨records ++ [.built source root.operationCount],
                .ok ⟨some root, source, Token.line reordered⟩⟩

def parse (source : String) : Except Failure Expression := (parseRecorded source).result

/-- The expression after it has been given another text, and whether that text could be parsed. -/
def rebind (e : Expression) (source : String) : Expression × Except Failure Unit :=
  match parse source with
  | .ok next => (next, .ok ())
  | .error failure => (e, .error failure)

def copy (e : Expression) : Expression := { e with root := e.root.map Tree.copy }

def isEmpty (e : Expression) : Bool := e.root.isNone

def evaluate (e : Expression) : Except Failure Float :=
  match e.root with
  | none => .error (.bare .uninitializedTree)
  | some root => .ok root.evaluate

/-- Whether two expressions agree: in their trees, in their texts and in their postfix forms. -/
def agrees (e other : Expression) : Bool :=
  let roots :=
    match e.root, other.root with
    | none, none => true
    | some root, some otherRoot => root.agrees otherRoot
    | _, _ => false
  roots && e.source == other.source && e.line == other.line

def describe (e : Expression) : String :=
  let root :=
    match e.root with
    | none => "None"
    | some root => "Some(" ++ root.enumeration ++ ")"
  "ExpressionTree \x7b root: " ++ root ++ ", infix: " ++ Text.quote e.source ++ ", postfix: " ++
    Text.quote e.line ++ " \x7d"

structure Report where
  source : String
  line : String
  isEmpty : Bool
  /-- the postfix form of the tree, operands written from their values -/
  rootLine : Option String
  value : Except Failure Float

def report (e : Expression) : Report where
  source := e.source
  line := e.line
  isEmpty := e.isEmpty
  rootLine := e.root.map Tree.line
  value := e.evaluate

structure Digest where
  /-- the lengths of the text and of the postfix form in bytes of UTF-8 -/
  sourceBytes : Nat
  lineBytes : Nat
  /-- the first and the last characters of the postfix form -/
  head : String
  tail : String
  value : Float
  operations : Nat
  operands : Nat
  /-- whether the tree agrees with its copy -/
  copyAgrees : Bool

/-- The digest of an expression that has a tree, with at most `width` characters at each end. -/
def digest? (width : Nat) (e : Expression) : Option Digest :=
  e.root.map fun root =>
    let line := e.line.toList
    { sourceBytes := e.source.utf8ByteSize
      lineBytes := e.line.utf8ByteSize
      head := String.ofList (line.take width)
      tail := String.ofList (line.drop (line.length - width))
      value := root.evaluate
      operations := root.operationCount
      operands := root.operandCount
      copyAgrees := root.agrees root.copy }

theorem rebind_of_ok {e next : Expression} {source : String} (h : parse source = .ok next) :
    e.rebind source = (next, .ok ()) := by
  simp [rebind, h]

theorem rebind_of_error {e : Expression} {source : String} {failure : Failure}
    (h : parse source = .error failure) : e.rebind source = (e, .error failure) := by
  simp [rebind, h]

end Expression

end ArithTree
