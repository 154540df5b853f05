import ArithTree.Expression
import ArithTree.Tree.Events

/-!
# A bench of trees

Trees are made and looked at on a stack. A command that fails, or that finds fewer trees than it
needs, leaves the stack as it was.
-/

namespace ArithTree

/-- The trees on the bench, the topmost first. -/
abbrev Bench := List (Tree Float)

namespace Bench

inductive Side where
  | left
  | right
  deriving DecidableEq, Repr

inductive Command where
  | push (value : Float)
  /-- adds the tree of tokens in postfix order -/
  | build (tokens : List Token)
  | parse (source : String)
  /-- joins the two topmost trees, the upper one on the right -/
  | apply (op : Operator)
  /-- wraps the topmost tree `count` times in an operation whose other operand is `value` -/
  | chain (op : Operator) (value : Float) (count : Nat) (leaf : Side)
  | clone
  | swap
  | drop
  /-- whether the two topmost trees agree -/
  | compare
  | report
  | evaluate
  | count
  | tokens
  | draw
  /-- the enumeration of the topmost tree's tokens -/
  | describe
  | events
  | operands

inductive Answer where
  /-- a command that changes the bench is answered by the number of trees -/
  | size (trees : Nat)
  | failed (cause : Cause)
  | agree (same : Bool)
  | report (report : Tree.Report)
  | value (x : Float)
  | counts (operations operands : Nat)
  | tokens (tokens : List Token)
  | text (text : String)
  | events (events : List (Event Float))
  | operands (values : List Float)
  /-- the bench holds fewer trees than the command needs -/
  | tooFewTrees

def wrap (op : Operator) (value : Float) (leaf : Side) : Nat → Tree Float → Tree Float
  | 0, tree => tree
  | count + 1, tree =>
      let wrapped :=
        match leaf with
        | .left => .operation op (.operand value) tree
        | .right => .operation op tree (.operand value)
      wrap op value leaf count wrapped

def changed (bench : Bench) : Bench × Answer := (bench, .size bench.length)

def add (bench : Bench) (made : Except Cause (Tree Float)) : Bench × Answer :=
  match made with
  | .ok tree => changed (tree :: bench)
  | .error cause => (bench, .failed cause)

def look (bench : Bench) (answer : Tree Float → Answer) : Bench × Answer :=
  match bench with
  | top :: _ => (bench, answer top)
  | [] => (bench, .tooFewTrees)

def obey (bench : Bench) : Command → Bench × Answer
  | .push value => changed (.operand value :: bench)
  | .build tokens => bench.add (Postfix.build tokens)
  | .parse source => bench.add ((Token.scan source).bind Tree.ofInfix)
  | .apply op =>
      match bench with
      | right :: left :: rest => changed (.operation op left right :: rest)
      | _ => (bench, .tooFewTrees)
  | .chain op value count leaf =>
      match bench with
      | top :: rest => changed (wrap op value leaf count top :: rest)
      | [] => (bench, .tooFewTrees)
  | .clone =>
      match bench with
      | top :: rest => changed (top.copy :: top :: rest)
      | [] => (bench, .tooFewTrees)
  | .swap =>
      match bench with
      | top :: next :: rest => changed (next :: top :: rest)
      | _ => (bench, .tooFewTrees)
  | .drop =>
      match bench with
      | _ :: rest => changed rest
      | [] => (bench, .tooFewTrees)
  | .compare =>
      match bench with
      | top :: next :: _ => (bench, .agree (next.agrees top))
      | _ => (bench, .tooFewTrees)
  | .report => bench.look fun t => .report t.report
  | .evaluate => bench.look fun t => .value t.evaluate
  | .count => bench.look fun t => .counts t.operationCount t.operandCount
  | .tokens => bench.look fun t => .tokens t.tokens
  | .draw => bench.look fun t => .text t.drawing
  | .describe => bench.look fun t => .text t.enumeration
  | .events => bench.look fun t => .events t.events
  | .operands => bench.look fun t => .operands t.operands

end Bench

end ArithTree
