import ArithTree.CommandLine
import ArithTree.Expression
import ArithTree.Failure
import ArithTree.Infix.Grammar
import ArithTree.Main
import ArithTree.Numeral.Magnitude
import ArithTree.Numeral.Reader
import ArithTree.Numeral.Shortest
import ArithTree.Numeral.Written
import ArithTree.Operator
import ArithTree.Outline.Basic
import ArithTree.Outline.Sketch
import ArithTree.Postfix.Build
import ArithTree.Postfix.Grammar
import ArithTree.Postfix.Machine
import ArithTree.Postfix.Plausible
import ArithTree.Postfix.Reorder
import ArithTree.Scaffold.Assembly
import ArithTree.Scaffold.Basic
import ArithTree.Scaffold.Placement
import ArithTree.Text.Blank
import ArithTree.Text.CodeRange
import ArithTree.Text.DefaultIgnorable
import ArithTree.Text.GraphemeExtend
import ArithTree.Text.Invisible
import ArithTree.Text.Quoted
import ArithTree.Token
import ArithTree.Token.Cursor
import ArithTree.Token.Scan
import ArithTree.Trace
import ArithTree.Tree.Basic
import ArithTree.Tree.Copy
import ArithTree.Tree.Count
import ArithTree.Tree.Drawing
import ArithTree.Tree.Equality
import ArithTree.Tree.Evaluation
import ArithTree.Tree.Events
import ArithTree.Tree.Fold
import ArithTree.Tree.Report
import ArithTree.Tree.Tokens
import ArithTree.Tree.Walk
import ArithTree.Workbench.Bench
import ArithTree.Workbench.Shelf
import ArithTree.Proofs.CommandLine.Outcome
import ArithTree.Proofs.CommandLine.Words
import ArithTree.Proofs.Expression.Acceptance
import ArithTree.Proofs.Expression.Inventory
import ArithTree.Proofs.Expression.Line
import ArithTree.Proofs.Expression.Renaming
import ArithTree.Proofs.Expression.Verdict
import ArithTree.Proofs.Infix.Alternation
import ArithTree.Proofs.Infix.Balance
import ArithTree.Proofs.Infix.Layers
import ArithTree.Proofs.Infix.Reordering
import ArithTree.Proofs.Numeral.Arithmetic
import ArithTree.Proofs.Numeral.Digits
import ArithTree.Proofs.Numeral.Glyphs
import ArithTree.Proofs.Numeral.Midpoints
import ArithTree.Proofs.Numeral.Packing
import ArithTree.Proofs.Numeral.RoundTrip
import ArithTree.Proofs.Numeral.Rounding
import ArithTree.Proofs.Numeral.Value
import ArithTree.Proofs.Postfix.Backwards
import ArithTree.Proofs.Postfix.Counts
import ArithTree.Proofs.Postfix.Meaning
import ArithTree.Proofs.Postfix.OperatorStack
import ArithTree.Proofs.Postfix.Respelling
import ArithTree.Proofs.Postfix.StackOrder
import ArithTree.Proofs.Postfix.Substitution
import ArithTree.Proofs.Postfix.Tracking
import ArithTree.Proofs.Scaffold.Assembled
import ArithTree.Proofs.Scaffold.Cursor
import ArithTree.Proofs.Scaffold.Dismantling
import ArithTree.Proofs.Scaffold.FreeSlots
import ArithTree.Proofs.Scaffold.Linked
import ArithTree.Proofs.Scaffold.Notes
import ArithTree.Proofs.Scaffold.Standing
import ArithTree.Proofs.Text.Lines
import ArithTree.Proofs.Token.Concatenation
import ArithTree.Proofs.Token.Cursor
import ArithTree.Proofs.Token.Layout
import ArithTree.Proofs.Token.Legibility
import ArithTree.Proofs.Token.Line
import ArithTree.Proofs.Token.Runs
import ArithTree.Proofs.Tree.Agreement
import ArithTree.Proofs.Tree.Folding
import ArithTree.Proofs.Tree.Spelling
import ArithTree.Proofs.Tree.Value
import ArithTree.Proofs.Tree.Visits
import ArithTree.Proofs.Workbench.Comparison
import ArithTree.Proofs.Workbench.Consistency
import ArithTree.Proofs.Tree.Likeness
import ArithTree.Proofs.Scaffold.Numbering
import ArithTree.Proofs.Expression.Records
import ArithTree.Proofs.Outline.Nesting
import ArithTree.Proofs.Tree.Rendering
import ArithTree.Proofs.Tree.Readability
