/-!
# Ranges of code points

A character property is kept as a list of closed ranges of code points in ascending order. The
look-up stops at the first range that starts beyond the code point, and ordered ranges make that
as good as a search of the whole list.
-/

namespace ArithTree.Text

structure CodeRange where
  first : Nat
  last : Nat
  deriving DecidableEq, Repr

namespace CodeRange

def ascending : List CodeRange → Bool
  | [] => true
  | [r] => r.first ≤ r.last
  | r :: s :: rest => r.first ≤ r.last && r.last + 1 < s.first && ascending (s :: rest)

def count (ranges : List CodeRange) : Nat :=
  ranges.foldl (fun n r => n + (r.last + 1 - r.first)) 0

/-- Whether some range holds the code point; the ranges have to ascend. -/
def holds : List CodeRange → Nat → Bool
  | [], _ => false
  | r :: rest, code => r.first ≤ code && (code ≤ r.last || holds rest code)

end CodeRange

end ArithTree.Text
