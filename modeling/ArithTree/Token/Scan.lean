import ArithTree.Text.Blank
import ArithTree.Token

/-!
# Scanning

A text is read character by character. A digit extends the operand that is being read; a blank or a
symbol ends it; any other character ends the scan with its position. What has been read before a
character influences what follows only through the digits of the operand at hand, so scans of
adjoining texts compose.
-/

namespace ArithTree

structure Scan where
  /-- the finished tokens, the last one first -/
  finished : List Token
  /-- the digits of the operand that is being read, the last one first -/
  digits : List Char
  /-- how many characters have been read -/
  position : Nat
  deriving DecidableEq, Repr

namespace Scan

def start : Scan := ⟨[], [], 0⟩

/-- The tokens read so far, the last one first: the finished ones, and the operand at hand if it
has a digit. -/
def tokensReversed (s : Scan) : List Token :=
  if s.digits.isEmpty then s.finished
  else .operand (String.ofList s.digits.reverse) :: s.finished

def tokens (s : Scan) : List Token := s.tokensReversed.reverse

def step (s : Scan) (c : Char) : Except Cause Scan :=
  if c.isDigit then .ok ⟨s.finished, c :: s.digits, s.position + 1⟩
  else if Text.isBlank c then .ok ⟨s.tokensReversed, [], s.position + 1⟩
  else if c ∈ Token.symbols then
    match Token.read c.toString with
    | .ok symbol => .ok ⟨symbol :: s.tokensReversed, [], s.position + 1⟩
    | .error cause => .error cause
  else .error (.unexpectedCharacter c s.position)

def run (s : Scan) (text : List Char) : Except Cause Scan := text.foldlM step s

theorem run_cons (s : Scan) (c : Char) (rest : List Char) :
    s.run (c :: rest) = (s.step c).bind fun next => next.run rest := rfl

/-- A text is read by reading its parts in turn. -/
theorem run_append (s : Scan) (text more : List Char) :
    s.run (text ++ more) = (s.run text).bind fun next => next.run more := by
  simp only [run, List.foldlM_append]
  rfl

theorem position_of_step {s next : Scan} {c : Char} (h : s.step c = .ok next) :
    next.position = s.position + 1 := by
  unfold step at h
  repeat' split at h
  all_goals first | contradiction | (cases h; rfl)

theorem position_of_run {s last : Scan} {text : List Char} (h : s.run text = .ok last) :
    last.position = s.position + text.length := by
  induction text generalizing s with
  | nil =>
      cases h
      rfl
  | cons c rest ih =>
      rw [run_cons] at h
      obtain ⟨next, hstep, hrest⟩ := bind_eq_ok_iff.1 h
      rw [ih hrest, position_of_step hstep, List.length_cons]
      omega

end Scan

def Token.scan (text : String) : Except Cause (List Token) :=
  (Scan.start.run text.toList).map Scan.tokens

end ArithTree
