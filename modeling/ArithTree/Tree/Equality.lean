import ArithTree.Tree.Basic

/-!
# Comparing trees

Two trees are compared through a list of pairs that are still to be compared. They agree if they
have one shape, the same operators and operands that are the same in the sense given. Numbers are
compared as binary64 compares them: what is no number differs from itself, and both zeros are the
same.
-/

namespace ArithTree.Tree

variable {α : Type}

def firstSizes : List (Tree α × Tree α) → Nat
  | [] => 0
  | (t, _) :: rest => t.size + firstSizes rest

/-- Whether all pairs agree. The right operands of an operation are compared before the left. -/
def allAgree (same : α → α → Bool) : List (Tree α × Tree α) → Bool
  | [] => true
  | (operand x, operand y) :: rest => same x y && allAgree same rest
  | (operation op left right, operation op' left' right') :: rest =>
      op == op' && allAgree same ((right, right') :: (left, left') :: rest)
  | (operand _, operation ..) :: _ => false
  | (operation .., operand _) :: _ => false
termination_by pairs => firstSizes pairs
decreasing_by
  · simp only [firstSizes, size]
    omega
  · simp only [firstSizes, size]
    omega

def agreesWith (same : α → α → Bool) (t u : Tree α) : Bool := allAgree same [(t, u)]

def agrees (t u : Tree Float) : Bool := t.agreesWith (fun x y => x == y) u

/-- The same comparison by recursion on the first tree. -/
def corresponds (same : α → α → Bool) : Tree α → Tree α → Bool
  | operand x, operand y => same x y
  | operation op left right, operation op' left' right' =>
      op == op' && left.corresponds same left' && right.corresponds same right'
  | operand _, operation .. => false
  | operation .., operand _ => false

/-- All pairs agree if each of them corresponds. -/
theorem allAgree_eq_all (same : α → α → Bool) (pairs : List (Tree α × Tree α)) :
    allAgree same pairs = pairs.all fun pair => pair.1.corresponds same pair.2 := by
  fun_induction allAgree same pairs with
  | case1 => rfl
  | case2 x y rest ih => simp [corresponds, ih]
  | case3 op left right op' left' right' rest ih =>
      rw [ih, List.all_cons, List.all_cons, List.all_cons, corresponds]
      cases op == op' <;> cases left.corresponds same left' <;>
        cases right.corresponds same right' <;> rfl
  | case4 => rfl
  | case5 => rfl

theorem agreesWith_eq_corresponds (same : α → α → Bool) (t u : Tree α) :
    t.agreesWith same u = t.corresponds same u := by
  simp [agreesWith, allAgree_eq_all]

end ArithTree.Tree
