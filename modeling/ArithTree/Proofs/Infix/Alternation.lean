import ArithTree.Infix.Grammar
import ArithTree.Proofs.Postfix.OperatorStack
import Mathlib.Data.List.Chain

/-!
# Where operands may follow each other

An operand of an operator begins with an operand or an opening and ends with an operand or a
closing. In an infix expression no operand begins directly behind the end of another one. This, the
pairing of the parentheses and the numbers of operands and operators are all there is to it: they
force every two neighbours to fit together, and a balanced list of fitting neighbours is an
expression.
-/

namespace ArithTree

namespace Token

def endsOperand : Token → Bool
  | operand _ | closing => true
  | operator _ | opening => false

def startsOperand : Token → Bool
  | operand _ | opening => true
  | operator _ | closing => false

end Token

namespace Infix

open Postfix

/-- No operand begins directly behind the end of another one. -/
def Separated (ts : List Token) : Prop :=
  ts.IsChain fun t u => ¬ (t.endsOperand = true ∧ u.startsOperand = true)

instance (ts : List Token) : Decidable (Separated ts) :=
  inferInstanceAs (Decidable (ts.IsChain _))

def Alternates (ts : List Token) : Prop :=
  ts.IsChain fun t u => u.startsOperand = !t.endsOperand

/-- Operators stand between the operands that they join, and parentheses around one. -/
theorem WellFormed.separated {ts : List Token} (h : WellFormed ts) : Separated ts := by
  induction h with
  | operand text => exact List.isChain_singleton _
  | group _ ih =>
      refine List.IsChain.append ?_ (List.isChain_singleton _) ?_
      · exact List.isChain_cons.2 ⟨fun u _ => by simp [Token.endsOperand], ih⟩
      · intro t _ u hu
        cases hu
        simp [Token.startsOperand]
  | operation op _ _ ihl ihr =>
      refine List.IsChain.append ihl ?_ ?_
      · exact List.isChain_cons.2 ⟨fun u _ => by simp [Token.endsOperand], ihr⟩
      · intro t _ u hu
        cases hu
        simp [Token.startsOperand]

/-! ## Counting neighbours -/

/-- Each token is counted for what it ends and for what it begins: an operand twice, an operator
not at all. -/
theorem length_add_countP (ts : List Token) :
    ts.length + (proper ts).countP Token.isOperand =
      ts.countP Token.endsOperand + ts.countP Token.startsOperand +
        (proper ts).countP fun t => !t.isOperand := by
  induction ts with
  | nil => rfl
  | cons t ts ih =>
      have hone : [t].length + (proper [t]).countP Token.isOperand =
          [t].countP Token.endsOperand + [t].countP Token.startsOperand +
            (proper [t]).countP fun t => !t.isOperand := by
        cases t <;> rfl
      rw [← List.singleton_append]
      simp only [List.length_append, List.countP_append, proper_append]
      omega

/-- Between two neighbours at most one operand ends or begins, so there are no more ends and
beginnings than pairs of neighbours. If there are as many, every pair has its one. -/
theorem Separated.countP_le (prev : Token) (ts : List Token) (h : Separated (prev :: ts)) :
    prev.endsOperand.toNat + ts.countP Token.endsOperand + ts.countP Token.startsOperand ≤
        ts.length + 1 ∧
      (prev.endsOperand.toNat + ts.countP Token.endsOperand + ts.countP Token.startsOperand =
          ts.length + 1 → Alternates (prev :: (ts ++ [.closing]))) := by
  induction ts generalizing prev with
  | nil =>
      refine ⟨?_, fun heq => ?_⟩
      · cases prev.endsOperand <;> decide
      · refine List.isChain_cons_cons.2 ⟨?_, List.isChain_singleton _⟩
        cases hprev : prev.endsOperand with
        | false => simp [hprev] at heq
        | true => rfl
  | cons t ts ih =>
      obtain ⟨hpair, hrest⟩ := List.isChain_cons_cons.1 h
      obtain ⟨hle, halternates⟩ := ih t hrest
      have hone : prev.endsOperand.toNat + t.startsOperand.toNat ≤ 1 := by
        cases hprev : prev.endsOperand with
        | false => cases t.startsOperand <;> decide
        | true =>
            cases hstart : t.startsOperand with
            | false => decide
            | true => exact (hpair ⟨hprev, hstart⟩).elim
      have hends : (t :: ts).countP Token.endsOperand =
          ts.countP Token.endsOperand + t.endsOperand.toNat := by
        cases ht : t.endsOperand <;> simp [ht]
      have hstarts : (t :: ts).countP Token.startsOperand =
          ts.countP Token.startsOperand + t.startsOperand.toNat := by
        cases ht : t.startsOperand <;> simp [ht]
      rw [hends, hstarts, List.length_cons]
      refine ⟨by omega, fun heq => ?_⟩
      refine List.isChain_cons_cons.2 ⟨?_, halternates (by omega)⟩
      have hboth : prev.endsOperand.toNat + t.startsOperand.toNat = 1 := by omega
      cases hprev : prev.endsOperand <;> cases hstart : t.startsOperand <;>
        simp_all

theorem Separated.alternates {ts : List Token} (h : Separated ts)
    (hcount : (proper ts).countP Token.isOperand =
      ((proper ts).countP fun t => !t.isOperand) + 1) :
    Alternates (.opening :: (ts ++ [.closing])) := by
  have hopening : Separated (.opening :: ts) :=
    List.isChain_cons.2 ⟨fun u _ => by simp [Token.endsOperand], h⟩
  have hlength := length_add_countP ts
  refine (Separated.countP_le .opening ts hopening).2 ?_
  simp only [Token.endsOperand, Bool.toNat_false]
  omega

/-! ## Reading a fitting list -/

/-- The beginnings of expressions after which an operand is awaited, with the number of groups that
are open. -/
inductive Dangling : Nat → List Token → Prop where
  | start : Dangling 0 []
  | opening {depth : Nat} {p : List Token} (h : Dangling depth p) :
      Dangling (depth + 1) (p ++ [.opening])
  | operator {depth : Nat} {p ts : List Token} (h : Dangling depth p) (left : WellFormed ts)
      (op : Operator) : Dangling depth (p ++ ts ++ [.operator op])

/-- The operand that was awaited completes the expression if no group is open. -/
theorem Dangling.complete {p ts : List Token} (h : Dangling 0 p) (last : WellFormed ts) :
    WellFormed (p ++ ts) := by
  generalize hdepth : 0 = depth at h
  induction h generalizing ts with
  | start => exact last
  | opening => contradiction
  | operator h left op ih =>
      have hwhole := ih (.operation op left last) hdepth
      simpa only [List.append_assoc, List.singleton_append] using hwhole

/-- A closing turns the innermost open group into an operand. -/
theorem Dangling.enclose {depth : Nat} {p ts : List Token} (h : Dangling (depth + 1) p)
    (last : WellFormed ts) : ∃ q us, p ++ ts ++ [.closing] = q ++ us ∧ Dangling depth q ∧
      WellFormed us := by
  generalize hdepth : depth + 1 = inner at h
  induction h generalizing ts with
  | start => contradiction
  | opening h ih =>
      cases hdepth
      exact ⟨_, .opening :: ts ++ [.closing], by simp, h, .group last⟩
  | operator h left op ih =>
      obtain ⟨q, us, hq, hdangling, hus⟩ := ih (.operation op left last) hdepth
      exact ⟨q, us, by simpa using hq, hdangling, hus⟩

/-- The induction is on what is still to be read. Behind `prev` an operator is awaited if `prev`
ends an operand, and an operand otherwise. -/
theorem wellFormed_append {depth : Nat} {prev : Token} {read rest : List Token}
    (halternates : Alternates (prev :: (rest ++ [.closing])))
    (hbalanced : BalancedFrom .opening .closing depth rest)
    (hread : if prev.endsOperand then
        ∃ p ts, read = p ++ ts ∧ Dangling depth p ∧ WellFormed ts
      else Dangling depth read) :
    WellFormed (read ++ rest) := by
  have hne : Token.opening ≠ .closing := by decide
  induction rest generalizing depth prev read with
  | nil =>
      obtain ⟨hfit, _⟩ := List.isChain_cons_cons.1 halternates
      have hends : prev.endsOperand = true := by simpa [Token.startsOperand] using hfit
      rw [balancedFrom_nil] at hbalanced
      subst hbalanced
      rw [if_pos hends] at hread
      obtain ⟨p, ts, rfl, hp, hts⟩ := hread
      rw [List.append_nil]
      exact hp.complete hts
  | cons t rest ih =>
      obtain ⟨hfit, hrest⟩ := List.isChain_cons_cons.1 halternates
      rw [← List.singleton_append, ← List.append_assoc]
      cases t with
      | operand text =>
          have hends : ¬ prev.endsOperand = true := by simpa [Token.startsOperand] using hfit
          rw [if_neg hends] at hread
          rw [balancedFrom_cons_of_ne (by simp) (by simp)] at hbalanced
          refine ih hrest hbalanced ?_
          exact ⟨read, [.operand text], rfl, hread, .operand text⟩
      | operator op =>
          have hends : prev.endsOperand = true := by simpa [Token.startsOperand] using hfit
          rw [if_pos hends] at hread
          obtain ⟨p, ts, rfl, hp, hts⟩ := hread
          rw [balancedFrom_cons_of_ne (by simp) (by simp)] at hbalanced
          exact ih hrest hbalanced (.operator hp hts op)
      | opening =>
          have hends : ¬ prev.endsOperand = true := by simpa [Token.startsOperand] using hfit
          rw [if_neg hends] at hread
          rw [balancedFrom_cons_opening hne] at hbalanced
          exact ih hrest hbalanced (.opening hread)
      | closing =>
          have hends : prev.endsOperand = true := by simpa [Token.startsOperand] using hfit
          rw [if_pos hends] at hread
          obtain ⟨p, ts, rfl, hp, hts⟩ := hread
          obtain ⟨outer, rfl, houter⟩ := (balancedFrom_cons_closing hne).1 hbalanced
          exact ih hrest houter (hp.enclose hts)

/-- A balanced list without adjoining operands, with one operand more than operators, is an infix
expression. -/
theorem wellFormed_of_separated {ts : List Token} (hbalanced : Balanced .opening .closing ts)
    (hseparated : Separated ts)
    (hcount : (proper ts).countP Token.isOperand =
      ((proper ts).countP fun t => !t.isOperand) + 1) : WellFormed ts :=
  wellFormed_append (hseparated.alternates hcount) hbalanced .start

end Infix

end ArithTree
