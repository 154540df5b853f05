import ArithTree.Infix.Grammar

/-!
# The layers of the grammar

A layer has the rank of the operators that join its chains, and the layer inside it a greater one.
Every expression belongs to the outermost layer: an expression is a chain of atoms, and an atom can
be put in front of a chain of any layer.
-/

namespace ArithTree.Infix

def Layer.rank : Layer → Nat
  | sum => 3
  | product => 4
  | power => 5
  | atom => 6

theorem rank_layerOf (op : Operator) : (layerOf op).rank = op.rank := by
  cases op <;> rfl

theorem rank_le_rank_inner (layer : Layer) : layer.rank ≤ layer.inner.rank := by
  cases layer <;> decide

theorem rank_lt_rank_inner_layerOf (op : Operator) : op.rank < (layerOf op).inner.rank := by
  cases op <;> decide

theorem sum_rank_le (op : Operator) : Layer.sum.rank ≤ op.rank := by
  cases op <;> decide

/-- An operator of another layer, but of no smaller rank, belongs further inside. -/
theorem rank_inner_le_of_ne {layer : Layer} {op : Operator} (hle : layer.rank ≤ op.rank)
    (hne : layerOf op ≠ layer) : layer.inner.rank ≤ op.rank := by
  cases layer <;> cases op <;> revert hle hne <;> decide

theorem Derives.of_atom {ts : List Token} {t : Tree String} (h : Derives .atom ts t)
    (layer : Layer) : Derives layer ts t := by
  have hpower : Derives .power ts t := .single h
  have hproduct : Derives .product ts t := .single hpower
  cases layer with
  | sum => exact .single hproduct
  | product => exact hproduct
  | power => exact hpower
  | atom => exact h

/-- An atom in front of a chain, joined to it by an operator that is not looser than the chain,
gives a chain of the same layer. -/
theorem Derives.cons_atom {layer : Layer} {ts us : List Token} {t u : Tree String} {op : Operator}
    (hatom : Derives .atom ts t) (h : Derives layer us u) (hle : layer.rank ≤ op.rank) :
    ∃ v, Derives layer (ts ++ .operator op :: us) v := by
  induction h with
  | operand text =>
      exfalso
      revert hle
      cases op <;> decide
  | group inner =>
      exfalso
      revert hle
      cases op <;> decide
  | @single layer us u inner ih =>
      by_cases hop : layerOf op = layer
      · subst hop
        exact ⟨_, .chain op (hatom.of_atom _) (.single inner)⟩
      · obtain ⟨v, hv⟩ := ih (rank_inner_le_of_ne hle hop)
        exact ⟨v, .single hv⟩
  | @chain us us' u u' op' left right ihl =>
      by_cases hop : layerOf op = layerOf op'
      · have hwhole := Derives.chain op' left right
        rw [← hop] at hwhole ⊢
        exact ⟨_, .chain op (hatom.of_atom _) hwhole⟩
      · -- the operator is tighter than the chain and goes into its first member
        obtain ⟨v, hv⟩ := ihl (rank_inner_le_of_ne hle hop)
        exact ⟨.operation op' v u', by simpa using Derives.chain op' hv right⟩

/-- Two expressions joined by an operator are an expression, whatever their own operators are. -/
theorem Derives.append {layer : Layer} {ts us : List Token} {t u : Tree String} {op : Operator}
    (left : Derives layer ts t) (right : Derives .sum us u) :
    ∃ v, Derives .sum (ts ++ .operator op :: us) v := by
  induction left generalizing op us u with
  | operand text => exact (Derives.operand text).cons_atom right (sum_rank_le op)
  | group inner => exact (Derives.group inner).cons_atom right (sum_rank_le op)
  | single _ ih => exact ih right
  | chain op' _ _ ihl ihr =>
      obtain ⟨v, hv⟩ := @ihr _ _ op right
      obtain ⟨w, hw⟩ := @ihl _ _ op' hv
      exact ⟨w, by simpa using hw⟩

/-- The layers derive every expression. -/
theorem WellFormed.exists_derives {ts : List Token} (h : WellFormed ts) :
    ∃ t, Derives .sum ts t := by
  induction h with
  | operand text => exact ⟨_, (Derives.operand text).of_atom _⟩
  | group _ ih =>
      obtain ⟨t, ht⟩ := ih
      exact ⟨t, (Derives.group ht).of_atom _⟩
  | operation op _ _ ihl ihr =>
      obtain ⟨t, ht⟩ := ihl
      obtain ⟨u, hu⟩ := ihr
      exact ht.append hu

end ArithTree.Infix
