import Mathlib

/-!
# Obligations against a stock

A stock and costs in an ordered monoid with truncated subtraction. `Settles`
pays a list of costs one after the other and never goes below zero. A stock that
covers the sum of all costs settles any part of them, in any order, with nothing
coming in.
-/

namespace Obligations

variable {M : Type*} [AddCommMonoid M] [PartialOrder M] [CanonicallyOrderedAdd M] [Sub M]

/-- `Settles stock costs rest`: paying `costs` in order is possible at every
point and leaves `rest`. -/
inductive Settles : M → List M → M → Prop where
  | nil (stock : M) : Settles stock [] stock
  | cons {stock cost rest : M} {costs : List M} :
      cost ≤ stock → Settles (stock - cost) costs rest → Settles stock (cost :: costs) rest

/-- A covered sum settles in the order given. -/
theorem settles_of_sum_le [OrderedSub M] [AddLeftReflectLE M] {costs : List M} {stock : M}
    (h : costs.sum ≤ stock) : Settles stock costs (stock - costs.sum) := by
  induction costs generalizing stock with
  | nil =>
      rw [List.sum_nil, tsub_zero]
      exact .nil stock
  | cons cost costs ih =>
      rw [List.sum_cons] at h ⊢
      have hcost : cost ≤ stock := le_trans le_self_add h
      have hrest : costs.sum ≤ stock - cost := le_tsub_of_add_le_left h
      have hsettles := ih hrest
      rw [tsub_tsub] at hsettles
      exact .cons hcost hsettles

omit [Sub M] in
theorem sum_le_of_subperm [IsOrderedAddMonoid M] {part all : List M} (h : part.Subperm all) :
    part.sum ≤ all.sum := by
  obtain ⟨middle, hperm, hsub⟩ := h
  rw [← hperm.sum_eq]
  exact hsub.sum_le_sum fun _ _ => zero_le

/-- **Any part of the covered obligations settles, in any order.** -/
theorem settles_of_subperm [OrderedSub M] [AddLeftReflectLE M] [IsOrderedAddMonoid M]
    {part all : List M} {stock : M}
    (hpart : part.Subperm all) (h : all.sum ≤ stock) :
    Settles stock part (stock - part.sum) :=
  settles_of_sum_le (le_trans (sum_le_of_subperm hpart) h)

end Obligations
