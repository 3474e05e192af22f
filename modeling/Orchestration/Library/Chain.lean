import Mathlib.Logic.Relation
import Mathlib.Order.Basic

/-!
# Chains

A relation that leads on in at most one way and raises a bounded rank makes
chains: from every element there is one way on, and it ends.
-/

namespace Chain

open Relation

variable {α : Type} {r : α → α → Prop} (rank : α → ℕ) {bound : ℕ}

/-- `b` ends the chain of `a`. -/
structure IsTip (r : α → α → Prop) (a b : α) : Prop where
  reached : ReflTransGen r a b
  last : ∀ c, ¬ r b c

theorem rank_lt_of_transGen (hlt : ∀ a b, r a b → rank a < rank b) {a b : α}
    (h : TransGen r a b) : rank a < rank b := by
  induction h with
  | single hab => exact hlt _ _ hab
  | tail _ hbc ih => exact Nat.lt_trans ih (hlt _ _ hbc)

theorem acyclic (hlt : ∀ a b, r a b → rank a < rank b) (a : α) : ¬ TransGen r a a := by
  intro h
  exact Nat.lt_irrefl _ (rank_lt_of_transGen rank hlt h)

/-- The way on ends: the rank rises at every step and stays below the bound. -/
theorem exists_tip (hlt : ∀ a b, r a b → rank a < rank b) (hbound : ∀ a b, r a b → rank b < bound)
    (a : α) : ∃ b, IsTip r a b := by
  induction hn : bound - rank a using Nat.strongRecOn generalizing a with
  | _ n ih =>
    by_cases hlast : ∀ c, ¬ r a c
    · exact ⟨a, .refl, hlast⟩
    · obtain ⟨c, hac⟩ : ∃ c, r a c := by simpa using hlast
      have hless : bound - rank c < n := by
        have hrank := hlt a c hac
        have hc := hbound a c hac
        omega
      obtain ⟨b, hcb, hb⟩ := ih _ hless c rfl
      exact ⟨b, hcb.head hac, hb⟩

/-- There is one end at most. -/
theorem tip_unique (hunique : Relator.RightUnique r) {a b c : α} (hb : IsTip r a b)
    (hc : IsTip r a c) : b = c := by
  rcases ReflTransGen.total_of_right_unique hunique hb.reached hc.reached with h | h
  · rcases h.cases_head with heq | ⟨d, hbd, -⟩
    · exact heq
    · exact absurd hbd (hb.last d)
  · rcases h.cases_head with heq | ⟨d, hcd, -⟩
    · exact heq.symm
    · exact absurd hcd (hc.last d)

/-- Every element of a chain but its tip leads on. -/
theorem leads_on (hunique : Relator.RightUnique r) {a b tip : α} (htip : IsTip r a tip)
    (h : ReflTransGen r a b) (hne : b ≠ tip) : ∃ c, r b c := by
  by_contra hnone
  exact hne (tip_unique hunique ⟨h, by simpa using hnone⟩ htip)

end Chain
