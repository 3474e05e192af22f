import Mathlib.Data.List.Count
import Mathlib.Data.List.Pairwise
import Mathlib.Tactic.Common

/-!
# Loops over a list that come to an end

A loop that settles one more element with every pass ends, because fewer are
left. Reading a sorted log in pages is such a loop, and it reads every element
past its cursor once and in order.
-/

namespace Loop

variable {ε α σ : Type}

/-- Fewer elements satisfy `q` than `p` when `q` implies `p` and some element tells them apart. -/
theorem countP_lt_countP {p q : α → Bool} {as : List α} (himp : ∀ a, q a = true → p a = true)
    {a : α} (ha : a ∈ as) (hp : p a = true) (hq : q a = false) : as.countP q < as.countP p := by
  have hfilter : as.countP q = (as.filter p).countP q := by
    rw [List.countP_filter]
    refine List.countP_congr fun b _ => ?_
    simp only [Bool.and_eq_true]
    exact ⟨fun hb => ⟨hb, himp b hb⟩, And.left⟩
  have hlength : as.countP p = (as.filter p).length := List.countP_eq_length_filter
  rw [hfilter, hlength, List.countP_lt_length_iff]
  exact ⟨a, List.mem_filter.2 ⟨ha, hp⟩, by simp [hq]⟩

/-! ## Reading in pages -/

/-- The next page of at most `limit` elements whose key is past `after`. -/
def page (key : α → ℕ) (limit : ℕ) (log : List α) (after : ℕ) : List α :=
  (log.filter fun a => after < key a).take limit

theorem mem_page {key : α → ℕ} {limit after : ℕ} {log : List α} {a : α}
    (h : a ∈ page key limit log after) : a ∈ log ∧ after < key a := by
  simpa using List.mem_filter.1 (List.mem_of_mem_take h)

/-- Fold `log` page by page, from the cursor `after`, until a page is not full. -/
def foldPages (key : α → ℕ) (limit : ℕ) (log : List α) (step : σ → α → Except ε σ) (after : ℕ)
    (s : σ) : Except ε σ :=
  match h : (page key limit log after).getLast? with
  | none => .ok s
  | some last => do
    let s ← (page key limit log after).foldlM step s
    if (page key limit log after).length < limit then .ok s
    else foldPages key limit log step (key last) s
termination_by log.countP fun a => after < key a
decreasing_by
  obtain ⟨hlast, hafter⟩ := mem_page (List.mem_of_getLast? h)
  refine countP_lt_countP (fun a ha => ?_) hlast (by simpa using hafter) (by simp)
  have hpast : key last < key a := by simpa using ha
  simpa using Nat.lt_trans hafter hpast

/-- What lies past the last element of a full page of a sorted log is what the page left out. -/
theorem filter_past_page {key : α → ℕ} {limit after : ℕ} {log : List α} {last : α}
    (hsorted : log.Pairwise fun a b => key a < key b)
    (hlast : (page key limit log after).getLast? = some last) :
    (log.filter fun a => key last < key a) =
      (log.filter fun a => after < key a).drop limit := by
  obtain ⟨-, hafter⟩ := mem_page (List.mem_of_getLast? hlast)
  obtain ⟨before, hpage⟩ := List.getLast?_eq_some_iff.1 hlast
  have hrest : (log.filter fun a => key last < key a) =
      (log.filter fun a => after < key a).filter fun a => key last < key a := by
    rw [List.filter_filter]
    refine List.filter_congr fun a _ => ?_
    simp only [← Bool.decide_and, decide_eq_decide]
    omega
  have hsplit : (log.filter fun a => after < key a) =
      before ++ [last] ++ (log.filter fun a => after < key a).drop limit := by
    rw [← hpage, page, List.take_append_drop]
  have hpairwise : (before ++ [last] ++ (log.filter fun a => after < key a).drop limit).Pairwise
      fun a b => key a < key b := hsplit ▸ hsorted.filter _
  obtain ⟨hread, -, hcross⟩ := List.pairwise_append.1 hpairwise
  have hbefore : (before ++ [last]).filter (fun a => key last < key a) = [] := by
    refine List.filter_eq_nil_iff.2 fun a ha => ?_
    rcases List.mem_append.1 ha with ha | ha
    · have hlt := (List.pairwise_append.1 hread).2.2 a ha last List.mem_cons_self
      simp only [decide_eq_true_eq]
      omega
    · simp [List.mem_singleton.1 ha]
  have hleft : ((log.filter fun a => after < key a).drop limit).filter
      (fun a => key last < key a) = (log.filter fun a => after < key a).drop limit := by
    refine List.filter_eq_self.2 fun a ha => ?_
    simpa using hcross last (by simp) a ha
  rw [hrest]
  conv_lhs => rw [hsplit, List.filter_append, hbefore, hleft]
  rfl

/-- Reading in pages reads everything past the cursor, once and in order. -/
theorem foldPages_eq {key : α → ℕ} {limit : ℕ} {log : List α} {step : σ → α → Except ε σ}
    (hlimit : 0 < limit) (hsorted : log.Pairwise fun a b => key a < key b) (after : ℕ) (s : σ) :
    foldPages key limit log step after s = (log.filter fun a => after < key a).foldlM step s := by
  fun_induction foldPages key limit log step after s with
  | case1 after s hnone =>
    have hempty : page key limit log after = [] := List.getLast?_eq_none_iff.1 hnone
    have hnothing : (log.filter fun a => after < key a) = [] := by
      rcases List.take_eq_nil_iff.1 hempty with h | h
      · omega
      · exact h
    rw [hnothing]
    rfl
  | case2 after s last hlast ih =>
    have hsplit : (log.filter fun a => after < key a) =
        page key limit log after ++ (log.filter fun a => after < key a).drop limit :=
      (List.take_append_drop limit _).symm
    rw [hsplit, List.foldlM_append]
    refine bind_congr fun s' => ?_
    split
    · next hshort =>
      -- the page was not full, so it was the last
      have hlength : (log.filter fun a => after < key a).length ≤ limit := by
        rw [page, List.length_take] at hshort
        omega
      rw [List.drop_eq_nil_of_le hlength]
      rfl
    · rw [ih s', filter_past_page hsorted hlast]

end Loop
