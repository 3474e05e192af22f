import Mathlib.Data.List.Nodup
import Mathlib.Logic.Relation

/-!
# Forests given by their children

A node has a list of child records, and a record names the node it stands for.
Where each node is the child of one parent and no node descends from itself, a
walk that lists a node's subtrees before the node meets every descendant once,
after all of its own descendants.
-/

namespace Forest

open Relation

variable {ι ρ : Type} (children : ι → List ρ) (id : ρ → ι)

/-- `c` is a child of `p`. -/
def Child (p c : ι) : Prop := ∃ r ∈ children p, id r = c

/-- `d` is a proper descendant of `p`. -/
abbrev Descendant : ι → ι → Prop := TransGen (Child children id)

/-- The records of all descendants to depth `n`, those of a node before its own. -/
def postorder : ℕ → ι → List ρ
  | 0, _ => []
  | n + 1, p => (children p).flatMap fun r => postorder n (id r) ++ [r]

/-- Children of a node are distinct, and nobody is the child of two nodes. -/
structure OneParent : Prop where
  distinct : ∀ p, ((children p).map id).Nodup
  parent : ∀ {p q c}, Child children id p c → Child children id q c → p = q

variable {children id}

theorem descendant_iff {p d : ι} : Descendant children id p d ↔
    ∃ q, ReflTransGen (Child children id) p q ∧ Child children id q d :=
  TransGen.tail'_iff

section

variable {rank : ι → ℕ} (hrank : ∀ {p c}, Child children id p c → rank c < rank p)
include hrank

theorem rank_lt_of_descendant {p d : ι} (h : Descendant children id p d) : rank d < rank p := by
  induction h with
  | single h => exact hrank h
  | tail _ h ih => exact Nat.lt_trans (hrank h) ih

theorem rank_le_of_reach {p q : ι} (h : ReflTransGen (Child children id) p q) :
    rank q ≤ rank p := by
  rcases reflTransGen_iff_eq_or_transGen.1 h with rfl | h
  · exact Nat.le_refl _
  · exact Nat.le_of_lt (rank_lt_of_descendant hrank h)

theorem not_descendant_self (p : ι) : ¬ Descendant children id p p := fun h =>
  Nat.lt_irrefl _ (rank_lt_of_descendant hrank h)

/-- Below its rank the walk meets exactly the children of the nodes it can reach. -/
theorem mem_postorder {n : ℕ} {p : ι} (hn : rank p < n) {r : ρ} :
    r ∈ postorder children id n p ↔
      ∃ q, ReflTransGen (Child children id) p q ∧ r ∈ children q := by
  induction n generalizing p with
  | zero => omega
  | succ n ih =>
    rw [postorder, List.mem_flatMap]
    have hdeep : ∀ {c}, Child children id p c → rank c < n := fun h => by
      have := hrank h
      omega
    constructor
    · rintro ⟨c, hc, hr⟩
      have hchild : Child children id p (id c) := ⟨c, hc, rfl⟩
      rcases List.mem_append.1 hr with hr | hr
      · obtain ⟨q, hq, hrq⟩ := (ih (hdeep hchild)).1 hr
        exact ⟨q, .head hchild hq, hrq⟩
      · exact ⟨p, .refl, List.mem_singleton.1 hr ▸ hc⟩
    · rintro ⟨q, hq, hr⟩
      rcases ReflTransGen.cases_head hq with rfl | ⟨_, ⟨c, hc, rfl⟩, hq⟩
      · exact ⟨r, hr, List.mem_append_right _ (List.mem_singleton_self r)⟩
      · have hr' := (ih (hdeep ⟨c, hc, rfl⟩)).2 ⟨q, hq, hr⟩
        exact ⟨c, hc, List.mem_append_left _ hr'⟩

theorem mem_postorder_id {n : ℕ} {p : ι} (hn : rank p < n) {d : ι} :
    d ∈ (postorder children id n p).map id ↔ Descendant children id p d := by
  rw [descendant_iff, List.mem_map]
  simp only [mem_postorder hrank hn]
  constructor
  · rintro ⟨r, ⟨q, hq, hr⟩, rfl⟩
    exact ⟨q, hq, r, hr, rfl⟩
  · rintro ⟨q, hq, r, hr, rfl⟩
    exact ⟨r, ⟨q, hq, hr⟩, rfl⟩

theorem reach_of_mem_subtree {n : ℕ} {c : ρ} (hn : rank (id c) < n) {x : ι}
    (hx : x ∈ (postorder children id n (id c) ++ [c]).map id) :
    ReflTransGen (Child children id) (id c) x := by
  rw [List.map_append, List.mem_append] at hx
  rcases hx with hx | hx
  · exact ((mem_postorder_id hrank hn).1 hx).to_reflTransGen
  · rw [List.map_singleton, List.mem_singleton] at hx
    exact hx ▸ .refl

variable (hparent : OneParent children id)
include hparent

/-- No node is reached from two different children of one node. -/
theorem siblings_apart {p c c' x : ι} (hc : Child children id p c) (hc' : Child children id p c')
    (hne : c ≠ c') (hx : ReflTransGen (Child children id) c x) :
    ¬ ReflTransGen (Child children id) c' x := by
  -- a child that is below its sibling is below its own parent's child, hence below itself
  have hbelow : ∀ {c c'}, Child children id p c → Child children id p c' → c ≠ c' →
      ¬ ReflTransGen (Child children id) c c' := by
    intro c c' hc hc' hne hreach
    rcases ReflTransGen.cases_tail hreach with rfl | ⟨q, hq, hlast⟩
    · exact hne rfl
    · obtain rfl := hparent.parent hc' hlast
      have hup := rank_le_of_reach hrank hq
      have hdown := hrank hc
      omega
  intro hx'
  have hunique : Relator.RightUnique (Function.swap (Child children id)) := fun _ _ _ h h' =>
    hparent.parent h h'
  rcases ReflTransGen.total_of_right_unique hunique (reflTransGen_swap.2 hx)
    (reflTransGen_swap.2 hx') with h | h
  · exact hbelow hc' hc hne.symm (reflTransGen_swap.1 h)
  · exact hbelow hc hc' hne (reflTransGen_swap.1 h)

/-- The walk meets nobody twice. -/
theorem nodup_postorder {n : ℕ} {p : ι} (hn : rank p < n) :
    ((postorder children id n p).map id).Nodup := by
  induction n generalizing p with
  | zero => omega
  | succ n ih =>
    have hdeep : ∀ c ∈ children p, rank (id c) < n := fun c hc => by
      have := hrank ⟨c, hc, rfl⟩
      omega
    rw [postorder, List.map_flatMap, List.nodup_flatMap]
    constructor
    · intro c hc
      rw [List.map_append, List.map_singleton, List.nodup_append]
      refine ⟨ih (hdeep c hc), List.nodup_singleton _, ?_⟩
      rintro x hx _ hy rfl
      rw [List.mem_singleton.1 hy] at hx
      exact not_descendant_self hrank _ ((mem_postorder_id hrank (hdeep c hc)).1 hx)
    · refine List.Pairwise.imp_of_mem ?_ (List.pairwise_map.1 (hparent.distinct p))
      intro c c' hc hc' hne x hx hx'
      exact siblings_apart hrank hparent ⟨c, hc, rfl⟩ ⟨c', hc', rfl⟩ hne
        (reach_of_mem_subtree hrank (hdeep c hc) hx)
        (reach_of_mem_subtree hrank (hdeep c' hc') hx')

/-- Nobody is met before a descendant of theirs. -/
theorem pairwise_postorder {n : ℕ} {p : ι} (hn : rank p < n) :
    (postorder children id n p).Pairwise fun a b => ¬ Descendant children id (id a) (id b) := by
  induction n generalizing p with
  | zero => omega
  | succ n ih =>
    have hdeep : ∀ c ∈ children p, rank (id c) < n := fun c hc => by
      have := hrank ⟨c, hc, rfl⟩
      omega
    rw [postorder, List.pairwise_flatMap]
    constructor
    · intro c hc
      rw [List.pairwise_append]
      refine ⟨ih (hdeep c hc), List.pairwise_singleton _ _, fun a ha b hb hdown => ?_⟩
      rw [List.mem_singleton.1 hb] at hdown
      have hup := (mem_postorder_id hrank (hdeep c hc)).1 (List.mem_map_of_mem ha)
      exact not_descendant_self hrank _ (hup.trans hdown)
    · refine List.Pairwise.imp_of_mem ?_ (List.pairwise_map.1 (hparent.distinct p))
      intro c c' hc hc' hne a ha b hb hdown
      have ha' := reach_of_mem_subtree hrank (hdeep c hc) (List.mem_map_of_mem ha)
      exact siblings_apart hrank hparent ⟨c, hc, rfl⟩ ⟨c', hc', rfl⟩ hne
        (ha'.trans hdown.to_reflTransGen)
        (reach_of_mem_subtree hrank (hdeep c' hc') (List.mem_map_of_mem hb))

/-- All descendants of a node are met before it. -/
theorem descendants_before {n : ℕ} {p : ι} (hn : rank p < n) {before after : List ρ} {a : ρ}
    (hsplit : postorder children id n p = before ++ a :: after) {d : ι}
    (hd : Descendant children id (id a) d) : d ∈ before.map id := by
  have hpairs := pairwise_postorder hrank hparent hn
  have ha : id a ∈ (postorder children id n p).map id := by
    rw [hsplit]
    simp
  have hmem := (mem_postorder_id hrank hn).2 (((mem_postorder_id hrank hn).1 ha).trans hd)
  rw [hsplit] at hpairs hmem
  rw [List.map_append, List.map_cons, List.mem_append, List.mem_cons] at hmem
  rcases hmem with hbefore | rfl | hafter
  · exact hbefore
  · exact absurd hd (not_descendant_self hrank _)
  · obtain ⟨r, hr, rfl⟩ := List.mem_map.1 hafter
    have hlater := (List.pairwise_cons.1 (List.pairwise_append.1 hpairs).2.1).1 r hr
    exact absurd hd hlater

end

/-- Where no node descends from itself, the number of listed records below a node is a rank. -/
theorem exists_rank (records : List ρ) (hlisted : ∀ p, ∀ r ∈ children p, r ∈ records)
    (hacyclic : ∀ p, ¬ Descendant children id p p) :
    ∃ rank : ι → ℕ, (∀ {p c}, Child children id p c → rank c < rank p) ∧
      ∀ p, rank p ≤ records.length := by
  classical
  refine ⟨fun p => records.countP fun r => Descendant children id p (id r), ?_, fun p =>
    List.countP_le_length⟩
  rintro p _ ⟨c, hc, rfl⟩
  -- whatever is below the child is below the parent, and so is the child itself
  have hmono : ∀ r, Descendant children id (id c) (id r) → Descendant children id p (id r) :=
    fun r h => .head ⟨c, hc, rfl⟩ h
  have hself : Descendant children id p (id c) := .single ⟨c, hc, rfl⟩
  have hlt : ∀ records : List ρ, c ∈ records →
      (records.countP fun r => Descendant children id (id c) (id r)) <
        records.countP fun r => Descendant children id p (id r) := by
    intro records hmem
    obtain ⟨before, after, rfl⟩ := List.append_of_mem hmem
    have hbefore : (before.countP fun r => Descendant children id (id c) (id r)) ≤
        before.countP fun r => Descendant children id p (id r) :=
      List.countP_mono_left fun r _ h => by simpa using hmono r (by simpa using h)
    have hafter : (after.countP fun r => Descendant children id (id c) (id r)) ≤
        after.countP fun r => Descendant children id p (id r) :=
      List.countP_mono_left fun r _ h => by simpa using hmono r (by simpa using h)
    simp only [List.countP_append, List.countP_cons, hacyclic, hself, decide_true, decide_false,
      if_true, Bool.false_eq_true, if_false]
    omega
  exact hlt records (hlisted p c hc)

end Forest
