import Mathlib.Data.List.Induction
import Mathlib.Data.List.Nodup
import Mathlib.Data.List.Perm.Subperm

/-!
# Turns

One turn at a time goes to one of those that wait for it. A history of turns is patient
when nobody has a further turn while one waits who has waited since before the last. In a
patient history everyone who keeps waiting has a turn within as many turns as there are
who may wait.
-/

namespace Turns

variable {α : Type}

/-- A turn: who waited for it, and who had it. -/
structure Turn (α : Type) where
  waiting : List α
  chosen : Option α
deriving DecidableEq, Repr

/-- `a` waited for each of the turns, and had none. -/
def PassedOver (turns : List (Turn α)) (a : α) : Prop :=
  ∀ turn ∈ turns, a ∈ turn.waiting ∧ turn.chosen ≠ some a

/-- `c` has had a turn since `a` began to wait. -/
def HadTurnSince (history : List (Turn α)) (a c : α) : Prop :=
  ∃ earlier later, history = earlier ++ later ∧ PassedOver later a ∧
    ∃ turn ∈ later, turn.chosen = some c

/-- The next turn may be this one. -/
structure Next (history : List (Turn α)) (turn : Turn α) : Prop where
  served : turn.waiting ≠ [] → ∃ c ∈ turn.waiting, turn.chosen = some c
  patient : ∀ a ∈ turn.waiting, ∀ c, turn.chosen = some c → ¬ HadTurnSince history a c

/-- Nobody had a further turn while one waited who had waited since before the last. -/
def Patient (history : List (Turn α)) : Prop :=
  ∀ earlier turn later, history = earlier ++ turn :: later → Next earlier turn

variable {history earlier window later : List (Turn α)} {turn : Turn α} {a : α}

theorem Patient.nil : Patient ([] : List (Turn α)) := by
  intro earlier turn later h
  simp at h

theorem Patient.concat (h : Patient history) (hnext : Next history turn) :
    Patient (history ++ [turn]) := by
  intro earlier' turn' later' hsame
  obtain rfl | ⟨rest, last, rfl⟩ := List.eq_nil_or_concat later'
  · obtain ⟨rfl, hlast⟩ := List.append_inj' hsame rfl
    obtain rfl := List.singleton_inj.1 hlast
    exact hnext
  · rw [List.concat_eq_append, ← List.cons_append, ← List.append_assoc] at hsame
    exact h _ _ _ (List.append_inj' hsame rfl).1

/-- While `a` is passed over, the turns go to others, to each of them at most once. -/
theorem Patient.served_once (h : Patient (earlier ++ window)) (hover : PassedOver window a) :
    ∃ served : List α, window.map Turn.chosen = served.map some ∧ served.Nodup ∧ a ∉ served ∧
      ∀ c ∈ served, ∃ turn ∈ window, c ∈ turn.waiting := by
  induction window using List.reverseRecOn with
  | nil => exact ⟨[], rfl, List.nodup_nil, List.not_mem_nil, by simp⟩
  | append_singleton window turn ih =>
    have hlast : turn ∈ window ++ [turn] := by simp
    have hbefore : PassedOver window a := fun t ht => hover t (List.mem_append_left _ ht)
    have hpatient : Patient (earlier ++ window) := by
      intro e t l hsame
      refine h e t (l ++ [turn]) ?_
      rw [← List.append_assoc, hsame, List.append_assoc, List.cons_append]
    obtain ⟨served, hchosen, hnodup, hnot, hwaiting⟩ := ih hpatient hbefore
    have hnext : Next (earlier ++ window) turn := h _ _ [] (List.append_assoc _ _ _).symm
    obtain ⟨ha, hne⟩ := hover turn hlast
    obtain ⟨c, hc, hturn⟩ := hnext.served (List.ne_nil_of_mem ha)
    -- whoever has this turn had none of those before it
    have hfresh : c ∉ served := by
      intro hmem
      refine hnext.patient a ha c hturn ⟨earlier, window, rfl, hbefore, ?_⟩
      have hsome : some c ∈ window.map Turn.chosen := by
        rw [hchosen]
        exact List.mem_map_of_mem hmem
      exact List.mem_map.1 hsome
    refine ⟨served ++ [c], ?_, ?_, ?_, ?_⟩
    · rw [List.map_append, List.map_append, hchosen, List.map_singleton, hturn, List.map_singleton]
    · rw [List.nodup_append]
      refine ⟨hnodup, List.nodup_singleton c, ?_⟩
      intro x hx y hy heq
      rw [List.mem_singleton.1 hy] at heq
      exact hfresh (heq ▸ hx)
    · intro hmem
      cases List.mem_append.1 hmem with
      | inl hold => exact hnot hold
      | inr hnew =>
        rw [List.mem_singleton.1 hnew] at hne
        exact hne hturn
    · intro x hx
      cases List.mem_append.1 hx with
      | inl hold =>
        obtain ⟨t, ht, hxt⟩ := hwaiting x hold
        exact ⟨t, List.mem_append_left _ ht, hxt⟩
      | inr hnew => exact ⟨turn, hlast, List.mem_singleton.1 hnew ▸ hc⟩

/-- In a patient history who keeps waiting has a turn within as many turns as there are who
may wait. -/
theorem Patient.has_turn {agents : List α} (h : Patient history)
    (hsplit : history = earlier ++ window ++ later) (hwaits : ∀ turn ∈ window, a ∈ turn.waiting)
    (hagents : ∀ turn ∈ window, turn.waiting ⊆ agents) (ha : a ∈ agents)
    (hlong : agents.length ≤ window.length) : ∃ turn ∈ window, turn.chosen = some a := by
  by_contra hnone
  have hover : PassedOver window a := by
    intro turn hturn
    exact ⟨hwaits turn hturn, fun hchosen => hnone ⟨turn, hturn, hchosen⟩⟩
  have hwindow : Patient (earlier ++ window) := by
    intro e t l hsame
    refine h e t (l ++ later) ?_
    rw [hsplit, hsame, List.append_assoc, List.cons_append]
  obtain ⟨served, hchosen, hnodup, hnot, hserved⟩ := hwindow.served_once hover
  have hsubset : a :: served ⊆ agents := by
    intro c hc
    cases List.mem_cons.1 hc with
    | inl heq => exact heq ▸ ha
    | inr hmem =>
      obtain ⟨turn, hturn, hwaiting⟩ := hserved c hmem
      exact hagents turn hturn hwaiting
  have hle : (a :: served).length ≤ agents.length :=
    (List.subperm_of_subset (List.nodup_cons.2 ⟨hnot, hnodup⟩) hsubset).length_le
  have hlength : window.length = served.length := by
    have hmaps := congrArg List.length hchosen
    rwa [List.length_map, List.length_map] at hmaps
  rw [List.length_cons] at hle
  omega

end Turns
