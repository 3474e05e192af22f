import Orchestration.Conductor.ClarifyTick

/-!
# A sweep of one project that goes through

Within one project no two agents share a clock, whatever their names. So a tick over the
candidates of one project goes through as soon as each clarify whose clock has run out can
be forwarded; dropping stale clocks can only put off a forward.
-/

namespace Orchestration.Conductor

open Fallible Transaction
open Mail (DeliveredMail)

section

variable {deps : ConductorEngineDeps} {now : ℚ} {engine engine' : Engine}
  {identity other : HostedIdentity} {seq seq' : ℕ} {ids : List HostedIdentity}

/-- What follows the first separator of a list. -/
theorem after_first_eq {α : Type} {a : α} {d d' l l' : List α} (hd : a ∉ d) (hd' : a ∉ d')
    (h : d ++ a :: l = d' ++ a :: l') : l = l' := by
  induction d generalizing d' with
  | nil =>
    cases d' with
    | nil => exact (List.cons.inj h).2
    | cons b d' => exact absurd (List.mem_cons.2 (.inl (List.cons.inj h).1)) hd'
  | cons b d ih =>
    cases d' with
    | nil => exact absurd (List.mem_cons.2 (.inl (List.cons.inj h).1.symm)) hd
    | cons b' d' =>
      exact ih (fun hmem => hd (List.mem_cons_of_mem _ hmem))
        (fun hmem => hd' (List.mem_cons_of_mem _ hmem)) (List.cons.inj h).2

theorem colon_notMem_digits (seq : ℕ) : ':' ∉ (toString seq).toList := by
  have hdigits : (toString seq).toList = Nat.toDigits 10 seq := Nat.toList_repr
  intro hmem
  rw [hdigits] at hmem
  have hdigit := Nat.isDigit_of_mem_toDigits (by decide) (by decide) hmem
  cases hdigit

/-- The clocks of two agents of a project have different keys. -/
theorem agent_eq_of_clarifyKey (hproject : other.projectId = identity.projectId)
    (h : clarifyKey other seq = clarifyKey identity seq') : other = identity := by
  have hlists := congrArg String.toList h
  simp only [clarifyKey, clarifyScope, String.toList_append, hproject, List.append_assoc] at hlists
  have hafter := List.append_cancel_left (List.append_cancel_left hlists)
  have hcolon : ":".toList = [':'] := rfl
  rw [hcolon] at hafter
  have hreversed : (toString seq).toList.reverse ++ ':' :: other.agent.toList.reverse =
      (toString seq').toList.reverse ++ ':' :: identity.agent.toList.reverse := by
    simpa using congrArg List.reverse hafter
  have hagents := after_first_eq
    (fun hmem => colon_notMem_digits seq (List.mem_reverse.1 hmem))
    (fun hmem => colon_notMem_digits seq' (List.mem_reverse.1 hmem)) hreversed
  have hagent : other.agent = identity.agent :=
    String.toList_injective (List.reverse_injective hagents)
  cases other
  cases identity
  cases hproject
  cases hagent
  rfl

/-! ## One agent -/

/-- What the tick of one agent leaves to the agents of its project. -/
structure PassesOver (identity : HostedIdentity) (engine engine' : Engine) : Prop where
  emits : ∀ p, Emits AnyEvent (engine.stores p) (engine'.stores p)
  roster : ∀ p, (engine'.stores p).roster = (engine.stores p).roster
  nextSeq : ∀ p, (engine'.stores p).nextSeq ≤
    (engine.stores p).nextSeq + 2 * (waitingFor engine identity).length
  untouched : ∀ other, other ≠ identity → waitingFor engine' other = waitingFor engine other
  clocks : ∀ other, other ≠ identity → other.projectId = identity.projectId → ∀ seq t,
    engine'.getClock (clarifyKey other seq) = some t →
    engine.getClock (clarifyKey other seq) = some t

theorem Visited.passesOver
    (h : Visited deps now identity (waitingFor engine identity) engine engine')
    (keys : List String) : PassesOver identity engine (engine'.pruneClocks identity keys) := by
  have hstore : ∀ p, p = identity.projectId ∨ engine'.stores p = engine.stores p := by
    intro p
    by_cases hp : p = identity.projectId
    · exact .inl hp
    · exact .inr (h.others p hp)
  constructor
  case emits =>
    intro p
    cases hstore p with
    | inl hp =>
      subst hp
      exact h.store.emits
    | inr hsame =>
      rw [Engine.stores_pruneClocks, hsame]
  case roster =>
    intro p
    cases hstore p with
    | inl hp =>
      subst hp
      exact h.store.roster
    | inr hsame => rw [Engine.stores_pruneClocks, hsame]
  case nextSeq =>
    intro p
    cases hstore p with
    | inl hp =>
      subst hp
      exact h.store.nextSeq
    | inr hsame =>
      rw [Engine.stores_pruneClocks, hsame]
      exact Nat.le_add_right _ _
  case untouched => exact fun other hne => h.waitingFor_eq hne
  case clocks =>
    intro other hne hproject seq t hclock
    rw [Engine.getClock_pruneClocks] at hclock
    split at hclock
    · cases hclock
    · rw [h.otherKeys _ fun m _ hkey => hne (agent_eq_of_clarifyKey hproject hkey)] at hclock
      exact hclock

/-- The tick of an agent goes through when all that is due can be forwarded. -/
theorem tickAgent_passes (hconsistent : Consistent (engine.stores identity.projectId))
    (hroom : (engine.stores identity.projectId).nextSeq +
      2 * (waitingFor engine identity).length ≤ Js.maxSafeInteger)
    (hdue : DueForwardable deps now engine identity) :
    ∃ forwarded engine', tickAgent deps now identity engine = (.ok forwarded, engine') ∧
      PassesOver identity engine engine' := by
  have hready : ReadyItems deps now identity (waitingFor engine identity) engine :=
    ⟨hconsistent, hroom, (waitingItems_sorted _ _).imp fun hlt => Nat.ne_of_lt hlt,
      fun _ hm => hm, hdue⟩
  obtain ⟨forwarded, mid, hcollect, hvisited⟩ := collect_tickItem_visits hready
  have hread : onProject identity.projectId
      (transaction (Mail.reading (Mail.waitingItems · identity.agent))) engine =
        (.ok (waitingFor engine identity), engine) := by
    refine Prod.ext rfl ?_
    show engine.setStore identity.projectId (engine.stores identity.projectId) = engine
    rw [Engine.setStore, Function.update_eq_self]
  refine ⟨forwarded, mid.pruneClocks identity
    ((waitingFor engine identity).map fun m => clarifyKey identity m.seq), ?_, ?_⟩
  · exact Proc.bind_eq_ok.2 ⟨_, engine, hread, Proc.bind_eq_ok.2 ⟨forwarded, mid, hcollect,
      Proc.bind_eq_ok.2 ⟨(), _, rfl, rfl⟩⟩⟩
  · exact hvisited.passesOver _

/-! ## All candidates -/

/-- A sweep over these agents of one project can forward all that is due. -/
structure SweepReady (deps : ConductorEngineDeps) (now : ℚ) (projectId : String)
    (ids : List HostedIdentity) (engine : Engine) : Prop where
  distinct : ids.Nodup
  project : ∀ identity ∈ ids, identity.projectId = projectId
  consistent : ∀ p, Consistent (engine.stores p)
  due : ∀ identity ∈ ids, DueForwardable deps now engine identity
  room : (engine.stores projectId).nextSeq + 2 * waitingCount engine ids ≤ Js.maxSafeInteger

theorem SweepReady.passes {projectId : String}
    (h : SweepReady deps now projectId (identity :: ids) engine)
    (hpasses : PassesOver identity engine engine') :
    SweepReady deps now projectId ids engine' := by
  obtain ⟨hnot, hdistinct⟩ := List.nodup_cons.1 h.distinct
  have hne : ∀ other ∈ ids, other ≠ identity := fun other hother heq => hnot (heq ▸ hother)
  have hsame : waitingCount engine' ids = waitingCount engine ids := by
    rw [waitingCount, waitingCount, List.map_congr_left fun other hother => ?_]
    rw [hpasses.untouched other (hne other hother)]
  refine ⟨hdistinct, fun other hother => h.project other (List.mem_cons_of_mem _ hother),
    fun p => (h.consistent p).emits (hpasses.emits p), fun other hother m hm hran => ?_, ?_⟩
  · rw [hpasses.untouched other (hne other hother)] at hm
    obtain ⟨firstSeen, hclock, hpast⟩ := hran
    have hproject : other.projectId = identity.projectId := by
      rw [h.project other (List.mem_cons_of_mem _ hother), h.project identity List.mem_cons_self]
    rw [hpasses.roster]
    exact h.due other (List.mem_cons_of_mem _ hother) m hm
      ⟨firstSeen, hpasses.clocks other (hne other hother) hproject m.seq firstSeen hclock, hpast⟩
  · have hroom := h.room
    have hnext := hpasses.nextSeq projectId
    rw [waitingCount_cons] at hroom
    omega

/-- A tick over candidates of one project goes through when all that is due can be forwarded. -/
theorem tick_passes {projectId : String} {candidates : List HostedIdentity}
    (h : SweepReady deps now projectId (agentsByProject candidates) engine) :
    ∃ forwarded engine', tickClarifyTimeouts deps now candidates engine = (.ok forwarded, engine') ∧
      ∀ p, Emits AnyEvent (engine.stores p) (engine'.stores p) := by
  refine Proc.collect_spec (SweepReady deps now projectId)
    (fun _ engine engine' => ∀ p, Emits AnyEvent (engine.stores p) (engine'.stores p))
    (fun _ _ => .refl) ?_ h
  intro identity ids engine hready
  have hfirst : identity ∈ identity :: ids := List.mem_cons_self
  have hroom := hready.room
  rw [waitingCount_cons, ← hready.project identity hfirst] at hroom
  obtain ⟨forwarded, engine', htick, hpasses⟩ := tickAgent_passes
    (hready.consistent identity.projectId) (by omega) (hready.due identity hfirst)
  refine ⟨forwarded, engine', htick, hready.passes hpasses, fun engine'' hrest p => ?_⟩
  exact (hpasses.emits p).trans (hrest p)

end

end Orchestration.Conductor
