import Orchestration.Library.Table
import Orchestration.Mail.Events
import Orchestration.Roles.Events

/-!
# The roster

One row for each registered agent. An agent is registered under a parent that
may spawn its role, and removed only when it is nobody's parent; registering it
again the same way changes nothing.
-/

namespace Orchestration.Roles

open Fallible
open Mail (OPERATOR)

structure RosterTables where
  roster : Table AgentRecord.agentId := {}

def selectAgent (t : RosterTables) (agentId : String) : Option AgentRecord := t.roster.find? agentId

/-- All agents, by the time of their registration, then by name. -/
def selectAllAgents (t : RosterTables) : List AgentRecord :=
  t.roster.rows.mergeSort fun a b =>
    a.registeredTs < b.registeredTs || a.registeredTs == b.registeredTs && a.agentId ≤ b.agentId

def sameRegistration (existing : AgentRecord) (rec : AgentRegistered) : Bool :=
  existing.role == rec.role && existing.parent == rec.parent && existing.subRole == rec.subRole &&
    (rec.name.isNone || existing.name == rec.name)

/-- Check a registration against the roster; an agent registered so already is returned. -/
def validateAgentRegistration (t : RosterTables) (rec : AgentRegistered) :
    Except String (Option AgentRecord) := do
  refuse (rec.agentId = OPERATOR)
    s!"roster: reserved agent id '{OPERATOR}' cannot be registered as an agent"
  match selectAgent t rec.agentId with
  | some existing =>
    if sameRegistration existing rec then return existing
    else
      throw (s!"roster: agent '{rec.agentId}' is already registered as role '{existing.role}' " ++
        s!"with parent '{existing.parent}' — refusing conflicting re-registration as role " ++
        s!"'{rec.role}' with parent '{rec.parent}'")
  | none =>
    whenSome rec.subRole fun subRole =>
      refuse (findSubRole rec.role subRole).isNone
        (s!"roster: unknown sub-role '{subRole}' for base role '{rec.role}' on agent " ++
          s!"'{rec.agentId}'")
    refuse (rec.parent = rec.agentId) s!"roster: agent '{rec.agentId}' cannot be its own parent"
    if rec.role = .coordinator then
      refuse (rec.parent ≠ OPERATOR)
        (s!"roster: coordinator '{rec.agentId}' must have parent '{OPERATOR}', got " ++
          s!"'{rec.parent}'")
      return none
    else
      let parent ← orThrow (selectAgent t rec.parent)
        s!"roster: parent '{rec.parent}' is not registered for agent '{rec.agentId}'"
      whenSome (checkSpawnPlan parent.role rec.role) fun reason =>
        throw (s!"roster: parent '{rec.parent}' ({parent.role}) cannot spawn '{rec.agentId}' " ++
          s!"({rec.role}): {reason}")
      return none

/-- Check that an agent is registered and has no children. -/
def validateAgentRemoval (t : RosterTables) (agentId : String) : Except String AgentRecord := do
  let existing ← orThrow (selectAgent t agentId)
    s!"roster: agent '{agentId}' is not registered — cannot remove it"
  whenSome ((selectAllAgents t).find? fun row => row.parent = agentId) fun child =>
    throw (s!"roster: agent '{agentId}' still has child agent '{child.agentId}' — " ++
      "remove children before removing their parent")
  return existing

/-- Fold a registration. -/
def applyAgentRegistered (t : RosterTables) (ts : ℕ) (rec : AgentRegistered) :
    Except String RosterTables := do
  match ← validateAgentRegistration t rec with
  | some _ => return t
  | none =>
    let roster ← orThrow
      (t.roster.insert? {
        agentId := rec.agentId
        role := rec.role
        subRole := rec.subRole
        name := rec.name
        parent := rec.parent
        registeredTs := ts })
      "UNIQUE constraint failed: roster.agent_id"
    return { t with roster }

/-- Fold a removal. -/
def applyAgentRemoved (t : RosterTables) (agentId : String) : Except String RosterTables := do
  let _ ← validateAgentRemoval t agentId
  return { t with roster := t.roster.filter (·.agentId != agentId) }

/-- The roster projector: fold one decoded event. -/
def RosterProjector.apply (t : RosterTables) (event : StoredEvent RolesEvent) :
    Except String RosterTables :=
  match event.payload with
  | .registered rec => applyAgentRegistered t event.ts rec
  | .removed agentId => applyAgentRemoved t agentId

/-! ## What the checks let through -/

/-- A new registration is under a parent that may spawn its role. -/
theorem validateAgentRegistration_new {t : RosterTables} {rec : AgentRegistered}
    (h : validateAgentRegistration t rec = .ok none) :
    rec.agentId ≠ OPERATOR ∧ selectAgent t rec.agentId = none ∧ rec.parent ≠ rec.agentId ∧
      (rec.role = .coordinator ∧ rec.parent = OPERATOR ∨
        rec.role ≠ .coordinator ∧ ∃ parent, selectAgent t rec.parent = some parent ∧
          canSpawn parent.role rec.role = true) := by
  simp only [validateAgentRegistration, bind_eq_ok, refuse_eq_ok] at h
  obtain ⟨-, hreserved, h⟩ := h
  split at h
  · split at h
    · simp at h
    · simp at h
  · next hfree =>
    obtain ⟨-, -, -, hself, h⟩ := by simpa only [bind_eq_ok, refuse_eq_ok] using h
    refine ⟨hreserved, hfree, hself, ?_⟩
    split at h
    · next hrole =>
      obtain ⟨-, hparent, -⟩ := by simpa only [bind_eq_ok, refuse_eq_ok] using h
      exact .inl ⟨hrole, by simpa using hparent⟩
    · next hrole =>
      obtain ⟨parent, hparent, -, hspawn, -⟩ := by
        simpa only [bind_eq_ok, orThrow_eq_ok, whenSome_eq_ok, throw_eq_ok] using h
      refine .inr ⟨hrole, parent, hparent, ?_⟩
      rw [← checkSpawnPlan_eq_none, Option.eq_none_iff_forall_ne_some]
      exact fun reason hreason => hspawn reason hreason

/-- An agent that is registered so already. -/
theorem validateAgentRegistration_again {t : RosterTables} {rec : AgentRegistered}
    {existing : AgentRecord} (h : validateAgentRegistration t rec = .ok (some existing)) :
    ∃ row, selectAgent t rec.agentId = some row ∧ row.parent = rec.parent ∧
      row.role = rec.role := by
  simp only [validateAgentRegistration, bind_eq_ok, refuse_eq_ok] at h
  obtain ⟨-, -, h⟩ := h
  cases hexisting : selectAgent t rec.agentId with
  | some row =>
    rw [hexisting] at h
    by_cases hsame : sameRegistration row rec = true
    · simp only [sameRegistration, Bool.and_eq_true, beq_iff_eq] at hsame
      exact ⟨row, rfl, hsame.1.1.2, hsame.1.1.1⟩
    · simp [hsame] at h
  | none =>
    simp only [hexisting, bind_eq_ok] at h
    obtain ⟨-, -, -, -, h⟩ := h
    split at h
    · obtain ⟨-, -, h⟩ := bind_eq_ok.1 h
      cases h
    · obtain ⟨parent, -, h⟩ := bind_eq_ok.1 h
      obtain ⟨-, -, h⟩ := bind_eq_ok.1 h
      cases h

/-- An agent passes the removal check just when it is registered and nobody's parent. -/
theorem validateAgentRemoval_eq_ok {t : RosterTables} {agentId : String} {existing : AgentRecord} :
    validateAgentRemoval t agentId = .ok existing ↔
      selectAgent t agentId = some existing ∧ ∀ row ∈ t.roster.rows, row.parent ≠ agentId := by
  have hchild : (selectAllAgents t).find? (fun row => row.parent = agentId) = none ↔
      ∀ row ∈ t.roster.rows, row.parent ≠ agentId := by
    simp [selectAllAgents]
  simp only [validateAgentRemoval, bind_eq_ok, orThrow_eq_ok, whenSome_eq_ok, throw_eq_ok,
    pure_eq_ok, ← hchild]
  constructor
  · rintro ⟨_, hexisting, -, hnone, rfl⟩
    exact ⟨hexisting, Option.eq_none_iff_forall_ne_some.2 fun child hc => hnone child hc⟩
  · rintro ⟨hexisting, hnone⟩
    refine ⟨existing, hexisting, (), fun child hc => ?_, rfl⟩
    rw [hnone] at hc
    cases hc

end Orchestration.Roles
