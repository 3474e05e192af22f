import Orchestration.Library.Fallible
import Orchestration.Store.Event

/-!
# Role events

An agent is registered with a role under a parent, and removed again as long as
it is nobody's parent. Which role may stand under which is a fixed table.
-/

namespace Orchestration.Roles

open Fallible

inductive Role where
  | coordinator
  | lead
  | implementer
  | reviewer
  | researcher
deriving DecidableEq, Repr

instance : ToString Role where
  toString
    | .coordinator => "coordinator"
    | .lead => "lead"
    | .implementer => "implementer"
    | .reviewer => "reviewer"
    | .researcher => "researcher"

/-! ## Spawn rules -/

/-- Allowed child roles per parent role. -/
def SPAWN_RULES : Role → List Role
  | .coordinator => [.lead, .implementer, .reviewer, .researcher]
  | .lead => [.implementer, .reviewer, .researcher]
  | .implementer => [.researcher]
  | .reviewer => []
  | .researcher => []

def canSpawn (parent child : Role) : Bool := (SPAWN_RULES parent).contains child

/-- Why a role may not stand under another; `none` when it may. -/
def checkSpawnPlan (parent child : Role) : Option String :=
  if canSpawn parent child then none
  else if parent = .coordinator ∧ child = .coordinator then
    some "a coordinator never spawns a coordinator"
  else if parent = .lead ∧ child = .lead then some "a lead never spawns a lead"
  else if parent = .researcher then some "researcher is a leaf and cannot spawn any agent"
  else if parent = .reviewer then some "reviewer is a leaf and cannot spawn any agent"
  else if parent = .implementer then some "implementer can only spawn a researcher"
  else some s!"{parent} is not allowed to spawn {child}"

/-- How many levels of agents a role may have below it. -/
def Role.level : Role → ℕ
  | .coordinator => 3
  | .lead => 2
  | .implementer => 1
  | .reviewer => 0
  | .researcher => 0

/-- A role only spawns roles of lower levels. -/
theorem level_lt_of_canSpawn {parent child : Role} (h : canSpawn parent child = true) :
    child.level < parent.level := by
  cases parent <;> cases child <;> revert h <;> decide

theorem checkSpawnPlan_eq_none {parent child : Role} :
    checkSpawnPlan parent child = none ↔ canSpawn parent child = true := by
  cases parent <;> cases child <;> decide

/-! ## Sub-roles -/

/-- The shipped sub-roles, each with its base role. -/
def SUB_ROLES : List (Role × String) :=
  [(.implementer, "code"), (.implementer, "test"), (.implementer, "docs"), (.implementer, "polish"),
    (.reviewer, "feature"), (.reviewer, "bugfix"), (.reviewer, "pr"),
    (.researcher, "codebase"), (.researcher, "external"), (.researcher, "diagnostic"),
    (.researcher, "decision")]

def findSubRole (baseRole : Role) (name : String) : Option (Role × String) :=
  SUB_ROLES.find? fun s => s.1 = baseRole ∧ s.2 = name

/-- The base role and the name of `base:sub`; a bare role has no name. -/
def parseSubRoleId (id : String) : String × Option String :=
  match id.toList.span (· != ':') with
  | (_, []) => (id, none)
  | (baseRole, _ :: name) => (String.ofList baseRole, some (String.ofList name))

/-! ## Events -/

def agentScope (agentId : String) : String := "agent:" ++ agentId

structure AgentRegistered where
  agentId : String
  role : Role
  subRole : Option String := none
  name : Option String := none
  parent : String
deriving DecidableEq, Repr

/-- What a roster event carries. -/
inductive RolesEvent where
  | registered (rec : AgentRegistered)
  | removed (agentId : String)
deriving DecidableEq, Repr

def RolesEvent.typeName : RolesEvent → String
  | registered _ => "agent.registered"
  | removed _ => "agent.removed"

def agentRegisteredSchema (rec : AgentRegistered) : Except String Unit := do
  minLength1 "agentId" rec.agentId
  whenSome rec.subRole (minLength1 "subRole")
  whenSome rec.name (minLength1 "name")
  minLength1 "parent" rec.parent

/-- The payload schema of each roster event, checked on append and on every read. -/
def rolesSchemas (event : RolesEvent) : Except String RolesEvent := do
  match event with
  | .registered rec => agentRegisteredSchema rec
  | .removed agentId => minLength1 "agentId" agentId
  return event

/-- A built event carries exactly what the schema accepted. -/
theorem rolesSchemas_eq {event event' : RolesEvent} (h : rolesSchemas event = .ok event') :
    event' = event := by
  unfold rolesSchemas at h
  cases event <;> simp only [bind_eq_ok, pure_eq_ok] at h <;> grind

def makeAgentRegisteredEvent (rec : AgentRegistered) : Except String (NewEvent RolesEvent) := do
  agentRegisteredSchema rec
  return { scope := agentScope rec.agentId, v := 1, payload := .registered rec, actor := rec.parent }

def makeAgentRemovedEvent (agentId : String) : Except String (NewEvent RolesEvent) := do
  minLength1 "agentId" agentId
  return { scope := agentScope agentId, v := 1, payload := .removed agentId, actor := agentId }

/-- A row of `roster`. -/
structure AgentRecord where
  agentId : String
  role : Role
  subRole : Option String
  name : Option String
  parent : String
  registeredTs : ℕ
deriving DecidableEq, Repr

end Orchestration.Roles
