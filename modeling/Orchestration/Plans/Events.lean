import Orchestration.Library.Fallible
import Orchestration.Store.Event

/-!
# Plan events

A plan is drafted as a graph of phases, its phases change status and are
verified, it may be planned anew, and at the end its task is completed.
-/

namespace Orchestration.Plans

open Fallible

def planScope (taskId : String) : String := "plan:" ++ taskId

/-- One acceptance criterion and the command that proves it. -/
structure Criterion where
  text : String
  verify : Option String := none
deriving DecidableEq, Repr

inductive PhaseStatus where
  | planned
  | building
  | review
  | verified
  | merged
deriving DecidableEq, Repr

instance : ToString PhaseStatus where
  toString
    | .planned => "planned"
    | .building => "building"
    | .review => "review"
    | .verified => "verified"
    | .merged => "merged"

/-- A node of the phase graph. -/
structure PhaseNode where
  phaseId : String
  name : String
  owner : Option String := none
  deps : List String
  criteria : List Criterion
deriving DecidableEq, Repr

structure PlanDrafted where
  taskId : String
  goal : String
  taskCriteria : List Criterion
  phases : List PhaseNode
deriving DecidableEq, Repr

structure PhaseStatusChanged where
  taskId : String
  phaseId : String
  status : PhaseStatus
deriving DecidableEq, Repr

structure PhaseVerified where
  taskId : String
  phaseId : String
  baselineSha : String
  pass : Bool
deriving DecidableEq, Repr

structure PlanReplanned where
  taskId : String
  reason : String
  phases : List PhaseNode
deriving DecidableEq, Repr

/-- What a plan-store event carries. -/
inductive PlanEvent where
  | drafted (rec : PlanDrafted)
  | statusChanged (rec : PhaseStatusChanged)
  | verified (rec : PhaseVerified)
  | replanned (rec : PlanReplanned)
  | completed (taskId : String)
deriving DecidableEq, Repr

namespace PlanEvent

def typeName : PlanEvent → String
  | drafted _ => "plan.drafted"
  | statusChanged _ => "phase.status.changed"
  | verified _ => "phase.verified"
  | replanned _ => "plan.replanned"
  | completed _ => "task.completed"

/-- The task a plan event is about. -/
def taskId : PlanEvent → String
  | drafted rec => rec.taskId
  | statusChanged rec => rec.taskId
  | verified rec => rec.taskId
  | replanned rec => rec.taskId
  | completed taskId => taskId

end PlanEvent

def criterionSchema (criterion : Criterion) : Except String Unit :=
  minLength1 "text" criterion.text

def phaseNodeSchema (phase : PhaseNode) : Except String Unit := do
  minLength1 "phaseId" phase.phaseId
  minLength1 "name" phase.name
  phase.criteria.forM criterionSchema

/-- The payload schema of each plan event, checked on append and on every read. -/
def plansSchemas (event : PlanEvent) : Except String PlanEvent := do
  minLength1 "taskId" event.taskId
  match event with
  | .drafted rec =>
    minLength1 "goal" rec.goal
    rec.taskCriteria.forM criterionSchema
    rec.phases.forM phaseNodeSchema
  | .statusChanged rec => minLength1 "phaseId" rec.phaseId
  | .verified rec =>
    minLength1 "phaseId" rec.phaseId
    minLength1 "baselineSha" rec.baselineSha
  | .replanned rec =>
    minLength1 "reason" rec.reason
    rec.phases.forM phaseNodeSchema
  | .completed _ => pure ()
  return event

/-- A built event carries exactly what the schema accepted. -/
theorem plansSchemas_eq {event event' : PlanEvent} (h : plansSchemas event = .ok event') :
    event' = event := by
  unfold plansSchemas at h
  cases event <;> simp only [bind_eq_ok, pure_eq_ok] at h <;> grind

/-- Each kind of plan event is built the same way: check it and file it in its plan's stream. -/
def makePlanEvent (event : PlanEvent) (actor : String) : Except String (NewEvent PlanEvent) := do
  let payload ← plansSchemas event
  return { scope := planScope payload.taskId, v := 1, payload, actor }

def makePlanDraftedEvent (rec : PlanDrafted) : String → Except String (NewEvent PlanEvent) :=
  makePlanEvent (.drafted rec)

def makePhaseStatusChangedEvent (rec : PhaseStatusChanged) :
    String → Except String (NewEvent PlanEvent) :=
  makePlanEvent (.statusChanged rec)

def makePhaseVerifiedEvent (rec : PhaseVerified) : String → Except String (NewEvent PlanEvent) :=
  makePlanEvent (.verified rec)

def makePlanReplannedEvent (rec : PlanReplanned) : String → Except String (NewEvent PlanEvent) :=
  makePlanEvent (.replanned rec)

def makeTaskCompletedEvent (taskId : String) : String → Except String (NewEvent PlanEvent) :=
  makePlanEvent (.completed taskId)

/-- A phase as a read returns it. -/
structure PhaseRecord where
  phaseId : String
  name : String
  owner : Option String
  deps : List String
  criteria : List Criterion
  status : PhaseStatus
  verifiedPass : Option Bool
  baselineSha : Option String
deriving DecidableEq, Repr

/-- A plan as a read returns it. -/
structure PlanRecord where
  taskId : String
  goal : String
  taskCriteria : List Criterion
  phases : List PhaseRecord
  draftedTs : ℕ
  replanCount : ℕ
  completedTs : Option ℕ
deriving DecidableEq, Repr

/-- The task closes once every phase is merged and verified green. -/
def assertPlanReadyToComplete (operation : String) (plan : PlanRecord) : Except String Unit := do
  let detail (phases : List PhaseRecord) (state : PhaseRecord → String) : String :=
    String.intercalate ", " (phases.map fun p => s!"'{p.phaseId}' ({state p})")
  let unmerged := plan.phases.filter (·.status ≠ .merged)
  refuse (unmerged ≠ [])
    (s!"{operation}: refusing task.completed for plan '{plan.taskId}' — {unmerged.length} " ++
      s!"phase(s) not 'merged': {detail unmerged (toString ·.status)}. " ++
      "Every phase must merge before the task can close.")
  let unverified := plan.phases.filter (·.verifiedPass ≠ some true)
  refuse (unverified ≠ [])
    (s!"{operation}: refusing task.completed for plan '{plan.taskId}' — {unverified.length} " ++
      "phase(s) not verified green: " ++
      detail unverified (fun p => if p.verifiedPass = some false then "failed" else "missing") ++
      ". Every phase must have phase.verified(pass=true) before the task can close.")

end Orchestration.Plans
