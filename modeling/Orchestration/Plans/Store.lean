import Orchestration.Store.Log

/-!
# The plan store

A plan is drafted once, changed while it is open and closed once. Each operation
reads the plan, appends one event and folds it, in one transaction.
-/

namespace Orchestration.Plans

open Fallible Transaction

/-- The projectors of a plan store. -/
def plansProjectors : List Projector := [.plans]

/-- A plan event as the project log carries it. -/
def toProject (event : NewEvent PlanEvent) : NewEvent Payload :=
  event.withPayload (.plan event.payload)

/-- A read of the plan tables. -/
def reading {α : Type} (read : PlansTables → α) : StoreTx α := do
  let db ← get
  return read db.plans

theorem reading_bind {db : Db} {α β : Type} {read : PlansTables → α} {f : α → StoreTx β} :
    (reading read >>= f) db = f (read db.plans) db := rfl

/-- Build a plan event, append it, fold it and read its plan back. -/
def recordPlan (source taskId : String) (event : Except String (NewEvent PlanEvent)) :
    StoreTx PlanRecord := do
  let event ← event
  let _ ← record plansProjectors (toProject event)
  let row ← reading (selectPlan · taskId)
  orThrow row s!"{source}: row missing after projection (taskId='{taskId}')"

def assertPlanOpenForMutation (source : String) (plan : PlanRecord) : Except String Unit :=
  refuse plan.completedTs.isSome
    s!"{source}: plan '{plan.taskId}' is already completed — task.completed is terminal"

/-- The plan that an operation is to change. -/
def openPlan (source eventType taskId : String) : StoreTx PlanRecord := do
  let existing ← reading (selectPlan · taskId)
  let existing ← orThrow existing
    s!"{source}: {eventType} for unknown plan '{taskId}' — draft it first"
  assertPlanOpenForMutation source existing
  return existing

/-! ## Operations -/

/-- Draft a plan; drafting it again the same way records nothing. -/
def recordDraft (rec : PlanDrafted) (actor : String) : StoreTx PlanRecord := do
  match ← reading (selectPlan · rec.taskId) with
  | some existing =>
    refuse (!sameDraft existing rec)
      (s!"openPlanStore.recordDraft: plan '{rec.taskId}' already exists with different content — " ++
        "refusing conflicting re-draft")
    assertPlanOpenForMutation "openPlanStore.recordDraft" existing
    return existing
  | none => recordPlan "openPlanStore.recordDraft" rec.taskId (makePlanDraftedEvent rec actor)

def changePhaseStatus (rec : PhaseStatusChanged) (actor : String) : StoreTx PlanRecord := do
  let source := "openPlanStore.changePhaseStatus"
  let _ ← openPlan source "phase.status.changed" rec.taskId
  recordPlan source rec.taskId (makePhaseStatusChangedEvent rec actor)

def recordPhaseVerified (rec : PhaseVerified) (actor : String) : StoreTx PlanRecord := do
  let source := "openPlanStore.recordPhaseVerified"
  let _ ← openPlan source "phase.verified" rec.taskId
  recordPlan source rec.taskId (makePhaseVerifiedEvent rec actor)

def recordReplan (rec : PlanReplanned) (actor : String) : StoreTx PlanRecord := do
  let source := "openPlanStore.recordReplan"
  let _ ← openPlan source "plan.replanned" rec.taskId
  recordPlan source rec.taskId (makePlanReplannedEvent rec actor)

/-- Close a plan; closing it again records nothing. -/
def recordTaskCompleted (taskId actor : String) : StoreTx PlanRecord := do
  let source := "openPlanStore.recordTaskCompleted"
  let existing ← reading (selectPlan · taskId)
  let existing ← orThrow existing
    s!"{source}: task.completed for unknown plan '{taskId}' — draft it first"
  if existing.completedTs.isSome then return existing
  else
    assertPlanReadyToComplete source existing
    recordPlan source taskId (makeTaskCompletedEvent taskId actor)

/-! ## What the operations commit -/

/-- The store appends nothing but plan events. -/
def PlanEvents : EventClass := fun _ event => ∃ payload, event.payload = .plan payload

section

variable {db db' : Db} {plan : PlanRecord} {actor : String}

theorem recordPlan_spec {source taskId : String} {event : Except String (NewEvent PlanEvent)}
    (h : recordPlan source taskId event db = .ok (plan, db')) : Emits PlanEvents db db' := by
  obtain ⟨e, -, h⟩ := Tx.liftM_bind_eq_ok.1 h
  obtain ⟨_, mid, hrecord, h⟩ := Tx.bind_eq_ok.1 h
  rw [reading_bind, Tx.liftM_eq_ok] at h
  have howns : Owns plansProjectors (toProject e).payload := rfl
  exact h.2 ▸ Emits.single ⟨e.payload, rfl⟩ ((record_eq_ok howns).1 hrecord).2

theorem openPlan_eq_ok {source eventType taskId : String}
    (h : openPlan source eventType taskId db = .ok (plan, db')) : db = db' := by
  simp only [openPlan, reading_bind, Tx.liftM_bind_eq_ok, Tx.pure_eq_ok] at h
  obtain ⟨_, -, -, -, -, rfl⟩ := h
  rfl

theorem recordDraft_spec {rec : PlanDrafted} (h : recordDraft rec actor db = .ok (plan, db')) :
    Emits PlanEvents db db' := by
  rw [recordDraft, reading_bind] at h
  cases hexisting : selectPlan db.plans rec.taskId with
  | some existing =>
    simp only [hexisting, Tx.liftM_bind_eq_ok, Tx.pure_eq_ok] at h
    obtain ⟨-, -, -, -, -, rfl⟩ := h
    exact .refl
  | none =>
    simp only [hexisting] at h
    exact recordPlan_spec h

/-- What changes an open plan commits one plan event. -/
theorem openPlan_recordPlan_spec {source eventType taskId : String}
    {event : Except String (NewEvent PlanEvent)}
    (h : (openPlan source eventType taskId >>= fun _ => recordPlan source taskId event) db =
      .ok (plan, db')) : Emits PlanEvents db db' := by
  obtain ⟨_, _, hopen, h⟩ := Tx.bind_eq_ok.1 h
  obtain rfl := openPlan_eq_ok hopen
  exact recordPlan_spec h

theorem changePhaseStatus_spec {rec : PhaseStatusChanged}
    (h : changePhaseStatus rec actor db = .ok (plan, db')) : Emits PlanEvents db db' :=
  openPlan_recordPlan_spec h

theorem recordPhaseVerified_spec {rec : PhaseVerified}
    (h : recordPhaseVerified rec actor db = .ok (plan, db')) : Emits PlanEvents db db' :=
  openPlan_recordPlan_spec h

theorem recordReplan_spec {rec : PlanReplanned} (h : recordReplan rec actor db = .ok (plan, db')) :
    Emits PlanEvents db db' :=
  openPlan_recordPlan_spec h

theorem recordTaskCompleted_spec {taskId : String}
    (h : recordTaskCompleted taskId actor db = .ok (plan, db')) : Emits PlanEvents db db' := by
  simp only [recordTaskCompleted, reading_bind, Tx.liftM_bind_eq_ok] at h
  obtain ⟨existing, -, h⟩ := h
  by_cases hclosed : existing.completedTs.isSome = true
  · rw [if_pos hclosed, Tx.pure_eq_ok] at h
    exact h.2 ▸ .refl
  · rw [if_neg hclosed, Tx.liftM_bind_eq_ok] at h
    obtain ⟨_, -, h⟩ := h
    exact recordPlan_spec h

end

/-! ## Calls -/

/-- A call of the plan store. -/
inductive PlanCall where
  | recordDraft (rec : PlanDrafted) (actor : String)
  | changePhaseStatus (rec : PhaseStatusChanged) (actor : String)
  | recordPhaseVerified (rec : PhaseVerified) (actor : String)
  | recordReplan (rec : PlanReplanned) (actor : String)
  | recordTaskCompleted (taskId actor : String)
deriving DecidableEq, Repr

/-- The database after a call. -/
def PlanCall.exec : PlanCall → Db → Db
  | recordDraft rec actor => (transaction (Plans.recordDraft rec actor)).exec
  | changePhaseStatus rec actor => (transaction (Plans.changePhaseStatus rec actor)).exec
  | recordPhaseVerified rec actor => (transaction (Plans.recordPhaseVerified rec actor)).exec
  | recordReplan rec actor => (transaction (Plans.recordReplan rec actor)).exec
  | recordTaskCompleted taskId actor => (transaction (Plans.recordTaskCompleted taskId actor)).exec

theorem PlanCall.exec_emits {db : Db} (call : PlanCall) : Emits PlanEvents db (call.exec db) := by
  cases call with
  | recordDraft rec actor => exact Proc.exec_transaction .refl fun _ _ h => recordDraft_spec h
  | changePhaseStatus rec actor =>
    exact Proc.exec_transaction .refl fun _ _ h => changePhaseStatus_spec h
  | recordPhaseVerified rec actor =>
    exact Proc.exec_transaction .refl fun _ _ h => recordPhaseVerified_spec h
  | recordReplan rec actor => exact Proc.exec_transaction .refl fun _ _ h => recordReplan_spec h
  | recordTaskCompleted taskId actor =>
    exact Proc.exec_transaction .refl fun _ _ h => recordTaskCompleted_spec h

end Orchestration.Plans
