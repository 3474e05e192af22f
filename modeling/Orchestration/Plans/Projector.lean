import Orchestration.Library.Loop
import Orchestration.Library.Table
import Orchestration.Plans.Events

/-!
# The plan read model

One row for each plan and one for each of its phases. A new plan of the same
task keeps the state of a phase whose dependencies and criteria are as they
were, unless something it depends on, directly or not, has changed.
-/

namespace Orchestration.Plans

open Fallible

/-- A row of `plans`. -/
structure PlanRow where
  taskId : String
  goal : String
  taskCriteria : List Criterion
  draftedTs : ℕ
  replanCount : ℕ := 0
  completedTs : Option ℕ := none
deriving DecidableEq, Repr

/-- A row of `plan_phases`. -/
structure PlanPhaseRow where
  taskId : String
  phaseId : String
  ordinal : ℕ
  name : String
  owner : Option String
  deps : List String
  criteria : List Criterion
  status : PhaseStatus := .planned
  verifiedPass : Option Bool := none
  baselineSha : Option String := none
deriving DecidableEq, Repr

def PlanPhaseRow.key (row : PlanPhaseRow) : String × String := (row.taskId, row.phaseId)

structure PlansTables where
  plans : Table PlanRow.taskId := {}
  phases : Table PlanPhaseRow.key := {}

/-! ## Reads -/

def rowToPhaseRecord (row : PlanPhaseRow) : PhaseRecord where
  phaseId := row.phaseId
  name := row.name
  owner := row.owner
  deps := row.deps
  criteria := row.criteria
  status := row.status
  verifiedPass := row.verifiedPass
  baselineSha := row.baselineSha

/-- The phases of a plan, in the order of its graph. -/
def selectPhases (t : PlansTables) (taskId : String) : List PhaseRecord :=
  ((t.phases.rows.filter (·.taskId == taskId)).mergeSort fun a b =>
    a.ordinal < b.ordinal || a.ordinal == b.ordinal && a.phaseId ≤ b.phaseId).map rowToPhaseRecord

def selectPlan (t : PlansTables) (taskId : String) : Option PlanRecord := do
  let row ← t.plans.find? taskId
  return {
    taskId := row.taskId
    goal := row.goal
    taskCriteria := row.taskCriteria
    phases := selectPhases t taskId
    draftedTs := row.draftedTs
    replanCount := row.replanCount
    completedTs := row.completedTs }

/-- What a draft says of a phase. -/
def PhaseRecord.node (phase : PhaseRecord) : PhaseNode where
  phaseId := phase.phaseId
  name := phase.name
  owner := phase.owner
  deps := phase.deps
  criteria := phase.criteria

def sameDraft (existing : PlanRecord) (rec : PlanDrafted) : Bool :=
  existing.goal == rec.goal && existing.taskCriteria == rec.taskCriteria &&
    existing.phases.map PhaseRecord.node == rec.phases

/-! ## What a new plan keeps -/

/-- The phase was verified against the same dependencies and criteria. -/
def samePhaseVerificationContract (preserved : Option PhaseRecord) (phase : PhaseNode) : Bool :=
  preserved.any fun preserved => preserved.deps == phase.deps && preserved.criteria == phase.criteria

def preservedPhase (preserved : List PhaseRecord) (phaseId : String) : Option PhaseRecord :=
  preserved.find? (·.phaseId == phaseId)

/-- The phases that are new, were dropped, or have another contract. -/
def changedPhaseContracts (phases : List PhaseNode) (preserved : List PhaseRecord) : List String :=
  let changed := phases.filter fun phase =>
    !samePhaseVerificationContract (preservedPhase preserved phase.phaseId) phase
  let dropped := preserved.filter fun phase => !phases.any (·.phaseId == phase.phaseId)
  changed.map (·.phaseId) ++ dropped.map (·.phaseId)

/-- One pass over the phases: what depends on an affected phase is affected. -/
def expandAffected (phases : List PhaseNode) (affected : List String) : List String :=
  phases.foldl
    (fun affected phase =>
      if phase.phaseId ∈ affected then affected
      else if phase.deps.any (· ∈ affected) then affected ++ [phase.phaseId]
      else affected) affected

/-- A pass only adds phases that were not affected before. -/
theorem expandAffected_eq (phases : List PhaseNode) (affected : List String) :
    ∃ added, expandAffected phases affected = affected ++ added ∧
      ∀ phaseId ∈ added, phaseId ∉ affected ∧ ∃ phase ∈ phases, phase.phaseId = phaseId := by
  induction phases generalizing affected with
  | nil => exact ⟨[], by simp [expandAffected], by simp⟩
  | cons phase phases ih =>
    by_cases hadd : phase.phaseId ∉ affected ∧ phase.deps.any (· ∈ affected) = true
    · obtain ⟨added, heq, hadded⟩ := ih (affected ++ [phase.phaseId])
      refine ⟨phase.phaseId :: added, ?_, ?_⟩
      · rw [expandAffected, List.foldl_cons, if_neg hadd.1, if_pos hadd.2]
        exact heq.trans (by simp)
      · intro phaseId hmem
        rcases List.mem_cons.1 hmem with rfl | hmem
        · exact ⟨hadd.1, phase, List.mem_cons_self, rfl⟩
        · obtain ⟨hnot, other, hother, hid⟩ := hadded phaseId hmem
          exact ⟨fun hin => hnot (List.mem_append_left _ hin), other,
            List.mem_cons_of_mem _ hother, hid⟩
    · obtain ⟨added, heq, hadded⟩ := ih affected
      refine ⟨added, ?_, fun phaseId hmem => ?_⟩
      · rw [expandAffected, List.foldl_cons]
        split
        · exact heq
        · next hnot =>
          rw [if_neg fun hdep => hadd ⟨hnot, hdep⟩]
          exact heq
      · obtain ⟨hnot, other, hother, hid⟩ := hadded phaseId hmem
        exact ⟨hnot, other, List.mem_cons_of_mem _ hother, hid⟩

/-- A pass that adds something leaves fewer phases to add. -/
theorem countP_expandAffected_lt {phases : List PhaseNode} {affected : List String}
    (h : (expandAffected phases affected).length ≠ affected.length) :
    phases.countP (fun phase => !(expandAffected phases affected).contains phase.phaseId) <
      phases.countP fun phase => !affected.contains phase.phaseId := by
  obtain ⟨added, heq, hadded⟩ := expandAffected_eq phases affected
  rw [heq] at h ⊢
  cases added with
  | nil => simp at h
  | cons phaseId added =>
    obtain ⟨hnot, phase, hphase, rfl⟩ := hadded phaseId List.mem_cons_self
    refine Loop.countP_lt_countP (fun other hother => ?_) hphase (by simpa using hnot) (by simp)
    simp only [List.contains_append, Bool.not_or, Bool.and_eq_true] at hother
    exact hother.1

/-- Everything that depends on a changed phase, directly or not: repeat the pass until it adds
nothing. -/
def affectedPhaseContracts (phases : List PhaseNode) (changed : List String) : List String :=
  if (expandAffected phases changed).length = changed.length then changed
  else affectedPhaseContracts phases (expandAffected phases changed)
termination_by phases.countP fun phase => !changed.contains phase.phaseId
decreasing_by exact countP_expandAffected_lt ‹_›

/-! ## The fold -/

/-- Write the phases of a plan anew. -/
def upsertPhases (t : PlansTables) (taskId : String) (phases : List PhaseNode)
    (preserved : List PhaseRecord) : Except String PlansTables := do
  let affected := affectedPhaseContracts phases (changedPhaseContracts phases preserved)
  let rows ← phases.zipIdx.foldlM
    (fun (rows : Table PlanPhaseRow.key) (phase, ordinal) => do
      let old := preservedPhase preserved phase.phaseId
      let kept :=
        if phase.phaseId ∉ affected ∧ samePhaseVerificationContract old phase then old else none
      orThrow
        (rows.insert? {
          taskId
          phaseId := phase.phaseId
          ordinal
          name := phase.name
          owner := phase.owner
          deps := phase.deps
          criteria := phase.criteria
          status := (kept.map (·.status)).getD .planned
          verifiedPass := kept.bind (·.verifiedPass)
          baselineSha := kept.bind (·.baselineSha) })
        "UNIQUE constraint failed: plan_phases.task_id, plan_phases.phase_id")
    (t.phases.filter (·.taskId != taskId))
  return { t with phases := rows }

def assertPlanOpenForFold (eventType : String) (plan : PlanRecord) : Except String Unit :=
  refuse plan.completedTs.isSome
    (s!"plans: {eventType} for plan '{plan.taskId}' after task.completed — task.completed is " ++
      "terminal")

/-- The plan that an event of `eventType` is about. -/
def existingPlan (t : PlansTables) (eventType taskId : String) : Except String PlanRecord :=
  orThrow (selectPlan t taskId)
    s!"plans: {eventType} for unknown plan '{taskId}' — draft it first"

/-- Change one phase of an open plan. -/
def updatePhase (t : PlansTables) (eventType taskId phaseId : String)
    (update : Table.Update PlanPhaseRow.key) : Except String PlansTables := do
  let existing ← existingPlan t eventType taskId
  assertPlanOpenForFold eventType existing
  let _ ← orThrow (t.phases.find? (taskId, phaseId))
    s!"plans: {eventType} for unknown phaseId '{phaseId}' in plan '{taskId}'"
  return { t with
    phases := t.phases.updateWhere
      (fun row => row.taskId == taskId && row.phaseId == phaseId) update }

/-- The plan projector: fold one decoded plan event into its tables. -/
def PlansProjector.apply (t : PlansTables) (event : StoredEvent PlanEvent) :
    Except String PlansTables := do
  match event.payload with
  | .drafted rec =>
    match selectPlan t rec.taskId with
    | some existing =>
      refuse (!sameDraft existing rec)
        (s!"plans: plan '{rec.taskId}' already exists with different content — refusing " ++
          "conflicting re-draft")
      assertPlanOpenForFold "plan.drafted" existing
      return t
    | none =>
      let plans ← orThrow
        (t.plans.insert? {
          taskId := rec.taskId
          goal := rec.goal
          taskCriteria := rec.taskCriteria
          draftedTs := event.ts })
        "UNIQUE constraint failed: plans.task_id"
      upsertPhases { t with plans } rec.taskId rec.phases []
  | .statusChanged rec =>
    updatePhase t "phase.status.changed" rec.taskId rec.phaseId
      { run := fun row => { row with status := rec.status } }
  | .verified rec =>
    updatePhase t "phase.verified" rec.taskId rec.phaseId
      { run := fun row =>
          { row with verifiedPass := some rec.pass, baselineSha := some rec.baselineSha } }
  | .replanned rec =>
    let existing ← existingPlan t "plan.replanned" rec.taskId
    assertPlanOpenForFold "plan.replanned" existing
    let plans := t.plans.updateWhere (·.taskId == rec.taskId)
      { run := fun row => { row with replanCount := row.replanCount + 1 } }
    upsertPhases { t with plans } rec.taskId rec.phases existing.phases
  | .completed taskId =>
    let existing ← existingPlan t "task.completed" taskId
    if existing.completedTs.isSome then return t
    else
      assertPlanReadyToComplete "plans" existing
      return { t with
        plans := t.plans.updateWhere (·.taskId == taskId)
          { run := fun row => { row with completedTs := some event.ts } } }

end Orchestration.Plans
