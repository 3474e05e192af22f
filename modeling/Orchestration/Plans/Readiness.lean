import Orchestration.Issues.FileTool
import Orchestration.Plans.ChildCap
import Orchestration.Roles.Subtree

/-!
# Phase readiness

A phase is ready when the branch of every worker of its owner is merged and the phase itself was
verified green. A branch counts as merged when a `PASS` is recorded for it and the branch of the
owner. Reviewers are not counted, and what a worker is doing does not matter.
-/

namespace Orchestration.Plans

open Fallible
open Issues (assertToolCallerRole)
open Roles (Role)

structure PhaseWorkerInput where
  workerId : String
  role : Role
  branchMerged : Bool
deriving DecidableEq, Repr

structure PhaseReadinessInput where
  phaseId : String
  workers : List PhaseWorkerInput
  verifiedPass : Option Bool
deriving DecidableEq, Repr

structure PhaseReadiness where
  phaseId : String
  ready : Bool
  reasonsNotReady : List String
deriving DecidableEq, Repr

structure TaskReadiness where
  ready : Bool
  phases : List PhaseReadiness
deriving DecidableEq, Repr

/-! ## The folds -/

/-- Why a worker keeps the phase from being ready; a reviewer never does. -/
def workerReason (worker : PhaseWorkerInput) : Option String :=
  if worker.role = .reviewer then none
  else if worker.branchMerged then none
  else some s!"worker {worker.workerId} branch not merged"

def foldPhaseReadiness (input : PhaseReadinessInput) : PhaseReadiness :=
  let reasonsNotReady := input.workers.filterMap workerReason ++
    if input.verifiedPass ≠ some true then ["phase not verified (no green phase.verified)"] else []
  { phaseId := input.phaseId, ready := reasonsNotReady.length == 0, reasonsNotReady }

/-- A task without phases is never ready. -/
def foldTaskReadiness (phases : List PhaseReadinessInput) : TaskReadiness :=
  let phaseResults := phases.map foldPhaseReadiness
  { ready := decide (phaseResults.length > 0) && phaseResults.all (·.ready)
    phases := phaseResults }

/-! ## The tool -/

/-- What the mount gives the tool. -/
structure PhaseStatusContext where
  agent : String
  plans : Bool := true
  roster : Bool := true
  reviews : Bool := true
  worktrees : Bool := true

structure PhaseStatusRow where
  phaseId : String
  status : Option PhaseStatus
  ready : Bool
  reasonsNotReady : List String
deriving DecidableEq, Repr

structure PhaseStatusOutput where
  taskId : String
  ready : Bool
  phases : List PhaseStatusRow
deriving DecidableEq, Repr

/-- The children of the owner of a phase, each with whether its branch is merged into the
owner's. -/
def phaseWorkers (db : Db) (phase : PhaseRecord) : List PhaseWorkerInput :=
  match phase.owner with
  | none => []
  | some owner =>
    let ownerBranch := resolveAgentBranch db.worktrees owner
    ((Roles.selectAllAgents db.roster).filter (·.parent == owner)).map fun a =>
      { workerId := a.agentId
        role := a.role
        branchMerged := branchMerged db.review ownerBranch
          (resolveAgentBranch db.worktrees a.agentId) }

def phaseInput (db : Db) (phase : PhaseRecord) : PhaseReadinessInput where
  phaseId := phase.phaseId
  workers := phaseWorkers db phase
  verifiedPass := phase.verifiedPass

def phaseStatusOutput (db : Db) (taskId : String) (plan : PlanRecord) : PhaseStatusOutput :=
  let task := foldTaskReadiness (plan.phases.map (phaseInput db))
  { taskId
    ready := task.ready
    phases := task.phases.map fun p =>
      { phaseId := p.phaseId
        status := (plan.phases.reverse.find? (·.phaseId == p.phaseId)).map (·.status)
        ready := p.ready
        reasonsNotReady := p.reasonsNotReady } }

def phaseStatusTool (ctx : PhaseStatusContext) (taskId : String) (db : Db) :
    Except String PhaseStatusOutput := do
  refuse (ctx.plans = false)
    "co_phase_status: the mount did not inject a plan store (ctx.plans absent)."
  refuse (ctx.roster = false)
    "co_phase_status: the mount did not inject a roster store (ctx.roster absent)."
  refuse (ctx.reviews = false)
    "co_phase_status: the mount did not inject a review store (ctx.reviews absent)."
  refuse (ctx.worktrees = false)
    "co_phase_status: the mount did not inject a worktree store (ctx.worktrees absent)."
  assertToolCallerRole "co_phase_status" db.roster ctx.agent [.coordinator, .lead]
  let plan ← orThrow (selectPlan db.plans taskId)
    s!"co_phase_status: no plan recorded for task '{taskId}'."
  return phaseStatusOutput db taskId plan

/-! ## When a phase is ready -/

section

variable {db : Db}

theorem foldPhaseReadiness_ready_iff {input : PhaseReadinessInput} :
    (foldPhaseReadiness input).ready = true ↔
      (∀ worker ∈ input.workers, worker.role ≠ .reviewer → worker.branchMerged = true) ∧
        input.verifiedPass = some true := by
  have hreason : ∀ worker, workerReason worker = none ↔
      (worker.role ≠ .reviewer → worker.branchMerged = true) := by
    intro worker
    rw [workerReason]
    by_cases hrole : worker.role = .reviewer <;> cases worker.branchMerged <;> simp [hrole]
  rw [foldPhaseReadiness, beq_iff_eq, List.length_eq_zero_iff, List.append_eq_nil_iff,
    List.filterMap_eq_nil_iff]
  refine and_congr (forall₂_congr fun worker _ => hreason worker) ?_
  by_cases hverified : input.verifiedPass = some true <;> simp [hverified]

/-- The workers of a phase are the children of its owner. -/
theorem forall_phaseWorkers {phase : PhaseRecord} {P : PhaseWorkerInput → Prop} :
    (∀ worker ∈ phaseWorkers db phase, P worker) ↔
      ∀ owner, phase.owner = some owner → ∀ child ∈ db.roster.roster.rows, child.parent = owner →
        P ⟨child.agentId, child.role,
          branchMerged db.review (resolveAgentBranch db.worktrees owner)
            (resolveAgentBranch db.worktrees child.agentId)⟩ := by
  rw [phaseWorkers]
  cases phase.owner with
  | none => simp
  | some owner =>
    simp only [List.forall_mem_map, List.mem_filter, beq_iff_eq, Roles.mem_selectAllAgents,
      Option.some.injEq, forall_eq', and_imp]

/-- A phase is ready when every child of its owner but the reviewers is merged, and the phase is
verified. -/
theorem phase_ready_iff {phase : PhaseRecord} :
    (foldPhaseReadiness (phaseInput db phase)).ready = true ↔
      (∀ owner, phase.owner = some owner → ∀ child ∈ db.roster.roster.rows, child.parent = owner →
        child.role ≠ .reviewer → branchMerged db.review (resolveAgentBranch db.worktrees owner)
          (resolveAgentBranch db.worktrees child.agentId) = true) ∧
        phase.verifiedPass = some true := by
  rw [foldPhaseReadiness_ready_iff]
  exact and_congr_left fun _ => forall_phaseWorkers

/-- What is reported are the phases of the plan, each with its readiness. -/
theorem mem_phaseStatusOutput {taskId : String} {plan : PlanRecord} {row : PhaseStatusRow} :
    row ∈ (phaseStatusOutput db taskId plan).phases → ∃ phase ∈ plan.phases,
      phase.phaseId = row.phaseId ∧
        row.ready = (foldPhaseReadiness (phaseInput db phase)).ready := by
  intro hrow
  obtain ⟨result, hresult, rfl⟩ := List.mem_map.1 hrow
  rw [foldTaskReadiness, List.map_map] at hresult
  obtain ⟨phase, hphase, rfl⟩ := List.mem_map.1 hresult
  exact ⟨phase, hphase, rfl, rfl⟩

theorem exists_mem_phaseStatusOutput {taskId : String} {plan : PlanRecord} {phase : PhaseRecord}
    (hphase : phase ∈ plan.phases) : ∃ row ∈ (phaseStatusOutput db taskId plan).phases,
      row.phaseId = phase.phaseId ∧
        row.ready = (foldPhaseReadiness (phaseInput db phase)).ready :=
  ⟨_, List.mem_map_of_mem (List.mem_map_of_mem (List.mem_map_of_mem hphase)), rfl, rfl⟩

theorem phaseStatusTool_eq_ok {ctx : PhaseStatusContext} {taskId : String}
    {out : PhaseStatusOutput} (h : phaseStatusTool ctx taskId db = .ok out) :
    ∃ plan, selectPlan db.plans taskId = some plan ∧ out = phaseStatusOutput db taskId plan := by
  simp only [phaseStatusTool, bind_eq_ok, orThrow_eq_ok, pure_eq_ok] at h
  obtain ⟨_, -, _, -, _, -, _, -, _, -, plan, hplan, rfl⟩ := h
  exact ⟨plan, hplan, rfl⟩

/-- With everything mounted, a coordinator or a lead gets the report of a recorded plan. -/
theorem phaseStatusTool_of_plan {agent taskId : String} {plan : PlanRecord}
    (hrole : assertToolCallerRole "co_phase_status" db.roster agent [.coordinator, .lead] = .ok ())
    (hplan : selectPlan db.plans taskId = some plan) :
    phaseStatusTool { agent } taskId db = .ok (phaseStatusOutput db taskId plan) := by
  simp only [phaseStatusTool, hrole, hplan]
  rfl

end

end Orchestration.Plans
