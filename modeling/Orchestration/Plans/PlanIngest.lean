import Orchestration.Issues.FileTool
import Orchestration.Library.CycleSearch
import Orchestration.Plans.Criteria
import Orchestration.Plans.Replanning

/-!
# `co_plan_ingest`

A coordinator ingests the plan of a locked spec. The phases must be a graph without cycles, and
every criterion must have a command wired to it.
-/

namespace Orchestration.Plans

open Fallible Transaction
open Issues (assertToolCallerRole)

inductive SpecState where
  | draft
  | locked
  | archived
deriving DecidableEq, Repr

/-- What an ingestion reads of a spec. -/
structure SpecRecord where
  state : SpecState
  criteria : List Criterion
deriving DecidableEq, Repr

/-- What the mount gives the tool; the specs by their task, where a spec store is wired. -/
structure PlanIngestContext where
  agent : String
  plans : Bool := true
  specs : Option (String → Option SpecRecord)
  roster : Bool := true

structure PlanIngestInput where
  taskId : String
  goal : String
  taskCriteria : List Criterion
  phases : List PhaseNode
deriving DecidableEq, Repr

/-! ## The graph -/

/-- Note what a phase depends on. -/
def setDeps (list : String → Option (List String)) (p : PhaseNode) :
    String → Option (List String) :=
  Function.update list p.phaseId (some p.deps)

/-- What each phase depends on; a later phase of the same id would win. -/
def adjList (phases : List PhaseNode) (phaseId : String) : List String :=
  (phases.foldl setDeps (fun _ => none) phaseId).getD []

/-- The description of a cycle of the graph, if it has one. -/
def detectCycle (phases : List PhaseNode) : Option String :=
  (CycleSearch.findCycle (adjList phases) (phases.map (·.phaseId))).map (" → ".intercalate ·)

/-- The id of a phase must be new. -/
def addPhaseId (taskId : String) (phaseIds : List String) (phase : PhaseNode) :
    Except String (List String) := do
  refuse (phase.phaseId ∈ phaseIds)
    s!"co_plan_ingest: duplicate phase_id '{phase.phaseId}' in plan '{taskId}'"
  return phaseIds ++ [phase.phaseId]

def collectPhaseIds (taskId : String) (phases : List PhaseNode) : Except String (List String) :=
  phases.foldlM (addPhaseId taskId) []

def assertDepsDeclared (taskId : String) (phaseIds : List String) (phases : List PhaseNode) :
    Except String Unit :=
  phases.forM fun phase =>
    phase.deps.forM fun dep =>
      refuse (dep ∉ phaseIds)
        (s!"co_plan_ingest: dangling dep '{dep}' in phase '{phase.phaseId}' of plan " ++
          s!"'{taskId}' — every dep must reference a declared phase_id")

def assertAcyclic (taskId : String) (phases : List PhaseNode) : Except String Unit :=
  whenSome (detectCycle phases) fun cycle =>
    throw s!"co_plan_ingest: cycle detected in phase DAG of plan '{taskId}': {cycle}"

/-! ## The criteria -/

def enumerateViolations (violations : List CriterionViolation) : String :=
  "\n".intercalate <| violations.map fun v =>
    s!"    - criterion {v.index} (\"{v.text}\"): {v.reason}"

/-- The parts of the refusal: one for the task, and one for each phase with a violation. -/
def violationParts (input : PlanIngestInput) : List String :=
  let part (title : String) (criteria : List Criterion) : List String :=
    let violations := validateCriteria criteria
    if violations.length > 0 then
      [s!"  {title} ({violations.length} violation(s)):\n{enumerateViolations violations}"]
    else []
  part "task_criteria" input.taskCriteria ++
    input.phases.flatMap fun phase => part s!"phase '{phase.phaseId}'" phase.criteria

/-! ## The tool -/

/-- The spec of the task, which must be locked. -/
def lockedSpec (taskId : String) (spec : Option SpecRecord) : Except String SpecRecord := do
  let noLockedSpec :=
    s!"co_plan_ingest: refusing to ingest plan '{taskId}' — no locked spec record exists " ++
      "for this task."
  let spec ← orThrow spec noLockedSpec
  refuse (spec.state ≠ .locked) noLockedSpec
  return spec

def planIngestChecks (ctx : PlanIngestContext) (input : PlanIngestInput)
    (roster : Roles.RosterTables) : Except String Unit := do
  refuse (ctx.plans = false)
    "co_plan_ingest: the mount did not inject a plan store (ctx.plans absent)."
  let specs ← orThrow ctx.specs
    "co_plan_ingest: the mount did not inject a spec store (ctx.specs absent)."
  refuse (ctx.roster = false)
    "co_plan_ingest: the mount did not inject a roster store (ctx.roster absent)."
  assertToolCallerRole "co_plan_ingest" roster ctx.agent [.coordinator]
  let spec ← lockedSpec input.taskId (specs input.taskId)
  refuse (input.taskCriteria ≠ spec.criteria)
    (s!"co_plan_ingest: refusing to ingest plan '{input.taskId}' — task_criteria must exactly " ++
      "match the locked spec criteria.")
  refuse (input.phases = [])
    (s!"co_plan_ingest: refusing to ingest plan '{input.taskId}' — at least one phase is " ++
      "required.")
  let phaseIds ← collectPhaseIds input.taskId input.phases
  assertDepsDeclared input.taskId phaseIds input.phases
  assertAcyclic input.taskId input.phases
  let parts := violationParts input
  refuse (parts ≠ [])
    (s!"co_plan_ingest: refusing to ingest plan '{input.taskId}' — criterion violations found:\n" ++
      "\n".intercalate parts)

/-- The draft that an accepted call records. -/
def PlanIngestInput.draft (input : PlanIngestInput) : PlanDrafted where
  taskId := input.taskId
  goal := input.goal
  taskCriteria := input.taskCriteria
  phases := input.phases

def planIngestTool (ctx : PlanIngestContext) (input : PlanIngestInput) : StoreProc PlanRecord := do
  let db ← transaction get
  planIngestChecks ctx input db.roster
  transaction (recordDraft input.draft ctx.agent)

/-! ## What is accepted -/

/-- The texts that the schema of the tool asks for are there. -/
structure PlanIngestInput.Parsed (input : PlanIngestInput) : Prop where
  taskId : input.taskId ≠ ""
  goal : input.goal ≠ ""
  taskCriteria : ∀ criterion ∈ input.taskCriteria, criterion.text ≠ ""
  phases : ∀ phase ∈ input.phases, phase.phaseId ≠ "" ∧ phase.name ≠ "" ∧
    ∀ criterion ∈ phase.criteria, criterion.text ≠ ""

/-- A call of a coordinator, with every store mounted. -/
structure CoordinatorCall (ctx : PlanIngestContext) (specs : String → Option SpecRecord)
    (agents : Roles.RosterTables) : Prop where
  plans : ctx.plans = true
  specs : ctx.specs = some specs
  roster : ctx.roster = true
  role : ∃ record, Roles.selectAgent agents ctx.agent = some record ∧ record.role = .coordinator

/-- There is an order of the phases in which every dependency comes before its phase. -/
def Orderable (phases : List PhaseNode) : Prop :=
  ∃ order : List PhaseNode, order.Perm phases ∧
    ∀ before phase later, order = before ++ phase :: later →
      ∀ dep ∈ phase.deps, ∃ p ∈ before, p.phaseId = dep

/-- A well-formed plan of a spec. -/
structure WellFormed (spec : SpecRecord) (input : PlanIngestInput) : Prop where
  nonempty : input.phases ≠ []
  distinct : (input.phases.map (·.phaseId)).Nodup
  declared : ∀ phase ∈ input.phases, ∀ dep ∈ phase.deps, ∃ p ∈ input.phases, p.phaseId = dep
  orderable : Orderable input.phases
  matchesSpec : input.taskCriteria = spec.criteria
  taskCriteria : Checkable input.taskCriteria
  phaseCriteria : ∀ phase ∈ input.phases, Checkable phase.criteria

section

variable {ctx : PlanIngestContext} {input : PlanIngestInput} {db db' : Db} {spec : SpecRecord}
  {specs : String → Option SpecRecord} {phases : List PhaseNode}

theorem addPhaseId_eq_ok {taskId : String} {seen phaseIds : List String} {phase : PhaseNode} :
    addPhaseId taskId seen phase = .ok phaseIds ↔
      phase.phaseId ∉ seen ∧ phaseIds = seen ++ [phase.phaseId] := by
  rw [addPhaseId, bind_eq_ok]
  constructor
  · rintro ⟨_, hrefuse, hpure⟩
    exact ⟨refuse_eq_ok.1 hrefuse, (pure_eq_ok.1 hpure).symm⟩
  · rintro ⟨hnew, rfl⟩
    exact ⟨(), refuse_eq_ok.2 hnew, rfl⟩

/-- The ids are collected exactly where they are pairwise distinct. -/
theorem collectPhaseIds_eq_ok {taskId : String} {phaseIds : List String} :
    collectPhaseIds taskId phases = .ok phaseIds ↔
      phaseIds = phases.map (·.phaseId) ∧ (phases.map (·.phaseId)).Nodup := by
  have hfold : ∀ seen : List String, seen.Nodup →
      (phases.foldlM (addPhaseId taskId) seen = .ok phaseIds ↔
        phaseIds = seen ++ phases.map (·.phaseId) ∧ (seen ++ phases.map (·.phaseId)).Nodup) := by
    induction phases with
    | nil =>
      intro seen hseen
      rw [List.foldlM_nil, pure_eq_ok, List.map_nil, List.append_nil, and_iff_left hseen, eq_comm]
    | cons phase phases ih =>
      intro seen hseen
      rw [List.foldlM_cons, bind_eq_ok]
      constructor
      · rintro ⟨_, hadd, hrest⟩
        obtain ⟨hnew, rfl⟩ := addPhaseId_eq_ok.1 hadd
        have hnext : (seen ++ [phase.phaseId]).Nodup := by
          rw [← List.concat_eq_append]
          exact hseen.concat hnew
        simpa using (ih _ hnext).1 hrest
      · rintro ⟨hids, hnodup⟩
        have hsplit : seen ++ (phase :: phases).map (·.phaseId) =
            (seen ++ [phase.phaseId]) ++ phases.map (·.phaseId) := by simp
        rw [hsplit] at hids hnodup
        have hnext := (List.nodup_append.1 hnodup).1
        refine ⟨_, addPhaseId_eq_ok.2 ⟨fun hmem => ?_, rfl⟩, (ih _ hnext).2 ⟨hids, hnodup⟩⟩
        exact (List.nodup_append.1 hnext).2.2 _ hmem _ List.mem_cons_self rfl
  exact hfold [] List.nodup_nil

theorem assertDepsDeclared_eq_ok {taskId : String} {u : Unit} :
    assertDepsDeclared taskId (phases.map (·.phaseId)) phases = .ok u ↔
      ∀ phase ∈ phases, ∀ dep ∈ phase.deps, ∃ p ∈ phases, p.phaseId = dep := by
  simp only [assertDepsDeclared, forM_eq_ok, refuse_eq_ok, not_not, List.mem_map]

/-! ### The graph -/

theorem foldl_setDeps_of_notMem {list : String → Option (List String)} {phaseId : String}
    (h : phaseId ∉ phases.map (·.phaseId)) :
    phases.foldl setDeps list phaseId = list phaseId := by
  induction phases generalizing list with
  | nil => rfl
  | cons p phases ih =>
    rw [List.map_cons, List.mem_cons, not_or] at h
    rw [List.foldl_cons, ih h.2, setDeps, Function.update_of_ne h.1]

theorem adjList_eq (hdistinct : (phases.map (·.phaseId)).Nodup) {phase : PhaseNode}
    (hphase : phase ∈ phases) : adjList phases phase.phaseId = phase.deps := by
  obtain ⟨before, later, rfl⟩ := List.append_of_mem hphase
  rw [List.map_append, List.map_cons, List.nodup_append, List.nodup_cons] at hdistinct
  rw [adjList, List.foldl_append, List.foldl_cons, foldl_setDeps_of_notMem hdistinct.2.1.1,
    setDeps, Function.update_self]
  rfl

/-- A permutation of what a function makes of a list comes from one of the list. -/
theorem exists_perm_map_eq {α β : Type} {f : α → β} {ys : List β} {xs : List α}
    (h : ys.Perm (xs.map f)) : ∃ order : List α, order.Perm xs ∧ order.map f = ys := by
  induction ys generalizing xs with
  | nil =>
    obtain rfl := List.map_eq_nil_iff.1 (List.nil_perm.1 h)
    exact ⟨[], .refl _, rfl⟩
  | cons y ys ih =>
    obtain ⟨x, hx, rfl⟩ := List.mem_map.1 (h.mem_iff.1 List.mem_cons_self)
    obtain ⟨before, later, rfl⟩ := List.append_of_mem hx
    have hrest : ys.Perm ((before ++ later).map f) := by
      rw [List.map_append, List.map_cons] at h
      rw [List.map_append]
      exact List.Perm.cons_inv (h.trans List.perm_middle)
    obtain ⟨order, hperm, hmap⟩ := ih hrest
    exact ⟨x :: order, (hperm.cons x).trans List.perm_middle.symm, by rw [List.map_cons, hmap]⟩

/-- Putting the phases in order is putting their ids in order. -/
theorem orderable_iff (hdistinct : (phases.map (·.phaseId)).Nodup) :
    Orderable phases ↔ ∃ order : List String, order.Perm (phases.map (·.phaseId)) ∧
      CycleSearch.Topological (adjList phases) order := by
  constructor
  · rintro ⟨order, hperm, horder⟩
    refine ⟨order.map (·.phaseId), hperm.map _, fun before x later heq d hd => ?_⟩
    obtain ⟨before', rest, rfl, rfl, hrest⟩ := List.map_eq_append_iff.1 heq
    obtain ⟨phase, later', rfl, rfl, -⟩ := List.map_eq_cons_iff.1 hrest
    have hphase : phase ∈ phases := hperm.mem_iff.1 (by simp)
    rw [adjList_eq hdistinct hphase] at hd
    obtain ⟨p, hp, hid⟩ := horder before' phase later' rfl d hd
    exact List.mem_map.2 ⟨p, hp, hid⟩
  · rintro ⟨ids, hperm, htop⟩
    obtain ⟨order, horder, rfl⟩ := exists_perm_map_eq hperm
    refine ⟨order, horder, fun before phase later heq dep hdep => ?_⟩
    have hphase : phase ∈ phases := horder.mem_iff.1 (by simp [heq])
    have hbefore := htop (before.map (·.phaseId)) phase.phaseId (later.map (·.phaseId))
      (by rw [heq, List.map_append, List.map_cons]) dep ((adjList_eq hdistinct hphase).symm ▸ hdep)
    exact List.mem_map.1 hbefore

theorem detectCycle_eq_none_iff (hdistinct : (phases.map (·.phaseId)).Nodup)
    (hdeclared : ∀ phase ∈ phases, ∀ dep ∈ phase.deps, ∃ p ∈ phases, p.phaseId = dep) :
    detectCycle phases = none ↔ Orderable phases := by
  rw [detectCycle, Option.map_eq_none_iff, orderable_iff hdistinct]
  refine CycleSearch.findCycle_eq_none_iff hdistinct fun x hx d hd => ?_
  obtain ⟨phase, hphase, rfl⟩ := List.mem_map.1 hx
  rw [adjList_eq hdistinct hphase] at hd
  exact List.mem_map.2 (hdeclared phase hphase d hd)

theorem assertAcyclic_eq_ok {taskId : String} (hdistinct : (phases.map (·.phaseId)).Nodup)
    (hdeclared : ∀ phase ∈ phases, ∀ dep ∈ phase.deps, ∃ p ∈ phases, p.phaseId = dep) :
    assertAcyclic taskId phases = .ok () ↔ Orderable phases := by
  rw [← detectCycle_eq_none_iff hdistinct hdeclared, assertAcyclic]
  cases detectCycle phases <;> simp

/-! ### The checks -/

theorem violationParts_eq_nil : violationParts input = [] ↔
    Checkable input.taskCriteria ∧ ∀ phase ∈ input.phases, Checkable phase.criteria := by
  have hpart : ∀ (title : String) (criteria : List Criterion),
      (if (validateCriteria criteria).length > 0 then [title] else []) = [] ↔
        Checkable criteria := by
    intro title criteria
    rw [← validateCriteria_eq_nil]
    cases validateCriteria criteria <;> simp
  simp only [violationParts, List.append_eq_nil_iff, List.flatMap_eq_nil_iff, hpart]

theorem assertToolCallerRole_of_role (tool : String) {agent : String} {roster : Roles.RosterTables}
    {role : Roles.Role} (h : ∃ record, Roles.selectAgent roster agent = some record ∧
      record.role = role) : assertToolCallerRole tool roster agent [role] = .ok () := by
  obtain ⟨record, hrecord, hrole⟩ := h
  refine bind_eq_ok.2 ⟨record, orThrow_eq_ok.2 hrecord, refuse_eq_ok.2 ?_⟩
  rw [hrole]
  simp

/-- A coordinator's call for a locked spec passes the checks exactly with a well-formed plan. -/
theorem planIngestChecks_eq_ok {roster : Roles.RosterTables}
    (hcall : CoordinatorCall ctx specs roster) (hspec : specs input.taskId = some spec)
    (hlocked : spec.state = .locked) :
    planIngestChecks ctx input roster = .ok () ↔ WellFormed spec input := by
  have hlockedSpec : ∀ found, lockedSpec input.taskId (specs input.taskId) = .ok found ↔
      found = spec := by
    intro found
    rw [hspec]
    simp only [lockedSpec, bind_eq_ok, orThrow_eq_ok, refuse_eq_ok, pure_eq_ok]
    constructor
    · rintro ⟨other, hother, _, -, rfl⟩
      exact (Option.some.inj hother).symm
    · rintro rfl
      exact ⟨found, rfl, (), not_not.2 hlocked, rfl⟩
  have hrole := assertToolCallerRole_of_role "co_plan_ingest" hcall.role
  simp only [planIngestChecks, bind_eq_ok, refuse_eq_ok, orThrow_eq_ok, not_not]
  constructor
  · rintro ⟨_, -, _, hspecs, _, -, _, -, found, hfound, _, hmatch, _, hnonempty, phaseIds, hids, _,
      hdeps, _, hacyclic, hparts⟩
    obtain rfl := Option.some.inj (hspecs.symm.trans hcall.specs)
    obtain rfl := (hlockedSpec found).1 hfound
    obtain ⟨rfl, hdistinct⟩ := collectPhaseIds_eq_ok.1 hids
    have hdeclared := assertDepsDeclared_eq_ok.1 hdeps
    obtain ⟨htask, hphases⟩ := violationParts_eq_nil.1 hparts
    exact ⟨hnonempty, hdistinct, hdeclared,
      (assertAcyclic_eq_ok hdistinct hdeclared).1 hacyclic, hmatch, htask, hphases⟩
  · intro h
    exact ⟨(), by simp [hcall.plans], specs, hcall.specs, (), by simp [hcall.roster], (), hrole,
      spec, (hlockedSpec spec).2 rfl, (), h.matchesSpec, (), h.nonempty, _,
      collectPhaseIds_eq_ok.2 ⟨rfl, h.distinct⟩,
      (), assertDepsDeclared_eq_ok.2 h.declared, (),
      (assertAcyclic_eq_ok h.distinct h.declared).2 h.orderable,
      violationParts_eq_nil.2 ⟨h.taskCriteria, h.phaseCriteria⟩⟩

/-! ### The record -/

/-- Rows with new and distinct keys can be inserted one after the other. -/
theorem exists_inserts {ρ κ α : Type} [DecidableEq κ] {key : ρ → κ} (msg : String)
    (f : α → ρ) {entries : List α} {t : Table key}
    (hdistinct : (entries.map fun a => key (f a)).Nodup)
    (hfresh : ∀ a ∈ entries, t.find? (key (f a)) = none) :
    ∃ t', entries.foldlM (fun t a => orThrow (t.insert? (f a)) msg) t = .ok t' := by
  induction entries generalizing t with
  | nil => exact ⟨t, rfl⟩
  | cons a entries ih =>
    rw [List.map_cons, List.nodup_cons] at hdistinct
    obtain ⟨mid, hmid⟩ := Table.exists_insert? (hfresh a List.mem_cons_self)
    have hrest : ∀ b ∈ entries, mid.find? (key (f b)) = none := by
      intro b hb
      rw [Table.find?_insert? hmid, if_neg, hfresh b (List.mem_cons_of_mem _ hb)]
      intro hsame
      exact hdistinct.1 (List.mem_map.2 ⟨b, hb, hsame⟩)
    obtain ⟨t', ht'⟩ := ih hdistinct.2 hrest
    rw [List.foldlM_cons]
    exact ⟨t', bind_eq_ok.2 ⟨mid, orThrow_eq_ok.2 hmid, ht'⟩⟩

/-- Phases with distinct ids can be written. -/
theorem exists_upsertPhases (t : PlansTables) (taskId : String) (preserved : List PhaseRecord)
    (hdistinct : (phases.map (·.phaseId)).Nodup) :
    ∃ t', upsertPhases t taskId phases preserved = .ok t' := by
  have hkeys : (phases.zipIdx.map fun entry => (taskId, entry.1.phaseId)).Nodup := by
    rw [← List.zipIdx_map_fst 0 phases, List.map_map, List.Nodup, List.pairwise_map] at hdistinct
    rw [List.Nodup, List.pairwise_map]
    exact hdistinct.imp fun hid hkey => hid (Prod.mk.inj hkey).2
  have hfresh : ∀ entry ∈ phases.zipIdx,
      (t.phases.filter (·.taskId != taskId)).find? (taskId, entry.1.phaseId) = none := by
    intro entry _
    rw [Table.find?_eq_none]
    intro row hrow hkey
    have htask : row.taskId = taskId := (Prod.mk.inj hkey).1
    simpa [htask] using (Table.mem_filter.1 hrow).2
  obtain ⟨rows, hrows⟩ := exists_inserts
    "UNIQUE constraint failed: plan_phases.task_id, plan_phases.phase_id"
    (writtenRow taskId preserved
      (affectedPhaseContracts phases (changedPhaseContracts phases preserved))) hkeys hfresh
  exact ⟨_, bind_eq_ok.2 ⟨rows, hrows, rfl⟩⟩

/-- The row of a drafted plan. -/
def draftedRow (rec : PlanDrafted) (ts : ℕ) : PlanRow where
  taskId := rec.taskId
  goal := rec.goal
  taskCriteria := rec.taskCriteria
  draftedTs := ts

/-- A draft of a new task is folded, and read back with its phases in their order. -/
theorem apply_drafted {t : PlansTables} (event : StoredEvent PlanEvent) {rec : PlanDrafted}
    (hpayload : event.payload = .drafted rec) (hnew : selectPlan t rec.taskId = none)
    (hdistinct : (rec.phases.map (·.phaseId)).Nodup) :
    ∃ t' plan, PlansProjector.apply t event = .ok t' ∧ selectPlan t' rec.taskId = some plan ∧
      plan.phases.map PhaseRecord.node = rec.phases := by
  have hfree : t.plans.find? rec.taskId = none := by
    cases hfind : t.plans.find? rec.taskId with
    | none => rfl
    | some row =>
      rw [selectPlan, hfind] at hnew
      cases hnew
  obtain ⟨plans, hplans⟩ : ∃ plans, t.plans.insert? (draftedRow rec event.ts) = some plans :=
    Table.exists_insert? hfree
  obtain ⟨t', ht'⟩ := exists_upsertPhases { t with plans } rec.taskId [] hdistinct
  have happly : PlansProjector.apply t event = .ok t' := by
    rw [PlansProjector.apply, hpayload]
    simp only [hnew]
    exact bind_eq_ok.2 ⟨plans, orThrow_eq_ok.2 hplans, ht'⟩
  have hrow : t'.plans.find? rec.taskId = some (draftedRow rec event.ts) := by
    obtain ⟨rows, -, hrows⟩ := bind_eq_ok.1 ht'
    rw [← pure_eq_ok.1 hrows]
    exact (Table.find?_insert? hplans).trans (if_pos rfl)
  have hread : selectPlan t' rec.taskId = some {
      taskId := rec.taskId
      goal := rec.goal
      taskCriteria := rec.taskCriteria
      phases := selectPhases t' rec.taskId
      draftedTs := event.ts
      replanCount := 0
      completedTs := none } := by
    rw [selectPlan, hrow]
    rfl
  refine ⟨t', _, happly, hread, ?_⟩
  rw [selectPhases_of_upsertPhases ht', List.map_map]
  exact List.zipIdx_map_fst 0 rec.phases

/-- A plan event that the schema and the fold accept can be appended while the log has room. -/
theorem commit_plan (hroom : db.nextSeq ≤ Js.maxSafeInteger) {e : NewEvent PlanEvent}
    {tables : PlansTables} (hv : e.v = 1) (hschema : plansSchemas e.payload = .ok e.payload)
    (happly : PlansProjector.apply db.plans
      ((db.stored (toProject e)).withPayload e.payload) = .ok tables) :
    ∃ db', db.commit (toProject e) = .ok db' ∧ db'.plans = tables := by
  have hdecode : decode (db.stored (toProject e)) = .ok (db.stored (toProject e)) := by
    refine bind_eq_ok.2 ⟨_, upcast_eq_ok.2 ⟨Nat.le_of_eq hv, rfl⟩, ?_⟩
    exact bind_eq_ok.2 ⟨_, bind_eq_ok.2 ⟨_, hschema, rfl⟩, rfl⟩
  have hfold : foldEvent db.toProjections (db.stored (toProject e)) =
      .ok { db.toProjections with plans := tables } := by
    refine bind_eq_ok.2 ⟨_, hdecode, ?_⟩
    exact bind_eq_ok.2 ⟨tables, happly, rfl⟩
  exact ⟨_, commit_eq_ok.2 ⟨hroom, _, hfold, rfl⟩, rfl⟩

/-- The texts that the tool's schema asks for are all that the event's schema asks for. -/
theorem plansSchemas_draft (hparsed : input.Parsed) :
    plansSchemas (.drafted input.draft) = .ok (.drafted input.draft) := by
  have hcriteria : ∀ criteria : List Criterion, (∀ criterion ∈ criteria, criterion.text ≠ "") →
      criteria.forM criterionSchema = .ok () := fun criteria h =>
    forM_eq_ok.2 fun criterion hcriterion => minLength1_eq_ok.2 (h criterion hcriterion)
  have hphases : input.phases.forM phaseNodeSchema = .ok () := by
    refine forM_eq_ok.2 fun phase hphase => ?_
    obtain ⟨hid, hname, htexts⟩ := hparsed.phases phase hphase
    exact bind_eq_ok.2 ⟨(), minLength1_eq_ok.2 hid,
      bind_eq_ok.2 ⟨(), minLength1_eq_ok.2 hname, hcriteria _ htexts⟩⟩
  refine bind_eq_ok.2 ⟨(), minLength1_eq_ok.2 hparsed.taskId, ?_⟩
  refine bind_eq_ok.2 ⟨(), minLength1_eq_ok.2 hparsed.goal, ?_⟩
  exact bind_eq_ok.2 ⟨(), hcriteria _ hparsed.taskCriteria, bind_eq_ok.2 ⟨(), hphases, rfl⟩⟩

/-- The call appended the draft of the plan and nothing else, and the plan reads back with the
given phases in the given order. -/
structure Recorded (input : PlanIngestInput) (db db' : Db) (plan : PlanRecord) : Prop where
  logged : ∃ event, event.payload = .plan (.drafted input.draft) ∧
    db'.events = db.events ++ [event]
  stored : selectPlan db'.plans input.taskId = some plan
  phases : plan.phases.map PhaseRecord.node = input.phases

theorem recordDraft_of_new (hparsed : input.Parsed) (hnew : selectPlan db.plans input.taskId = none)
    (hroom : db.nextSeq ≤ Js.maxSafeInteger) (hdistinct : (input.phases.map (·.phaseId)).Nodup)
    (actor : String) : ∃ plan db', recordDraft input.draft actor db = .ok (plan, db') ∧
      Recorded input db db' plan := by
  have hschema := plansSchemas_draft hparsed
  obtain ⟨e, he, hv, hpayload⟩ : ∃ e, makePlanDraftedEvent input.draft actor = .ok e ∧ e.v = 1 ∧
      e.payload = .drafted input.draft := ⟨_, bind_eq_ok.2 ⟨_, hschema, rfl⟩, rfl, rfl⟩
  obtain ⟨tables, plan, happly, hread, hphases⟩ := apply_drafted
    ((db.stored (toProject e)).withPayload e.payload) hpayload hnew hdistinct
  obtain ⟨db', hcommit, hplans⟩ := commit_plan hroom hv (hpayload ▸ hschema) happly
  have hrecord : recordDraft input.draft actor db = .ok (plan, db') := by
    have howns : Owns plansProjectors (toProject e).payload := rfl
    rw [recordDraft, reading_bind]
    change selectPlan db.plans input.draft.taskId = none at hnew
    simp only [hnew]
    refine Tx.liftM_bind_eq_ok.2 ⟨e, he, ?_⟩
    refine Tx.bind_eq_ok.2 ⟨_, db', (record_eq_ok howns).2 ⟨rfl, hcommit⟩, ?_⟩
    rw [reading_bind, Tx.liftM_eq_ok, hplans]
    exact ⟨orThrow_eq_ok.2 hread, rfl⟩
  refine ⟨plan, db', hrecord, ⟨db.stored (toProject e), ?_, (folded_of_commit hcommit).2⟩,
    hplans ▸ hread, hphases⟩
  exact congrArg Payload.plan hpayload

/-! ## The plans that are ingested -/

/-- A call that is refused, for whatever reason, appends nothing. -/
theorem planIngestTool_refused {e : String} (h : planIngestTool ctx input db = (.error e, db')) :
    db' = db := by
  rw [planIngestTool] at h
  rcases Proc.bind_eq_error.1 h with hread | ⟨read, mid, hread, hrest⟩
  · exact transaction_error hread
  · obtain ⟨-, rfl⟩ := Tx.get_eq_ok.1 (transaction_eq_ok.1 hread)
    cases hchecks : planIngestChecks ctx input read.roster with
    | error cause =>
      rw [hchecks] at hrest
      exact (Prod.mk.inj hrest).2.symm
    | ok u =>
      rw [hchecks] at hrest
      exact transaction_error hrest

/-- A coordinator's call for a locked spec of a task without a plan records the plan exactly where
it is well-formed; what it records are the given phases in the given order, and a refused call
appends nothing. -/
theorem plan_ingested_iff_wellFormed (hcall : CoordinatorCall ctx specs db.roster)
    (hspec : specs input.taskId = some spec) (hlocked : spec.state = .locked)
    (hparsed : input.Parsed) (hnew : selectPlan db.plans input.taskId = none)
    (hroom : db.nextSeq ≤ Js.maxSafeInteger) :
    ((∃ plan db', planIngestTool ctx input db = (.ok plan, db')) ↔ WellFormed spec input) ∧
    (∀ plan db', planIngestTool ctx input db = (.ok plan, db') → Recorded input db db' plan) ∧
    ∀ e db', planIngestTool ctx input db = (.error e, db') → db' = db := by
  have hchecks := planIngestChecks_eq_ok hcall hspec hlocked
  have hrun : planIngestTool ctx input db =
      (do planIngestChecks ctx input db.roster; transaction (recordDraft input.draft ctx.agent) :
        StoreProc PlanRecord) db := rfl
  have haccepts : WellFormed spec input → ∃ plan db',
      planIngestTool ctx input db = (.ok plan, db') ∧ Recorded input db db' plan := by
    intro hwell
    obtain ⟨plan, db', hrecord, hrecorded⟩ :=
      recordDraft_of_new hparsed hnew hroom hwell.distinct ctx.agent
    refine ⟨plan, db', ?_, hrecorded⟩
    rw [hrun]
    exact Proc.liftM_bind_eq_ok.2 ⟨(), hchecks.2 hwell, transaction_eq_ok.2 hrecord⟩
  have hwell : ∀ plan db', planIngestTool ctx input db = (.ok plan, db') →
      WellFormed spec input := by
    intro plan db' h
    rw [hrun] at h
    obtain ⟨u, hpassed, -⟩ := Proc.liftM_bind_eq_ok.1 h
    exact hchecks.1 hpassed
  refine ⟨⟨fun ⟨plan, db', h⟩ => hwell plan db' h, fun h => ?_⟩, fun plan db' h => ?_,
    fun e db' h => planIngestTool_refused h⟩
  · obtain ⟨plan, db', hok, -⟩ := haccepts h
    exact ⟨plan, db', hok⟩
  · obtain ⟨plan', last, hok, hrecorded⟩ := haccepts (hwell plan db' h)
    obtain ⟨hplan, rfl⟩ := Prod.mk.inj (h.symm.trans hok)
    obtain rfl := Except.ok.inj hplan
    exact hrecorded

end

/-- A project with nothing but its coordinator. -/
def coordinated : Db :=
  (Roles.RosterCall.recordAgent
    { agentId := "main", role := .coordinator, parent := Mail.OPERATOR }).exec .atRest

def parserSpec : SpecRecord where
  state := .locked
  criteria := [{ text := "a stray comma is refused", verify := some "npm test" }]

/-- The printer is listed first, although it needs the parser. -/
def parserPlan : PlanIngestInput where
  taskId := "parser"
  goal := "Parse and print"
  taskCriteria := parserSpec.criteria
  phases := [
    { phaseId := "print", name := "Print", deps := ["parse", "parse"]
      criteria := parserSpec.criteria },
    { phaseId := "parse", name := "Parse", deps := [], criteria := parserSpec.criteria }]

theorem plan_ingested_iff_wellFormed_parserPlan :
    ((∃ plan db', planIngestTool { agent := "main", specs := some fun _ => some parserSpec }
        parserPlan coordinated = (.ok plan, db')) ↔ WellFormed parserSpec parserPlan) ∧
    (∀ plan db', planIngestTool { agent := "main", specs := some fun _ => some parserSpec }
        parserPlan coordinated = (.ok plan, db') → Recorded parserPlan coordinated db' plan) ∧
    ∀ e db', planIngestTool { agent := "main", specs := some fun _ => some parserSpec }
        parserPlan coordinated = (.error e, db') → db' = coordinated :=
  plan_ingested_iff_wellFormed
    { plans := rfl, specs := rfl, roster := rfl, role := ⟨_, rfl, rfl⟩ } rfl rfl
    ⟨by decide, by decide, by decide, by decide⟩ rfl (by decide)

example : planIngestChecks { agent := "main", specs := some fun _ => some parserSpec } parserPlan
    coordinated.roster = .ok () := by decide +kernel

end Orchestration.Plans
