import Orchestration.Replay.Recovery

/-!
# Completion

A plan is completed only when every phase of it is merged and verified green,
and a completed plan is what it is: the fold refuses every other event about it.
-/

namespace Orchestration.Plans

open Fallible Transaction

/-! ## What one event changes -/

/-- The tables agree on everything about one plan. -/
structure SamePlan (taskId : String) (t t' : PlansTables) : Prop where
  plan : t'.plans.find? taskId = t.plans.find? taskId
  phases : t'.phases.rows.filter (·.taskId == taskId) = t.phases.rows.filter (·.taskId == taskId)

theorem SamePlan.refl (taskId : String) (t : PlansTables) : SamePlan taskId t t := ⟨rfl, rfl⟩

theorem SamePlan.select {taskId : String} {t t' : PlansTables} (h : SamePlan taskId t t') :
    selectPlan t' taskId = selectPlan t taskId := by
  simp only [selectPlan, selectPhases, h.plan]
  cases hrow : t.plans.find? taskId with
  | none => rfl
  | some row =>
    obtain ⟨-, rfl⟩ := Table.find?_eq_some.1 hrow
    simp only [h.phases]

section

variable {t t' : PlansTables} {taskId other : String}

/-- The phases of a plan are written next to those of the others. -/
theorem upsertPhases_spec (other : String) {phases : List PhaseNode} {preserved : List PhaseRecord}
    (h : upsertPhases t taskId phases preserved = .ok t') :
    t'.plans = t.plans ∧ (other ≠ taskId → SamePlan other t t') := by
  simp only [upsertPhases, bind_eq_ok, pure_eq_ok] at h
  obtain ⟨rows, hrows, rfl⟩ := h
  refine ⟨rfl, fun hne => ⟨rfl, ?_⟩⟩
  refine foldlM_invariant (fun rows : Table PlanPhaseRow.key =>
    rows.rows.filter (·.taskId == other) = t.phases.rows.filter (·.taskId == other))
    (fun before entry after hbefore hentry => ?_) ?_ hrows
  · obtain ⟨-, hinserted⟩ := Table.insert?_eq_some.1 (orThrow_eq_ok.1 hentry)
    rw [hinserted, List.filter_append, hbefore]
    simp [Ne.symm hne]
  · simp only [Table.filter, List.filter_filter]
    refine List.filter_congr fun row _ => ?_
    by_cases hrow : row.taskId = other
    · simp [hrow, hne]
    · simp [hrow]

/-- The plan, if there is one, is not completed. -/
def IsOpen (taskId : String) (t : PlansTables) : Prop :=
  ∀ row, t.plans.find? taskId = some row → row.completedTs = none

theorem selectPlan_eq_some {plan : PlanRecord} (h : selectPlan t taskId = some plan) :
    ∃ row, t.plans.find? taskId = some row ∧ plan.completedTs = row.completedTs ∧
      plan.phases = selectPhases t taskId := by
  cases hrow : t.plans.find? taskId with
  | none => simp [selectPlan, hrow] at h
  | some row =>
    simp only [selectPlan, hrow] at h
    cases h
    exact ⟨row, rfl, rfl, rfl⟩

theorem selectPlan_of_row {row : PlanRow} (h : t.plans.find? taskId = some row) :
    selectPlan t taskId = some {
      taskId := row.taskId
      goal := row.goal
      taskCriteria := row.taskCriteria
      phases := selectPhases t taskId
      draftedTs := row.draftedTs
      replanCount := row.replanCount
      completedTs := row.completedTs } := by
  simp only [selectPlan, h]
  rfl

theorem IsOpen.select {plan : PlanRecord} (h : IsOpen taskId t)
    (hplan : selectPlan t taskId = some plan) : plan.completedTs = none := by
  obtain ⟨row, hrow, hts, -⟩ := selectPlan_eq_some hplan
  exact hts.trans (h row hrow)

/-- What the fold asserts of a plan that it is going to change. -/
theorem isOpen_of_assert {type : String} {existing : PlanRecord}
    (hexisting : selectPlan t taskId = some existing)
    (hassert : assertPlanOpenForFold type existing = .ok ()) : IsOpen taskId t := by
  intro row hrow
  rw [selectPlan_of_row hrow] at hexisting
  cases hexisting
  simpa [assertPlanOpenForFold] using hassert

/-- A change of one phase is a change of an open plan, and of no other. -/
theorem updatePhase_spec (other : String) {eventType phaseId : String}
    {update : Table.Update PlanPhaseRow.key}
    (h : updatePhase t eventType taskId phaseId update = .ok t') :
    IsOpen taskId t ∧ t'.plans = t.plans ∧ (other ≠ taskId → SamePlan other t t') := by
  simp only [updatePhase, existingPlan, bind_eq_ok, orThrow_eq_ok, pure_eq_ok] at h
  obtain ⟨existing, hexisting, _, hassert, _, -, rfl⟩ := h
  refine ⟨isOpen_of_assert hexisting hassert, rfl, fun hne => ⟨rfl, ?_⟩⟩
  refine Table.filter_updateWhere fun row hrow => ?_
  have hkept : (update.run row).taskId = row.taskId := congrArg Prod.fst (update.keeps row)
  simp only [Bool.and_eq_true, beq_iff_eq] at hrow
  simp [hkept, hrow.1, Ne.symm hne]

/-- What folding one plan event does, seen from one plan. -/
inductive Folds (taskId : String) (event : PlanEvent) (t t' : PlansTables) : Prop where
  /-- It is about another plan, or about this one and changes nothing. -/
  | same (hsame : SamePlan taskId t t') : Folds taskId event t t'
  /-- It changes this plan, which is open and stays open. -/
  | changed (habout : event.taskId = taskId) (hopen : IsOpen taskId t) (hopen' : IsOpen taskId t') :
      Folds taskId event t t'
  /-- It completes this plan, which has passed the gate. -/
  | completed (existing : PlanRecord) (ts : ℕ) (habout : event = .completed taskId)
      (hopen : IsOpen taskId t) (hexisting : selectPlan t taskId = some existing)
      (hready : assertPlanReadyToComplete "plans" existing = .ok ())
      (hcompleted : selectPlan t' taskId = some { existing with completedTs := some ts }) :
      Folds taskId event t t'

theorem folds_of_updatePhase {eventType phaseId : String} {update : Table.Update PlanPhaseRow.key}
    {event : PlanEvent} (habout : event.taskId = taskId)
    (h : updatePhase t eventType taskId phaseId update = .ok t') : Folds other event t t' := by
  obtain ⟨hopen, hplans, hothers⟩ := updatePhase_spec other h
  by_cases hne : other = taskId
  · subst hne
    refine .changed habout hopen fun row hrow => ?_
    rw [hplans] at hrow
    exact hopen row hrow
  · exact .same (hothers hne)

theorem apply_folds {event : StoredEvent PlanEvent} (taskId : String)
    (h : PlansProjector.apply t event = .ok t') : Folds taskId event.payload t t' := by
  cases hpayload : event.payload with
  | drafted rec =>
    simp only [PlansProjector.apply, hpayload] at h
    cases hexisting : selectPlan t rec.taskId with
    | some existing =>
      simp only [hexisting, bind_eq_ok, pure_eq_ok] at h
      obtain ⟨-, -, -, -, rfl⟩ := h
      exact .same (.refl _ _)
    | none =>
      simp only [hexisting, bind_eq_ok, orThrow_eq_ok] at h
      obtain ⟨plans, hinsert, h⟩ := h
      obtain ⟨hplans, hothers⟩ := upsertPhases_spec taskId h
      have hfind : t'.plans.find? taskId = plans.find? taskId := congrArg (·.find? taskId) hplans
      by_cases habout : taskId = rec.taskId
      · subst habout
        have hnew : IsOpen rec.taskId t' := by
          intro row hrow
          rw [hfind, Table.find?_insert? hinsert, if_pos rfl] at hrow
          cases hrow
          rfl
        refine .changed rfl (fun row hrow => ?_) hnew
        simp [selectPlan_of_row hrow] at hexisting
      · refine .same ⟨hfind.trans ?_, (hothers habout).phases⟩
        exact (Table.find?_insert? hinsert).trans (if_neg habout)
  | statusChanged rec =>
    simp only [PlansProjector.apply, hpayload] at h
    exact folds_of_updatePhase rfl h
  | verified rec =>
    simp only [PlansProjector.apply, hpayload] at h
    exact folds_of_updatePhase rfl h
  | replanned rec =>
    simp only [PlansProjector.apply, hpayload, existingPlan, bind_eq_ok, orThrow_eq_ok] at h
    obtain ⟨existing, hexisting, _, hassert, h⟩ := h
    have hopen := isOpen_of_assert hexisting hassert
    obtain ⟨hplans, hothers⟩ := upsertPhases_spec taskId h
    have hfind : t'.plans.find? taskId =
        (t.plans.find? taskId).map fun row =>
          if row.taskId == rec.taskId then { row with replanCount := row.replanCount + 1 }
          else row := by
      rw [hplans]
      exact Table.find?_updateWhere
    by_cases habout : taskId = rec.taskId
    · subst habout
      refine .changed rfl hopen fun row hrow => ?_
      rw [hfind] at hrow
      obtain ⟨old, hold, rfl⟩ := Option.map_eq_some_iff.1 hrow
      have hts := hopen old hold
      split <;> exact hts
    · refine .same ⟨hfind.trans ?_, (hothers habout).phases⟩
      cases hrow : t.plans.find? taskId with
      | none => rfl
      | some row =>
        obtain ⟨-, rfl⟩ := Table.find?_eq_some.1 hrow
        simp [habout]
  | completed about =>
    simp only [PlansProjector.apply, hpayload, existingPlan, bind_eq_ok, orThrow_eq_ok] at h
    obtain ⟨existing, hexisting, h⟩ := h
    by_cases hclosed : existing.completedTs.isSome = true
    · rw [if_pos hclosed] at h
      obtain rfl := pure_eq_ok.1 h
      exact .same (.refl _ _)
    · simp only [if_neg hclosed, bind_eq_ok, pure_eq_ok] at h
      obtain ⟨_, hready, rfl⟩ := h
      have hfind := @Table.find?_updateWhere _ _ _ PlanRow.taskId t.plans taskId
        (·.taskId == about) { run := fun row => { row with completedTs := some event.ts } }
      by_cases habout : taskId = about
      · subst habout
        obtain ⟨row, hrow, hts, -⟩ := selectPlan_eq_some hexisting
        have hopen : IsOpen taskId t := by
          intro row' hrow'
          rw [hrow] at hrow'
          cases hrow'
          rw [← hts]
          exact Option.not_isSome_iff_eq_none.1 hclosed
        refine .completed existing event.ts rfl hopen hexisting hready ?_
        rw [selectPlan_of_row hrow] at hexisting
        obtain ⟨-, hkey⟩ := Table.find?_eq_some.1 hrow
        rw [hrow, Option.map_some, if_pos (by simpa using hkey)] at hfind
        refine (selectPlan_of_row hfind).trans ?_
        cases hexisting
        rfl
      · refine .same ⟨hfind.trans ?_, rfl⟩
        cases hrow : t.plans.find? taskId with
        | none => rfl
        | some row =>
          obtain ⟨-, rfl⟩ := Table.find?_eq_some.1 hrow
          simp [habout]

end

/-! ## Every log -/

theorem assertPlanReadyToComplete_eq_ok {operation : String} {plan : PlanRecord} {u : Unit} :
    assertPlanReadyToComplete operation plan = .ok u ↔
      ∀ phase ∈ plan.phases, phase.status = .merged ∧ phase.verifiedPass = some true := by
  simp only [assertPlanReadyToComplete, bind_eq_ok, refuse_eq_ok, Decidable.not_not, ne_eq,
    List.filter_eq_nil_iff, decide_eq_true_eq, exists_const]
  exact ⟨fun h phase hphase => ⟨h.1 phase hphase, h.2 phase hphase⟩,
    fun h => ⟨fun phase hphase => (h phase hphase).1, fun phase hphase => (h phase hphase).2⟩⟩

/-- Every completed plan has merged and verified all its phases. -/
def Earned (t : PlansTables) : Prop :=
  ∀ taskId plan, selectPlan t taskId = some plan → plan.completedTs.isSome = true →
    ∀ phase ∈ plan.phases, phase.status = .merged ∧ phase.verifiedPass = some true

theorem earned_empty : Earned {} := by
  intro taskId plan hplan
  cases hplan

theorem Earned.apply {t t' : PlansTables} {event : StoredEvent PlanEvent} (hearned : Earned t)
    (h : PlansProjector.apply t event = .ok t') : Earned t' := by
  intro taskId plan hplan hcompleted
  cases apply_folds taskId h with
  | same hsame =>
    rw [hsame.select] at hplan
    exact hearned taskId plan hplan hcompleted
  | changed _ _ hopen' => simp [hopen'.select hplan] at hcompleted
  | completed existing ts _ _ hexisting hready hselect =>
    rw [hselect] at hplan
    cases hplan
    exact assertPlanReadyToComplete_eq_ok.1 hready

/-- A completed plan is what it is. -/
theorem completed_kept {t t' : PlansTables} {event : StoredEvent PlanEvent} {taskId : String}
    {plan : PlanRecord} (hplan : selectPlan t taskId = some plan)
    (hcompleted : plan.completedTs.isSome = true) (h : PlansProjector.apply t event = .ok t') :
    selectPlan t' taskId = some plan := by
  cases apply_folds taskId h with
  | same hsame => exact hsame.select.trans hplan
  | changed _ hopen => simp [hopen.select hplan] at hcompleted
  | completed _ _ _ hopen => simp [hopen.select hplan] at hcompleted

theorem earned_of_foldEvents {events : List (StoredEvent Payload)} {t : Projections}
    (h : foldEvents {} events = .ok t) : Earned t.plans := by
  refine foldEvents_induction (fun _ t => Earned t.plans) earned_empty ?_ h
  intro _ t event t' hearned hfold
  rcases foldEvent_plan hfold with ⟨payload, -, happly⟩ | ⟨-, hsame⟩
  · exact hearned.apply happly
  · exact hsame ▸ hearned

theorem completed_kept_of_foldEvent {t t' : Projections} {event : StoredEvent Payload}
    {taskId : String} {plan : PlanRecord} (hplan : selectPlan t.plans taskId = some plan)
    (hcompleted : plan.completedTs.isSome = true) (h : foldEvent t event = .ok t') :
    selectPlan t'.plans taskId = some plan := by
  rcases foldEvent_plan h with ⟨payload, -, happly⟩ | ⟨-, hsame⟩
  · exact completed_kept hplan hcompleted happly
  · exact hsame ▸ hplan

/-- Whatever the stores of a project did: a completed plan has merged and verified every phase,
and neither any later calls nor any later events that the fold accepts change it. -/
theorem completion_terminal_and_earned (clock : ℕ → ℕ) (calls : List Replay.StoreCall)
    {taskId : String} {plan : PlanRecord}
    (hplan : selectPlan (Replay.storeRun calls { clock }).plans taskId = some plan)
    (hcompleted : plan.completedTs.isSome = true) :
    (∀ phase ∈ plan.phases, phase.status = .merged ∧ phase.verifiedPass = some true) ∧
    (∀ later, selectPlan (Replay.storeRun later (Replay.storeRun calls { clock })).plans taskId =
      some plan) ∧
    ∀ events t, foldEvents (Replay.storeRun calls { clock }).toProjections events = .ok t →
      selectPlan t.plans taskId = some plan := by
  have hdb : Consistent (Replay.storeRun calls { clock }) := Replay.storeRun_consistent (.empty clock)
  refine ⟨earned_of_foldEvents hdb.replayed taskId plan hplan hcompleted, fun later => ?_,
    fun events t hfold => ?_⟩
  · have hkept : Consistent (Replay.storeRun later (Replay.storeRun calls { clock })) ∧
        selectPlan (Replay.storeRun later (Replay.storeRun calls { clock })).plans taskId =
          some plan := by
      refine Run.always (fun db => Consistent db ∧ selectPlan db.plans taskId = some plan) ?_
        ⟨hdb, hplan⟩
      rintro call db ⟨hdb, hplan⟩
      have hemits := call.exec_emits hdb
      refine ⟨hdb.emits hemits, hemits.preserves (fun db => selectPlan db.plans taskId = some plan)
        (fun event s s' _ hs hcommit => ?_) hplan⟩
      obtain ⟨-, t, hfold, rfl⟩ := commit_eq_ok.1 hcommit
      exact completed_kept_of_foldEvent hs hcompleted hfold
    exact hkept.2
  · exact foldlM_invariant (fun t : Projections => selectPlan t.plans taskId = some plan)
      (fun t event t' ht hfold => completed_kept_of_foldEvent ht hcompleted hfold) hplan hfold

/-- The one phase of a plan. -/
def lexer : PhaseNode where
  phaseId := "P1"
  name := "lexer"
  deps := []
  criteria := []

/-- A plan of one phase is drafted, verified, merged and closed. -/
def onePhase : List Replay.StoreCall :=
  [.plan (.recordDraft ⟨"T1", "parse", [], [lexer]⟩ "lead"),
    .plan (.recordPhaseVerified ⟨"T1", "P1", "abc", true⟩ "reviewer"),
    .plan (.changePhaseStatus ⟨"T1", "P1", .merged⟩ "lead"), .plan (.recordTaskCompleted "T1" "lead")]

theorem completion_terminal_and_earned_of_onePhase :
    ∃ plan, selectPlan (Replay.storeRun onePhase .atRest).plans "T1" = some plan ∧
      plan.completedTs = some 0 ∧
      ∀ phase ∈ plan.phases, phase.status = .merged ∧ phase.verifiedPass = some true := by
  have hclosed : ((selectPlan (Replay.storeRun onePhase .atRest).plans "T1").map
      (·.completedTs)) = some (some 0) := by decide +kernel
  obtain ⟨plan, hplan, hts⟩ := Option.map_eq_some_iff.1 hclosed
  exact ⟨plan, hplan, hts, (completion_terminal_and_earned (fun _ => 0) onePhase hplan
    (by rw [hts]; rfl)).1⟩

end Orchestration.Plans
