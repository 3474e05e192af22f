import Orchestration.Dispatch.CostRollups
import Orchestration.Library.FloatAddition
import Orchestration.Replay.Recovery

/-!
# The warning before the budget

A cost that takes the total of its task over the line of its budget is recorded with a
warning. Costs are not negative, so the total does not fall, and one that is over the line
stays there: the warning comes once.
-/

namespace Orchestration.Replay

open Dispatch Fallible Transaction

/-- The line in dollars from which a total is near the cap. -/
def budgetLine (budget : BudgetCap) : Float :=
  budget.capCents / 100 * (budget.thresholdPct.getD NEAR_BUDGET_THRESHOLD_PCT_DEFAULT / 100)

def isWarning (task : String) (event : StoredEvent Payload) : Bool :=
  match event.payload with
  | .dispatch (.costNearBudget nb) => nb.task == task
  | _ => false

/-- How often the log records that a task came near its budget. -/
def warnings (task : String) (db : Db) : ℕ := db.events.countP (isWarning task)

/-- The costs of the task are all recorded under the one budget. -/
def FixedBudget (task : String) (budget : BudgetCap) : StoreCall → Prop
  | .dispatch (.recordCost obs given) => obs.task = task → given = some budget
  | _ => True

/-! ## The line -/

section

variable {before after capCents thresholdPct : Float}

theorem nearBudget_mono (hle : before ≤ after) (h : nearBudget before capCents thresholdPct = true) :
    nearBudget after capCents thresholdPct = true := by
  unfold nearBudget at h ⊢
  split at h
  · cases h
  · next hcap =>
    rw [if_neg hcap]
    exact decide_eq_true (FloatOrder.le_trans (of_decide_eq_true h) hle)

theorem crossesNearBudget_self (total : Float) :
    crossesNearBudget total total capCents thresholdPct = false := by
  simp [crossesNearBudget]

/-- The way from zero to the new total crosses the line before the old total or after it. -/
theorem crosses_split (hzero : 0 ≤ before) (hle : before ≤ after) :
    (crossesNearBudget 0 after capCents thresholdPct = true ↔
      crossesNearBudget 0 before capCents thresholdPct = true ∨
        crossesNearBudget before after capCents thresholdPct = true) ∧
    ¬ (crossesNearBudget 0 before capCents thresholdPct = true ∧
        crossesNearBudget before after capCents thresholdPct = true) := by
  have hfirst := @nearBudget_mono 0 before capCents thresholdPct hzero
  have hthen := @nearBudget_mono before after capCents thresholdPct hle
  unfold crossesNearBudget
  revert hfirst hthen
  cases nearBudget 0 capCents thresholdPct <;> cases nearBudget before capCents thresholdPct <;>
    cases nearBudget after capCents thresholdPct <;> simp

end

/-! ## The total -/

theorem nonneg_of_nonnegative {path : String} {value : Float}
    (h : nonnegative path value = .ok ()) : 0 ≤ value := by
  obtain ⟨_, hfinite, hbelow⟩ := bind_eq_ok.1 h
  have hfinite := refuse_eq_ok.1 hfinite
  exact FloatOrder.le_of_not_lt (by simpa using hfinite) (by decide +kernel)
    (refuse_eq_ok.1 hbelow)

theorem costUsd_nonneg {obs : CostRecorded} (h : costRecordedSchema obs = .ok ()) :
    0 ≤ obs.costUsd.getD 0 := by
  cases hcost : obs.costUsd with
  | none => exact FloatOrder.le_self_of_nonneg (by decide +kernel)
  | some costUsd =>
    simp only [costRecordedSchema, bind_eq_ok, whenSome_eq_ok] at h
    obtain ⟨_, -, _, -, _, -, _, -, _, hnonneg, -⟩ := h
    exact nonneg_of_nonnegative (hnonneg _ hcost)

/-- An observation adds to the total of its task, once, and to no other. -/
theorem taskTotal_of_apply {t t' : CostRows} {event : StoredEvent DispatchEvent}
    {obs : CostRecorded} (h : applyCostRecorded t event obs = .ok t') (task : String) :
    t'.rollups.find? (.task, task) = t.rollups.find? (.task, task) ∨
      obs.task = task ∧ t'.rollups.find? (.task, task) =
        some (((t.rollups.find? (.task, task)).map (·.plus (rollupRow .task task obs))).getD
          (rollupRow .task task obs)) := by
  obtain ⟨-, -, h⟩ := bind_eq_ok.1 h
  obtain ⟨kept, hkept, h⟩ := bind_eq_ok.1 h
  obtain ⟨rfl, -⟩ | ⟨observations, -, -, -, rfl⟩ := recordCostObservation_eq_ok hkept
  · obtain rfl := pure_eq_ok.1 h
    exact .inl rfl
  · obtain rfl := pure_eq_ok.1 h
    rw [find?_addToRollup]
    split
    · next hid => exact .inr ⟨hid.symm, rfl⟩
    · exact .inl rfl

theorem applyRows_of_apply {costEvents : List CostRecorded} {t t' : CostTables}
    {event : StoredEvent DispatchEvent} (h : CostProjector.apply costEvents t event = .ok t') :
    CostProjector.applyRows costEvents t.toCostRows event = .ok t'.toCostRows := by
  unfold CostProjector.apply at h
  split at h
  · next rows hrows =>
    cases h
    exact hrows
  · cases h

theorem cost_of_commit {db mid : Db} {event : NewEvent Payload} {obs : CostRecorded}
    (hevent : event.payload = .dispatch (.costRecorded obs)) (h : db.commit event = .ok mid) :
    applyCostRecorded db.cost.toCostRows
      ((db.stored event).withPayload (DispatchEvent.costRecorded obs)) obs =
        .ok mid.cost.toCostRows := by
  obtain ⟨hfolded, -⟩ := folded_of_commit h
  have hpayload' : (db.stored event).payload = .dispatch (.costRecorded obs) := hevent
  generalize mid.toProjections = t at hfolded ⊢
  cases hfolded with
  | cost hpayload happly =>
    cases hpayload.symm.trans hpayload'
    rw [← applyRows_costRecorded db.cost.counted rfl]
    exact applyRows_of_apply happly
  | mail hpayload | review hpayload | worktree hpayload | usage hpayload | placement hpayload
  | toolUsage hpayload | plan hpayload | roles hpayload | session hpayload | archive hpayload =>
    cases hpayload.symm.trans hpayload'

/-- A cost does not lower a total, and it changes that of its own task alone. -/
theorem taskTotal_of_cost {db mid : Db} {obs : CostRecorded} {e : NewEvent DispatchEvent}
    (he : makeCostRecordedEvent obs = .ok e) (h : db.commit (toProject e) = .ok mid)
    (task : String) (hnonneg : 0 ≤ taskTotal db.cost task) :
    taskTotal db.cost task ≤ taskTotal mid.cost task ∧
      (task ≠ obs.task → taskTotal mid.cost task = taskTotal db.cost task) := by
  obtain ⟨hschema, rfl⟩ := makeCostRecordedEvent_eq_ok he
  have hcost := costUsd_nonneg hschema
  have hrows := cost_of_commit (by rfl) h
  rcases taskTotal_of_apply hrows task with hsame | ⟨rfl, hadded⟩
  · have htotal : taskTotal mid.cost task = taskTotal db.cost task := by
      rw [taskTotal, taskTotal, hsame]
    rw [htotal]
    exact ⟨FloatOrder.le_self_of_nonneg hnonneg, fun _ => rfl⟩
  · refine ⟨?_, fun hother => absurd rfl hother⟩
    rw [taskTotal, taskTotal, hadded]
    rw [taskTotal] at hnonneg
    cases hrow : db.cost.rollups.find? (.task, obs.task) with
    | none => exact hcost
    | some row =>
      rw [hrow] at hnonneg
      exact FloatOrder.le_add hnonneg hcost

/-- A warning changes no total, and its row stands under its number. -/
theorem taskTotal_of_warning {db mid : Db} {event : NewEvent Payload} {nb : CostNearBudget}
    (hevent : event.payload = .dispatch (.costNearBudget nb)) (h : db.commit event = .ok mid) :
    mid.cost.rollups = db.cost.rollups ∧
      (mid.cost.nearBudget.find? db.nextSeq).isSome = true := by
  obtain ⟨hfolded, -⟩ := folded_of_commit h
  have hpayload' : (db.stored event).payload = .dispatch (.costNearBudget nb) := hevent
  generalize mid.toProjections = t at hfolded ⊢
  cases hfolded with
  | cost hpayload happly =>
    cases hpayload.symm.trans hpayload'
    have hrows := applyRows_of_apply happly
    rw [CostProjector.applyRows, db.cost.counted.backfill] at hrows
    obtain ⟨_, ht, hrows⟩ := bind_eq_ok.1 hrows
    cases ht
    obtain ⟨_, -, hrows⟩ := bind_eq_ok.1 hrows
    have htables := pure_eq_ok.1 hrows
    rw [← htables]
    refine ⟨rfl, ?_⟩
    rw [Table.find?_upsert]
    simp [StoredEvent.withPayload, Db.stored]
  | mail hpayload | review hpayload | worktree hpayload | usage hpayload | placement hpayload
  | toolUsage hpayload | plan hpayload | roles hpayload | session hpayload | archive hpayload =>
    cases hpayload.symm.trans hpayload'

/-! ## The count -/

theorem warnings_of_commit {task : String} {db mid : Db} {event : NewEvent Payload}
    (h : db.commit event = .ok mid) : warnings task mid =
      warnings task db + if isWarning task (db.stored event) = true then 1 else 0 := by
  rw [warnings, warnings, (folded_of_commit h).2, List.countP_append, List.countP_singleton]

theorem isWarning_of_payload {task : String} {db : Db} {event : NewEvent Payload}
    {nb : CostNearBudget} (hevent : event.payload = .dispatch (.costNearBudget nb)) :
    isWarning task (db.stored event) = (nb.task == task) := by
  have hpayload : (db.stored event).payload = .dispatch (.costNearBudget nb) := hevent
  rw [isWarning, hpayload]

/-- Only what the cost projector folds is a warning or moves a total. -/
theorem warnings_of_other {P : EventClass} {task : String} {db db' : Db} (h : Emits P db db')
    (hP : ∀ s event, P s event → event.payload.projector ≠ .cost) :
    warnings task db' = warnings task db ∧ db'.cost = db.cost := by
  refine ⟨?_, h.same hP⟩
  refine h.preserves (fun s => warnings task s = warnings task db) ?_ rfl
  intro event s s' hevent hs hcommit
  rw [warnings_of_commit hcommit, hs]
  have hother := hP s event hevent
  have hnone : isWarning task (s.stored event) = false := by
    unfold isWarning
    split
    · next nb hpayload =>
      have hpayload' : event.payload = .dispatch (.costNearBudget nb) := hpayload
      rw [hpayload'] at hother
      exact absurd rfl hother
    · rfl
  rw [hnone]
  rfl

/-- The total is a number from zero on, and there is one warning if it has crossed the line and
none if it has not. -/
structure WarnedOnce (task : String) (budget : BudgetCap) (db : Db) : Prop where
  nonneg : 0 ≤ taskTotal db.cost task
  counted : warnings task db =
    if crossesNearBudget 0 (taskTotal db.cost task) budget.capCents
      (budget.thresholdPct.getD NEAR_BUDGET_THRESHOLD_PCT_DEFAULT) = true then 1 else 0

theorem taskTotal_empty (task : String) (clock : ℕ → ℕ) :
    taskTotal ({ clock } : Db).cost task = 0 := rfl

theorem WarnedOnce.empty (task : String) (budget : BudgetCap) (clock : ℕ → ℕ) :
    WarnedOnce task budget { clock } where
  nonneg := by
    show (0 : Float) ≤ 0
    decide +kernel
  counted := (if_neg (by rw [taskTotal_empty, crossesNearBudget_self]; decide)).symm

/-- A cost of another task counts nothing and moves nothing here. -/
theorem WarnedOnce.other {task : String} {budget : BudgetCap} {db db' : Db}
    (h : WarnedOnce task budget db) (hcost : taskTotal db'.cost task = taskTotal db.cost task)
    (hcount : warnings task db' = warnings task db) : WarnedOnce task budget db' where
  nonneg := hcost ▸ h.nonneg
  counted := by rw [hcost, hcount, h.counted]

theorem warnings_of_cost {task : String} {db mid : Db} {obs : CostRecorded}
    {e : NewEvent DispatchEvent} (he : makeCostRecordedEvent obs = .ok e)
    (h : db.commit (toProject e) = .ok mid) : warnings task mid = warnings task db := by
  obtain ⟨-, rfl⟩ := makeCostRecordedEvent_eq_ok he
  rw [warnings_of_commit h]
  rfl

/-- What one recorded cost does: the warning is recorded, and returned, by the call that takes
the total over the line. -/
theorem WarnedOnce.recordCost {task : String} {budget : BudgetCap} {db db' : Db}
    (h : WarnedOnce task budget db) {obs : CostRecorded} (htask : obs.task = task) {result}
    (hcall : Dispatch.recordCost obs (some budget) db = .ok (result, db')) :
    WarnedOnce task budget db' ∧
      (result.2.2.isSome = true ↔ crossesNearBudget (taskTotal db.cost task)
        (taskTotal db'.cost task) budget.capCents
          (budget.thresholdPct.getD NEAR_BUDGET_THRESHOLD_PCT_DEFAULT) = true) := by
  obtain ⟨mid, e, he, hcommit, hnear⟩ := recordCost_eq_ok hcall
  obtain ⟨hle, -⟩ := taskTotal_of_cost he hcommit task h.nonneg
  obtain ⟨hsplit, hapart⟩ := @crosses_split _ _ budget.capCents
    (budget.thresholdPct.getD NEAR_BUDGET_THRESHOLD_PCT_DEFAULT) h.nonneg hle
  have hcount : warnings task mid = warnings task db := warnings_of_cost he hcommit
  have hnear := recordNearBudget_eq_ok hnear
  dsimp only at hnear
  rw [htask] at hnear
  by_cases hcross : crossesNearBudget (taskTotal db.cost task) (taskTotal mid.cost task)
      budget.capCents (budget.thresholdPct.getD NEAR_BUDGET_THRESHOLD_PCT_DEFAULT) = true
  · rw [if_pos hcross] at hnear
    obtain ⟨hresult, e', hpayload, hcommit'⟩ := hnear
    have hpayload' : (toProject e').payload = .dispatch (.costNearBudget _) :=
      congrArg Payload.dispatch hpayload
    obtain ⟨hrollups, hrow⟩ := taskTotal_of_warning hpayload' hcommit'
    have htotal : taskTotal db'.cost task = taskTotal mid.cost task := by
      rw [taskTotal, taskTotal, hrollups]
    have hbefore : ¬ crossesNearBudget 0 (taskTotal db.cost task) budget.capCents
        (budget.thresholdPct.getD NEAR_BUDGET_THRESHOLD_PCT_DEFAULT) = true :=
      fun hearlier => hapart ⟨hearlier, hcross⟩
    refine ⟨⟨htotal ▸ FloatOrder.le_trans h.nonneg hle, ?_⟩, ?_⟩
    · rw [warnings_of_commit hcommit', isWarning_of_payload hpayload', hcount, h.counted,
        if_neg hbefore, htotal, if_pos (hsplit.2 (.inr hcross))]
      simp
    · rw [hresult, hrow, htotal, hcross]
  · rw [if_neg hcross] at hnear
    obtain ⟨hresult, rfl⟩ := hnear
    refine ⟨⟨FloatOrder.le_trans h.nonneg hle, ?_⟩, ?_⟩
    · rw [hcount, h.counted]
      refine if_congr ?_ rfl rfl
      exact ⟨fun hbefore => hsplit.2 (.inl hbefore), fun hafter =>
        (hsplit.1 hafter).resolve_right hcross⟩
    · rw [hresult]
      exact ⟨fun hsome => absurd hsome (by simp), fun hnow => absurd hnow hcross⟩

/-- A cost of another task, under whatever budget, leaves the count as it is. -/
theorem WarnedOnce.recordCost_other {task : String} {budget : BudgetCap} {db db' : Db}
    (h : WarnedOnce task budget db) {obs : CostRecorded} (htask : obs.task ≠ task)
    {given : Option BudgetCap} {result}
    (hcall : Dispatch.recordCost obs given db = .ok (result, db')) :
    WarnedOnce task budget db' := by
  obtain ⟨mid, e, he, hcommit, hrest⟩ := recordCost_eq_ok hcall
  have hmid : WarnedOnce task budget mid :=
    h.other ((taskTotal_of_cost he hcommit task h.nonneg).2 htask.symm)
      (warnings_of_cost he hcommit)
  cases given with
  | none => exact hrest.2 ▸ hmid
  | some given =>
    have hnear := recordNearBudget_eq_ok hrest
    dsimp only at hnear
    split at hnear
    · obtain ⟨-, e', hpayload, hcommit'⟩ := hnear
      have hpayload' : (toProject e').payload = .dispatch (.costNearBudget _) :=
        congrArg Payload.dispatch hpayload
      have hrollups := (taskTotal_of_warning hpayload' hcommit').1
      refine hmid.other (by rw [taskTotal, taskTotal, hrollups]) ?_
      rw [warnings_of_commit hcommit', isWarning_of_payload hpayload']
      simp [htask]
    · exact hnear.2 ▸ hmid

/-- A call that records no cost. -/
theorem WarnedOnce.aside {task : String} {budget : BudgetCap} {db : Db} {call : StoreCall}
    (hdb : Consistent db) (h : WarnedOnce task budget db)
    (hcall : ∀ obs given, call ≠ .dispatch (.recordCost obs given)) :
    WarnedOnce task budget (call.exec db) := by
  have hother : Emits (fun _ event => event.payload.projector ≠ .cost) db (call.exec db) := by
    cases call with
    | dispatch call =>
      refine (DispatchCall.exec_folders hdb call).mono fun s event hevent heq => ?_
      rw [heq] at hevent
      cases call with
      | recordCost obs given => exact hcall obs given rfl
      | _ => simp [DispatchCall.folders] at hevent
    | _ =>
      refine (StoreCall.exec_folders hdb _).mono fun s event hevent heq => ?_
      rw [heq] at hevent
      simp [StoreCall.folders] at hevent
  obtain ⟨hcount, hcost⟩ := @warnings_of_other _ task _ _ hother fun _ _ hevent => hevent
  exact h.other (by rw [hcost]) hcount

theorem WarnedOnce.exec {task : String} {budget : BudgetCap} {db : Db} (hdb : Consistent db)
    (h : WarnedOnce task budget db) {call : StoreCall} (hfixed : FixedBudget task budget call) :
    WarnedOnce task budget (call.exec db) := by
  by_cases hcall : ∃ obs given, call = .dispatch (.recordCost obs given)
  · obtain ⟨obs, given, rfl⟩ := hcall
    refine @Proc.exec_transaction _ _ _ (fun _ s' => WarnedOnce task budget s') _ _ h
      fun result db' hok => ?_
    by_cases htask : obs.task = task
    · obtain rfl := hfixed htask
      exact (h.recordCost htask hok).1
    · exact h.recordCost_other htask hok
  · exact h.aside hdb fun obs given heq => hcall ⟨obs, given, heq⟩

theorem storeRun_warnedOnce {task : String} {budget : BudgetCap} (clock : ℕ → ℕ)
    {calls : List StoreCall} (hfixed : ∀ call ∈ calls, FixedBudget task budget call) :
    WarnedOnce task budget (storeRun calls { clock }) := by
  have hguarded := @Run.guarded_of_forall _ _ StoreCall.exec _ calls ({ clock } : Db) hfixed
  refine (Run.invariant (fun s => Consistent s ∧ WarnedOnce task budget s) ?_ hguarded
    ⟨.empty clock, .empty task budget clock⟩).2
  intro call s hallowed hs
  exact ⟨StoreCall.exec_consistent hs.1 call, hs.2.exec hs.1 hallowed⟩

/-! ## The warning -/

/-- Under one budget with a positive line there is, after every run, one warning for the task if
its total has reached the line and none if it has not; and it is the call that reaches it first
which records and returns it. -/
theorem warns_once_near_budget (clock : ℕ → ℕ) (task : String) (budget : BudgetCap)
    (hcap : 0 < budget.capCents) (hline : 0 < budgetLine budget) (calls : List StoreCall)
    (hfixed : ∀ call ∈ calls, FixedBudget task budget call) :
    warnings task (storeRun calls { clock }) =
      (if budgetLine budget ≤ taskTotal (storeRun calls { clock }).cost task then 1 else 0) ∧
    ∀ obs, obs.task = task → ∀ result db',
      recordCost obs (some budget) (storeRun calls { clock }) = .ok (result, db') →
      (result.2.2.isSome = true ↔
        ¬ budgetLine budget ≤ taskTotal (storeRun calls { clock }).cost task ∧
          budgetLine budget ≤ taskTotal db'.cost task) := by
  have hwarned := @storeRun_warnedOnce task budget clock calls hfixed
  have hnear : ∀ total, nearBudget total budget.capCents
      (budget.thresholdPct.getD NEAR_BUDGET_THRESHOLD_PCT_DEFAULT) = true ↔
        budgetLine budget ≤ total := by
    intro total
    rw [nearBudget, if_neg (FloatOrder.not_le_of_lt hcap), decide_eq_true_iff, budgetLine]
  have hzero := (hnear 0).not.2 (FloatOrder.not_le_of_lt hline)
  constructor
  · rw [hwarned.counted]
    refine if_congr ?_ rfl rfl
    rw [crossesNearBudget, Bool.and_eq_true, hnear, Bool.not_eq_true', ← Bool.not_eq_true]
    exact and_iff_right hzero
  · intro obs htask result db' hcall
    rw [(hwarned.recordCost htask hcall).2, crossesNearBudget, Bool.and_eq_true, hnear,
      Bool.not_eq_true', ← Bool.not_eq_true, hnear]

/-- What an agent's turn on the task `t` costs. -/
def costOnTask (agent : String) (turn : ℕ) (costUsd : Float) (budget : BudgetCap) : StoreCall :=
  .dispatch (.recordCost
    { provider := .claude, agent, task := "t", turn, costUsd := some costUsd } (some budget))

/-- Two agents, one cost reported twice, and a total that ends past the eight dollars of the line. -/
theorem warns_once_near_ten_dollars :
    warnings "t" (storeRun [costOnTask "a" 1 5 ⟨1000, none⟩, costOnTask "a" 1 5 ⟨1000, none⟩,
      costOnTask "b" 1 3 ⟨1000, none⟩, costOnTask "a" 2 1 ⟨1000, none⟩]
      { clock := fun _ => 0 }) = 1 := by
  refine (warns_once_near_budget (fun _ => 0) "t" ⟨1000, none⟩ (by decide +kernel)
    (by decide +kernel) _ ?_).1.trans (if_pos (by decide +kernel))
  intro call hcall
  fin_cases hcall <;> exact fun _ => rfl

/-- A positive cap can be too small for a positive line: the total is at the line from the start,
and no cost ever crosses it. -/
theorem no_warning_at_vanishing_line :
    ¬ ∀ (clock : ℕ → ℕ) (task : String) (budget : BudgetCap), 0 < budget.capCents →
      0 < budget.thresholdPct.getD NEAR_BUDGET_THRESHOLD_PCT_DEFAULT →
      ∀ calls : List StoreCall, (∀ call ∈ calls, FixedBudget task budget call) →
        warnings task (storeRun calls { clock }) =
          if budgetLine budget ≤ taskTotal (storeRun calls { clock }).cost task then 1 else 0 := by
  intro h
  have hcount := h (fun _ => 0) "t" ⟨1e-322, none⟩ (by decide +kernel) (by decide +kernel)
    [costOnTask "a" 1 5 ⟨1e-322, none⟩] fun call hcall => by
      rw [List.mem_singleton.1 hcall]
      exact fun _ => rfl
  revert hcount
  decide +kernel

end Orchestration.Replay
