import Orchestration.Review.Store

/-!
# The dispatch store

Samples of usage, costs with the crossing of a budget, tool calls and
placements, each recorded by one transaction. A placement that opens a review
commits the review's request with it.
-/

namespace Orchestration.Dispatch

open Fallible Transaction
open Orchestration.Review (ReviewRequested ReviewRequestRecord Carries selectReviewRequest)

/-- The projectors of a dispatch store. -/
def dispatchProjectors : List Projector := [.usage, .cost, .placement, .toolUsage]

/-- A dispatch event as the project log carries it. -/
def toProject (event : NewEvent DispatchEvent) : NewEvent Payload :=
  event.withPayload (.dispatch event.payload)

theorem owns_dispatch (event : NewEvent DispatchEvent) :
    Owns dispatchProjectors (toProject event).payload := by
  change Owns dispatchProjectors (.dispatch event.payload)
  cases event.payload <;> rfl

/-- Build a dispatch event, append it and fold it. -/
def recordDispatch (event : Except String (NewEvent DispatchEvent)) :
    StoreTx (StoredEvent Payload) := do
  let event ← event
  record dispatchProjectors (toProject event)

/-- What every operation of the dispatch store does first; of its tables only those of the costs
have older builds to catch up with. -/
def ensureTables : StoreTx Unit := do
  let db ← get
  let cost ← ensureCostTables (costEvents db.events) db.cost
  set { db with cost }

/-- A read of the dispatch tables. -/
def reading {α : Type} (read : Projections → α) : StoreTx α := do
  ensureTables
  let db ← get
  return read db.toProjections

theorem ensureTables_bind {db : Db} {α : Type} {f : Unit → StoreTx α} :
    (ensureTables >>= f) db = f () db := by
  simp only [ensureTables, ensureCostTables_eq]
  rfl

theorem reading_bind {db : Db} {α β : Type} {read : Projections → α} {f : α → StoreTx β} :
    (reading read >>= f) db = f (read db.toProjections) db := by
  rw [reading, bind_assoc, ensureTables_bind]
  rfl

/-! ## Usage -/

/-- Record one sample. -/
def recordUsageObserved (obs : UsageObserved) :
    StoreTx (UsageAccountRow × Option UsageBucketRow) := do
  ensureTables
  let _ ← recordDispatch (makeUsageObservedEvent obs)
  let account ← reading fun t => selectUsageAccount t.usage obs.provider obs.account
  let account ← orThrow account
    ("openDispatchStore.recordUsageObserved: account row missing after projection " ++
      s!"(account='{obs.account}')")
  match obs with
  | .available sample =>
    match sample.windowKind with
    | some windowKind =>
      return (account, ← reading fun t =>
        selectUsageBucket t.usage sample.provider sample.account windowKind)
    | none => return (account, none)
  | .unavailable _ => return (account, none)

structure UsageWindow where
  kind : String
  usedPct : Float
  resetAt : String
deriving DecidableEq, Repr

/-- What a provider reports of an account at one time. -/
structure UsageSnapshot where
  provider : Provider
  account : String
  available : Bool
  windows : List UsageWindow
  source : String
  sampledAt : String
deriving DecidableEq, Repr

/-- The samples of a snapshot: a windowless one forgets the old windows, each window follows, and
an unavailable account ends unavailable. -/
def snapshotToObservedEvents (snapshot : UsageSnapshot) :
    Except String (List (NewEvent DispatchEvent)) := do
  let clear : UsageObserved := .available {
    provider := snapshot.provider
    account := snapshot.account
    source := snapshot.source
    sampledAt := snapshot.sampledAt }
  let windows := snapshot.windows.map fun w => UsageObserved.available {
    provider := snapshot.provider
    account := snapshot.account
    windowKind := w.kind
    usedPct := w.usedPct
    resetAt := w.resetAt
    source := snapshot.source
    sampledAt := snapshot.sampledAt }
  let unavailable : UsageObserved := .unavailable {
    provider := snapshot.provider
    account := snapshot.account
    reason := s!"usage source '{snapshot.source}' reported account '{snapshot.account}' unavailable"
    source := snapshot.source
    sampledAt := snapshot.sampledAt }
  let samples :=
    if snapshot.available then clear :: windows
    else if snapshot.windows = [] then [unavailable]
    else clear :: windows ++ [unavailable]
  samples.mapM makeUsageObservedEvent

/-- Record a whole snapshot. -/
def recordSnapshot (snapshot : UsageSnapshot) :
    StoreTx (UsageAccountRow × List UsageBucketRow) := do
  let events ← snapshotToObservedEvents snapshot
  ensureTables
  let _ ← recordAll dispatchProjectors (events.map toProject)
  let account ← reading fun t => selectUsageAccount t.usage snapshot.provider snapshot.account
  let account ← orThrow account
    ("openDispatchStore.recordSnapshot: account row missing after projection " ++
      s!"(account='{snapshot.account}')")
  let buckets ← reading fun t => t.usage.buckets.rows.filter fun b =>
    b.provider == snapshot.provider && b.account == snapshot.account &&
      snapshot.windows.any (·.kind == b.windowKind)
  return (account, buckets)

/-! ## Costs -/

/-- A cap in cents and the percentage of it that is near. -/
structure BudgetCap where
  capCents : Float
  thresholdPct : Option Float := none
deriving DecidableEq, Repr

def NEAR_BUDGET_THRESHOLD_PCT_DEFAULT : Float := 80

def nearBudget (totalCostUsd capCents thresholdPct : Float) : Bool :=
  if capCents ≤ 0 then false
  else capCents / 100 * (thresholdPct / 100) ≤ totalCostUsd

def crossesNearBudget (before after capCents thresholdPct : Float) : Bool :=
  !nearBudget before capCents thresholdPct && nearBudget after capCents thresholdPct

/-- The rollup of `id`. A column that JavaScript cannot represent is refused by the driver; a
total past the last safe integer is refused whether or not the sum of doubles was exact. -/
def selectCostRollup (kind : CostRollupKind) (id : String) : StoreTx (Option CostRollup) := do
  let row ← reading (·.cost.rollups.find? (kind, id))
  whenSome row fun row =>
    refuse
      ([row.costUsdObservations, row.inputTokens, row.outputTokens, row.totalTokens,
        row.tokenObservations, row.cacheReadTokens, row.cacheCreationTokens,
        row.usedPctObservations, row.observations].any (Js.maxSafeInteger < ·))
      "Value is too large to be represented as a JavaScript number"
  return row

/-- Record the first crossing of a budget. -/
def recordNearBudget (obs : CostRecorded) (before after : Float) (budget : BudgetCap) :
    StoreTx (Option NearBudgetRecord) := do
  let thresholdPct := budget.thresholdPct.getD NEAR_BUDGET_THRESHOLD_PCT_DEFAULT
  if crossesNearBudget before after budget.capCents thresholdPct then
    let nb ← recordDispatch (makeCostNearBudgetEvent {
      task := obs.task
      agent := obs.agent
      provider := obs.provider
      totalCostUsd := after
      capCents := budget.capCents
      thresholdPct })
    reading (·.cost.nearBudget.find? nb.seq)
  else return none

/-- The task's rollup before a cost, read when there is a budget to cross. -/
def rollupBefore (budget : Option BudgetCap) (task : String) : StoreTx (Option CostRollup) :=
  match budget with
  | some _ => selectCostRollup .task task
  | none => return none

/-- Record the cost of a turn, and that it crossed into the near-budget band if it did. -/
def recordCost (obs : CostRecorded) (budget : Option BudgetCap) :
    StoreTx (CostRollup × CostRollup × Option NearBudgetRecord) := do
  ensureTables
  let before ← rollupBefore budget obs.task
  let _ ← recordDispatch (makeCostRecordedEvent obs)
  let agent ← selectCostRollup .agent obs.agent
  let task ← selectCostRollup .task obs.task
  let missing : String :=
    "openDispatchStore.recordCost: rollup row missing after projection " ++
      s!"(agent='{obs.agent}', task='{obs.task}')"
  let agent ← orThrow agent missing
  let task ← orThrow task missing
  match budget with
  | some budget =>
    let beforeTotal := (before.map (·.totalCostUsd)).getD 0
    return (agent, task, ← recordNearBudget obs beforeTotal task.totalCostUsd budget)
  | none => return (agent, task, none)

/-- The turn under which the next cost is recorded: the proposed one, or past the last. -/
def nextCostTurn (provider : Provider) (agent task : String) (proposedTurn : ℕ) : StoreTx ℕ := do
  let turns ← reading fun t => (t.cost.observations.rows.filter fun o =>
    o.provider == provider && o.agent == agent && o.task == task).map (·.turn)
  return turns.foldl (fun next turn => max next (turn + 1)) proposedTurn

/-! ## Tools and placements -/

/-- Record a tool call. -/
def recordToolInvoked (inv : ToolInvoked) : StoreTx AgentToolUsage := do
  ensureTables
  let _ ← recordDispatch (makeToolInvokedEvent inv)
  let usage ← reading fun t => selectAgentToolUsage t.toolUsage inv.agent
  orThrow usage
    ("openDispatchStore.recordToolInvoked: tool-usage row missing after projection " ++
      s!"(agent='{inv.agent}', tool='{inv.tool}')")

/-- Record a placement. -/
def recordPlacement (agent : String) (payload : PlacementDecided) : StoreTx PlacementRecord := do
  ensureTables
  let stored ← recordDispatch (makePlacementDecidedEvent agent payload)
  let placement ← reading fun t => selectPlacementBySeq t.placement stored.seq
  orThrow placement
    ("openDispatchStore.recordPlacement: placement row missing after projection " ++
      s!"(agent='{agent}', kind='{payload.kind}')")

/-- A placement with its review request folds the one with the dispatch projectors and the other
with the review projectors. -/
def placementProjectors : List Projector := dispatchProjectors ++ Review.reviewProjectors

/-- Record a placement and the review request it answers, together. -/
def recordPlacementWithReviewRequest (agent : String) (payload : PlacementDecided)
    (request : ReviewRequested) : StoreTx (PlacementRecord × ReviewRequestRecord) := do
  ensureTables
  Review.ensureReviewTables
  let placement ← makePlacementDecidedEvent agent payload
  let requested ← Review.makeReviewRequestedEvent request
  let stored ← recordAll placementProjectors [toProject placement, Review.toProject requested]
  let placement ← reading fun t =>
    selectPlacementBySeq t.placement ((stored.head?.map (·.seq)).getD 0)
  let placement ← orThrow placement
    ("openDispatchStore.recordPlacementWithReviewRequest: placement row missing after " ++
      s!"projection (agent='{agent}', kind='{payload.kind}')")
  let record ← Review.reading (selectReviewRequest · request.target request.branch)
  let record ← orThrow record
    ("openDispatchStore.recordPlacementWithReviewRequest: review request row missing after " ++
      s!"projection (target='{request.target}', branch='{request.branch}')")
  return (placement, record)

/-! ## What the operations commit -/

/-- The store appends nothing but dispatch events. -/
def DispatchEvents : EventClass := fun _ event => ∃ payload, event.payload = .dispatch payload

/-- Dispatch events that one projector folds. -/
def FoldedBy (p : Projector) : EventClass := fun _ event =>
  (∃ payload, event.payload = .dispatch payload) ∧ event.payload.projector = p

theorem toProject_payload (event : NewEvent DispatchEvent) :
    (toProject event).payload = .dispatch event.payload := rfl

theorem recordDispatch_stored {event : Except String (NewEvent DispatchEvent)} {db db' : Db}
    {s : StoredEvent Payload} (h : recordDispatch event db = .ok (s, db')) :
    ∃ e, event = .ok e ∧ s.seq = db.nextSeq ∧ db.commit (toProject e) = .ok db' := by
  obtain ⟨e, he, h⟩ := Tx.liftM_bind_eq_ok.1 h
  obtain ⟨rfl, hcommit⟩ := (record_eq_ok (owns_dispatch e)).1 h
  exact ⟨e, he, rfl, hcommit⟩

theorem recordDispatch_eq_ok {event : Except String (NewEvent DispatchEvent)} {db db' : Db}
    {s : StoredEvent Payload} (h : recordDispatch event db = .ok (s, db')) :
    ∃ e, event = .ok e ∧ db.commit (toProject e) = .ok db' := by
  obtain ⟨e, he, -, hcommit⟩ := recordDispatch_stored h
  exact ⟨e, he, hcommit⟩

/-- A recorded observation. -/
theorem observes {event : Except String (NewEvent DispatchEvent)} {db db' : Db}
    {s : StoredEvent Payload} {p : Projector}
    (hevent : ∀ e, event = .ok e → (toProject e).payload.projector = p)
    (h : recordDispatch event db = .ok (s, db')) : Emits (FoldedBy p) db db' := by
  obtain ⟨e, he, hcommit⟩ := recordDispatch_eq_ok h
  exact Emits.single ⟨⟨e.payload, rfl⟩, hevent e he⟩ hcommit

/-- A built sample carries what the schema accepted, in the stream of its account. -/
theorem makeUsageObservedEvent_eq_ok {obs : UsageObserved} {e : NewEvent DispatchEvent}
    (he : makeUsageObservedEvent obs = .ok e) :
    dispatchSchemas (.usageObserved obs) = .ok (.usageObserved obs) ∧ e = {
      scope := usageScope s!"{obs.provider}:{obs.account}", v := 1
      payload := .usageObserved obs } := by
  obtain ⟨payload, hschema, hrest⟩ := bind_eq_ok.1 he
  obtain rfl := dispatchSchemas_eq hschema
  refine ⟨hschema, ?_⟩
  cases obs with
  | available sample =>
    obtain ⟨_, -, hevent⟩ := bind_eq_ok.1 hrest
    exact (pure_eq_ok.1 hevent).symm
  | unavailable sample => exact (pure_eq_ok.1 hrest).symm

/-- What is built from a checked payload alone carries it. -/
theorem built_eq_ok {payload : DispatchEvent} {scope : String} {actor : Option String}
    {e : NewEvent DispatchEvent}
    (he : (do
      let payload ← dispatchSchemas payload
      return { scope, v := 1, payload, actor } : Except String (NewEvent DispatchEvent)) = .ok e) :
    dispatchSchemas payload = .ok payload ∧ e = { scope, v := 1, payload, actor } := by
  obtain ⟨payload', hschema, hevent⟩ := bind_eq_ok.1 he
  obtain rfl := dispatchSchemas_eq hschema
  exact ⟨hschema, (pure_eq_ok.1 hevent).symm⟩

theorem makeCostRecordedEvent_eq_ok {p : CostRecorded} {e : NewEvent DispatchEvent}
    (he : makeCostRecordedEvent p = .ok e) : costRecordedSchema p = .ok () ∧ e = {
      scope := costScope p.agent, v := 1, payload := .costRecorded p, actor := p.agent } := by
  obtain ⟨hschema, hbuilt⟩ := built_eq_ok he
  obtain ⟨_, haccepted, -⟩ := bind_eq_ok.1 hschema
  exact ⟨haccepted, hbuilt⟩

theorem makeCostNearBudgetEvent_eq_ok {nb : CostNearBudget} {e : NewEvent DispatchEvent}
    (he : makeCostNearBudgetEvent nb = .ok e) : e = {
      scope := costScope nb.task, v := 1, payload := .costNearBudget nb, actor := nb.agent } :=
  (built_eq_ok he).2

section

variable {db db' : Db}

theorem recordUsageObserved_spec {obs : UsageObserved} {result}
    (h : recordUsageObserved obs db = .ok (result, db')) : Emits (FoldedBy .usage) db db' := by
  rw [recordUsageObserved, ensureTables_bind] at h
  obtain ⟨_, mid, hrecord, h⟩ := Tx.bind_eq_ok.1 h
  rw [reading_bind, Tx.liftM_bind_eq_ok] at h
  obtain ⟨account, -, h⟩ := h
  have hsame : mid = db' := by
    cases obs with
    | unavailable sample => exact (Tx.pure_eq_ok.1 h).2
    | available sample =>
      cases hwindow : sample.windowKind with
      | none =>
        simp only [hwindow] at h
        exact (Tx.pure_eq_ok.1 h).2
      | some windowKind =>
        simp only [hwindow, reading_bind] at h
        exact (Tx.pure_eq_ok.1 h).2
  exact hsame ▸ observes (fun e he => (makeUsageObservedEvent_eq_ok he).2 ▸ rfl) hrecord

theorem recordSnapshot_eq_ok {snapshot : UsageSnapshot} {result}
    (h : recordSnapshot snapshot db = .ok (result, db')) :
    ∃ events, snapshotToObservedEvents snapshot = .ok events ∧
      db.commitAll (events.map toProject) = .ok db' := by
  obtain ⟨events, hevents, h⟩ := Tx.liftM_bind_eq_ok.1 h
  rw [ensureTables_bind] at h
  obtain ⟨_, mid, hrecord, h⟩ := Tx.bind_eq_ok.1 h
  simp only [reading_bind, Tx.liftM_bind_eq_ok, Tx.pure_eq_ok] at h
  obtain ⟨_, -, -, rfl⟩ := h
  have howns : ∀ event ∈ events.map toProject, Owns dispatchProjectors event.payload := by
    intro event hevent
    obtain ⟨e, -, rfl⟩ := List.mem_map.1 hevent
    exact owns_dispatch e
  exact ⟨events, hevents, (recordAll_commitAll howns hrecord).2⟩

theorem recordSnapshot_spec {snapshot : UsageSnapshot} {result}
    (h : recordSnapshot snapshot db = .ok (result, db')) : Emits (FoldedBy .usage) db db' := by
  obtain ⟨events, hevents, hcommit⟩ := recordSnapshot_eq_ok h
  have hother : ∀ e ∈ events, (toProject e).payload.projector = .usage :=
    forall_of_mapM _ (fun _ _ he => (makeUsageObservedEvent_eq_ok he).2 ▸ rfl) hevents
  refine Emits.of_commitAll (fun event hevent _ => ?_) hcommit
  obtain ⟨e, he, rfl⟩ := List.mem_map.1 hevent
  exact ⟨⟨e.payload, rfl⟩, hother e he⟩

theorem selectCostRollup_eq_ok {kind : CostRollupKind} {id : String} {row : Option CostRollup}
    (h : selectCostRollup kind id db = .ok (row, db')) :
    row = db.cost.rollups.find? (kind, id) ∧ db = db' := by
  simp only [selectCostRollup, reading_bind, Tx.liftM_bind_eq_ok, Tx.pure_eq_ok] at h
  obtain ⟨-, -, rfl, rfl⟩ := h
  exact ⟨rfl, rfl⟩

/-- The crossing is recorded where the two totals are on two sides of the band, and nowhere else. -/
theorem recordNearBudget_eq_ok {obs : CostRecorded} {before after : Float} {budget : BudgetCap}
    {result} (h : recordNearBudget obs before after budget db = .ok (result, db')) :
    let thresholdPct := budget.thresholdPct.getD NEAR_BUDGET_THRESHOLD_PCT_DEFAULT
    if crossesNearBudget before after budget.capCents thresholdPct = true then
      result = db'.cost.nearBudget.find? db.nextSeq ∧ ∃ e : NewEvent DispatchEvent,
        e.payload = .costNearBudget {
          task := obs.task, agent := obs.agent, provider := obs.provider, totalCostUsd := after
          capCents := budget.capCents, thresholdPct } ∧
        db.commit (toProject e) = .ok db'
    else result = none ∧ db = db' := by
  simp only [recordNearBudget] at h
  intro thresholdPct
  by_cases hcross : crossesNearBudget before after budget.capCents thresholdPct = true
  · rw [if_pos hcross]
    rw [if_pos hcross] at h
    obtain ⟨nb, mid, hrecord, h⟩ := Tx.bind_eq_ok.1 h
    rw [← bind_pure (reading _), reading_bind, Tx.pure_eq_ok] at h
    obtain ⟨e, he, hstored, hcommit⟩ := recordDispatch_stored hrecord
    obtain ⟨rfl, rfl⟩ := h
    rw [hstored]
    exact ⟨rfl, e, by rw [makeCostNearBudgetEvent_eq_ok he], hcommit⟩
  · rw [if_neg hcross]
    rw [if_neg hcross, Tx.pure_eq_ok] at h
    exact ⟨h.1.symm, h.2⟩

/-- The task's total in dollars; nothing has been spent on a task without a rollup. -/
def taskTotal (t : CostTables) (task : String) : Float :=
  ((t.rollups.find? (.task, task)).map (·.totalCostUsd)).getD 0

/-- A recorded cost is committed, and the crossing is looked for between the two totals. -/
theorem recordCost_eq_ok {obs : CostRecorded} {budget : Option BudgetCap} {result}
    (h : recordCost obs budget db = .ok (result, db')) :
    ∃ mid e, makeCostRecordedEvent obs = .ok e ∧ db.commit (toProject e) = .ok mid ∧
      match budget with
      | none => result.2.2 = none ∧ mid = db'
      | some budget => recordNearBudget obs (taskTotal db.cost obs.task)
          (taskTotal mid.cost obs.task) budget mid = .ok (result.2.2, db') := by
  rw [recordCost, ensureTables_bind] at h
  obtain ⟨before, _, hbefore, h⟩ := Tx.bind_eq_ok.1 h
  obtain ⟨hread, rfl⟩ : (∀ b, budget = some b → before = db.cost.rollups.find? (.task, obs.task)) ∧
      db = _ := by
    cases budget with
    | none => exact ⟨fun _ hb => (nomatch hb), (Tx.pure_eq_ok.1 hbefore).2⟩
    | some budget =>
      obtain ⟨hread, hsame⟩ := selectCostRollup_eq_ok hbefore
      exact ⟨fun _ _ => hread, hsame⟩
  obtain ⟨_, mid, hrecord, h⟩ := Tx.bind_eq_ok.1 h
  obtain ⟨e, he, hcommit⟩ := recordDispatch_eq_ok hrecord
  obtain ⟨agent, _, hagent, h⟩ := Tx.bind_eq_ok.1 h
  obtain ⟨-, rfl⟩ := selectCostRollup_eq_ok hagent
  obtain ⟨task, _, htask, h⟩ := Tx.bind_eq_ok.1 h
  obtain ⟨rfl, rfl⟩ := selectCostRollup_eq_ok htask
  simp only [Tx.liftM_bind_eq_ok] at h
  obtain ⟨_, -, task', htask', h⟩ := h
  have hfound := orThrow_eq_ok.1 htask'
  refine ⟨mid, e, he, hcommit, ?_⟩
  cases budget with
  | none =>
    obtain ⟨rfl, rfl⟩ := Tx.pure_eq_ok.1 h
    exact ⟨rfl, rfl⟩
  | some budget =>
    obtain ⟨nb, _, hnear, h⟩ := Tx.bind_eq_ok.1 h
    obtain ⟨rfl, rfl⟩ := Tx.pure_eq_ok.1 h
    rw [hread _ rfl] at hnear
    simpa only [taskTotal, hfound, Option.map_some, Option.getD_some] using hnear

theorem recordCost_spec {obs : CostRecorded} {budget : Option BudgetCap} {result}
    (h : recordCost obs budget db = .ok (result, db')) : Emits (FoldedBy .cost) db db' := by
  obtain ⟨mid, e, he, hcommit, hrest⟩ := recordCost_eq_ok h
  have hcost : Emits (FoldedBy .cost) db mid :=
    Emits.single ⟨⟨e.payload, rfl⟩, (makeCostRecordedEvent_eq_ok he).2 ▸ rfl⟩ hcommit
  cases budget with
  | none => exact hrest.2 ▸ hcost
  | some budget =>
    refine hcost.trans ?_
    have hnear := recordNearBudget_eq_ok hrest
    dsimp only at hnear
    split at hnear
    · obtain ⟨-, e', hpayload, hcommit'⟩ := hnear
      exact Emits.single ⟨⟨e'.payload, rfl⟩, by rw [toProject_payload, hpayload]; rfl⟩ hcommit'
    · exact hnear.2 ▸ .refl

theorem nextCostTurn_spec {provider : Provider} {agent task : String} {proposedTurn : ℕ} {result}
    (h : nextCostTurn provider agent task proposedTurn db = .ok (result, db')) : db = db' := by
  rw [nextCostTurn, reading_bind, Tx.pure_eq_ok] at h
  exact h.2

theorem recordToolInvoked_spec {inv : ToolInvoked} {result}
    (h : recordToolInvoked inv db = .ok (result, db')) : Emits (FoldedBy .toolUsage) db db' := by
  rw [recordToolInvoked, ensureTables_bind] at h
  obtain ⟨_, mid, hrecord, h⟩ := Tx.bind_eq_ok.1 h
  rw [reading_bind, Tx.liftM_eq_ok] at h
  exact h.2 ▸ observes (fun e he => (built_eq_ok he).2 ▸ rfl) hrecord

/-- A built placement carries what the schema accepted, in the stream of its agent. -/
theorem makePlacementDecidedEvent_eq_ok {agent : String} {payload : PlacementDecided}
    {e : NewEvent DispatchEvent} (he : makePlacementDecidedEvent agent payload = .ok e) :
    dispatchSchemas (.placementDecided payload) = .ok (.placementDecided payload) ∧ e = {
      scope := placementScope agent, v := 1, payload := .placementDecided payload
      actor := agent } := by
  obtain ⟨event, hschema, hrest⟩ := bind_eq_ok.1 he
  obtain rfl := dispatchSchemas_eq hschema
  refine ⟨hschema, ?_⟩
  cases payload with
  | placed seat placed =>
    obtain ⟨_, -, hevent⟩ := bind_eq_ok.1 hrest
    exact (pure_eq_ok.1 hevent).symm
  | waiting seat waiting => exact (pure_eq_ok.1 hrest).symm

/-- The row of a committed placement. -/
theorem placement_of_commit {agent : String} {payload : PlacementDecided}
    {e : NewEvent DispatchEvent} (he : makePlacementDecidedEvent agent payload = .ok e)
    (h : db.commit (toProject e) = .ok db') :
    ∃ row ∈ db'.placement.placements.rows, row.seq = db.nextSeq ∧ row.agent = agent ∧
      row.decided = storedPlacement payload := by
  obtain ⟨-, rfl⟩ := makePlacementDecidedEvent_eq_ok he
  obtain ⟨hfolded, -⟩ := folded_of_commit h
  generalize db'.toProjections = t at hfolded ⊢
  cases hfolded with
  | placement hpayload happly =>
    cases hpayload
    obtain ⟨row, hrow, hseq, hscope, hdecided⟩ := mem_placements_of_apply happly
    refine ⟨row, hrow, hseq, ?_, hdecided⟩
    have hagent := congrArg (afterPrefix? PLACEMENT_SCOPE_PREFIX) hscope
    rw [afterPrefix?_append] at hagent
    exact Option.some.inj (hagent.symm.trans (afterPrefix?_append _ _))
  | mail hpayload | review hpayload | worktree hpayload | usage hpayload | toolUsage hpayload
  | plan hpayload | roles hpayload | session hpayload | archive hpayload => cases hpayload
  | cost hpayload happly hcost => cases hcost

theorem recordPlacement_eq_ok {agent : String} {payload : PlacementDecided} {result}
    (h : recordPlacement agent payload db = .ok (result, db')) :
    ∃ e, makePlacementDecidedEvent agent payload = .ok e ∧ db.commit (toProject e) = .ok db' := by
  rw [recordPlacement, ensureTables_bind] at h
  obtain ⟨_, mid, hrecord, h⟩ := Tx.bind_eq_ok.1 h
  rw [reading_bind, Tx.liftM_eq_ok] at h
  exact h.2 ▸ recordDispatch_eq_ok hrecord

/-- A recorded placement has its row. -/
theorem placement_of_recorded {agent : String} {payload : PlacementDecided} {result}
    (h : recordPlacement agent payload db = .ok (result, db')) :
    ∃ row ∈ db'.placement.placements.rows, row.seq = db.nextSeq ∧ row.agent = agent ∧
      row.decided = storedPlacement payload := by
  obtain ⟨e, he, hcommit⟩ := recordPlacement_eq_ok h
  exact placement_of_commit he hcommit

theorem recordPlacement_spec {agent : String} {payload : PlacementDecided} {result}
    (h : recordPlacement agent payload db = .ok (result, db')) : Emits DispatchEvents db db' := by
  obtain ⟨e, -, hcommit⟩ := recordPlacement_eq_ok h
  exact Emits.single ⟨e.payload, rfl⟩ hcommit

theorem recordPlacementWithReviewRequest_spec (hdb : Consistent db) {agent : String}
    {payload : PlacementDecided} {request : ReviewRequested} {result}
    (h : recordPlacementWithReviewRequest agent payload request db = .ok (result, db')) :
    ∃ placement requested, makePlacementDecidedEvent agent payload = .ok placement ∧
      Carries requested (.requested request) ∧
      db.commitAll [toProject placement, requested] = .ok db' := by
  rw [recordPlacementWithReviewRequest, ensureTables_bind, Review.ensureReviewTables_bind hdb] at h
  simp only [Tx.liftM_bind_eq_ok] at h
  obtain ⟨placement, hplacement, requested, hrequested, h⟩ := h
  obtain ⟨stored, mid, hrecord, h⟩ := Tx.bind_eq_ok.1 h
  have howns : ∀ event ∈ [toProject placement, Review.toProject requested],
      Owns placementProjectors event.payload := by
    intro event hevent
    rcases List.mem_cons.1 hevent with rfl | hevent
    · change Owns placementProjectors (.dispatch placement.payload)
      cases placement.payload <;> rfl
    · rw [List.mem_singleton.1 hevent]
      rfl
  have hcommit := (recordAll_commitAll howns hrecord).2
  simp only [reading_bind, Tx.liftM_bind_eq_ok] at h
  obtain ⟨_, -, h⟩ := h
  rw [Review.reading_bind (hdb.commitAll hcommit), Tx.liftM_bind_eq_ok] at h
  obtain ⟨_, -, h⟩ := h
  obtain ⟨-, rfl⟩ := Tx.pure_eq_ok.1 h
  exact ⟨_, _, hplacement, Review.carries_requested hrequested, hcommit⟩

end

/-! ## Calls -/

/-- A call of the dispatch store. -/
inductive DispatchCall where
  | recordUsageObserved (obs : UsageObserved)
  | recordSnapshot (snapshot : UsageSnapshot)
  | recordCost (obs : CostRecorded) (budget : Option BudgetCap)
  | recordToolInvoked (inv : ToolInvoked)
  | recordPlacement (agent : String) (payload : PlacementDecided)
  | recordPlacementWithReviewRequest (agent : String) (payload : PlacementDecided)
      (request : ReviewRequested)
  | nextCostTurn (provider : Provider) (agent task : String) (proposedTurn : ℕ)
  | read
deriving DecidableEq, Repr

/-- The database after a call. -/
def DispatchCall.exec : DispatchCall → Db → Db
  | recordUsageObserved obs => (transaction (Dispatch.recordUsageObserved obs)).exec
  | recordSnapshot snapshot => (transaction (Dispatch.recordSnapshot snapshot)).exec
  | recordCost obs budget => (transaction (Dispatch.recordCost obs budget)).exec
  | recordToolInvoked inv => (transaction (Dispatch.recordToolInvoked inv)).exec
  | recordPlacement agent payload => (transaction (Dispatch.recordPlacement agent payload)).exec
  | recordPlacementWithReviewRequest agent payload request =>
    (transaction (Dispatch.recordPlacementWithReviewRequest agent payload request)).exec
  | nextCostTurn provider agent task proposedTurn =>
    (transaction (Dispatch.nextCostTurn provider agent task proposedTurn)).exec
  | read => (transaction ensureTables).exec

/-- The store appends dispatch events, and the request that a placement opens. -/
def DispatchAppends : EventClass := fun _ event =>
  (∃ payload, event.payload = .dispatch payload) ∨
    ∃ request, Carries event (.requested request)

theorem DispatchCall.exec_emits {db : Db} (hdb : Consistent db) (call : DispatchCall) :
    Emits DispatchAppends db (call.exec db) := by
  have honly : ∀ {p : Projector} {db' : Db}, Emits (FoldedBy p) db db' →
      Emits DispatchAppends db db' := fun h => h.mono fun _ _ hevent => .inl hevent.1
  cases call with
  | recordUsageObserved obs =>
    exact Proc.exec_transaction .refl fun _ _ h => honly (recordUsageObserved_spec h)
  | recordSnapshot snapshot =>
    exact Proc.exec_transaction .refl fun _ _ h => honly (recordSnapshot_spec h)
  | recordCost obs budget =>
    exact Proc.exec_transaction .refl fun _ _ h => honly (recordCost_spec h)
  | recordToolInvoked inv =>
    exact Proc.exec_transaction .refl fun _ _ h => honly (recordToolInvoked_spec h)
  | recordPlacement agent payload =>
    refine Proc.exec_transaction .refl fun _ _ h => ?_
    exact (recordPlacement_spec h).mono fun _ _ hevent => .inl hevent
  | recordPlacementWithReviewRequest agent payload request =>
    refine Proc.exec_transaction .refl fun result db' h => ?_
    obtain ⟨placement, requested, hplacement, hrequested, hcommit⟩ :=
      recordPlacementWithReviewRequest_spec hdb h
    refine Emits.of_commitAll (fun e he s => ?_) hcommit
    rcases List.mem_cons.1 he with rfl | he
    · exact .inl ⟨placement.payload, rfl⟩
    · exact .inr ⟨request, List.mem_singleton.1 he ▸ hrequested⟩
  | nextCostTurn provider agent task proposedTurn =>
    exact Proc.exec_transaction .refl fun _ _ h => nextCostTurn_spec h ▸ .refl
  | read =>
    refine Proc.exec_transaction .refl fun result db' h => ?_
    rw [← bind_pure ensureTables, ensureTables_bind, Tx.pure_eq_ok] at h
    exact h.2 ▸ .refl

/-- The projectors that fold what a call appends. -/
def DispatchCall.folders : DispatchCall → List Projector
  | recordUsageObserved _ | recordSnapshot _ => [.usage]
  | recordCost _ _ => [.cost]
  | recordToolInvoked _ => [.toolUsage]
  | recordPlacement _ _ => [.placement]
  | recordPlacementWithReviewRequest _ _ _ => [.placement, .review]
  | nextCostTurn _ _ _ _ | read => []

theorem DispatchCall.exec_folders {db : Db} (hdb : Consistent db) (call : DispatchCall) :
    Emits (fun _ event => event.payload.projector ∈ call.folders) db (call.exec db) := by
  have honly : ∀ {p : Projector} {db' : Db}, Emits (FoldedBy p) db db' →
      Emits (fun _ event => event.payload.projector ∈ [p]) db db' := fun h =>
    h.mono fun _ _ hevent => List.mem_singleton.2 hevent.2
  cases call with
  | recordUsageObserved obs =>
    exact Proc.exec_transaction .refl fun _ _ h => honly (recordUsageObserved_spec h)
  | recordSnapshot snapshot =>
    exact Proc.exec_transaction .refl fun _ _ h => honly (recordSnapshot_spec h)
  | recordCost obs budget =>
    exact Proc.exec_transaction .refl fun _ _ h => honly (recordCost_spec h)
  | recordToolInvoked inv =>
    exact Proc.exec_transaction .refl fun _ _ h => honly (recordToolInvoked_spec h)
  | recordPlacement agent payload =>
    refine Proc.exec_transaction .refl fun _ _ h => ?_
    obtain ⟨e, he, hcommit⟩ := recordPlacement_eq_ok h
    refine Emits.single ?_ hcommit
    rw [(makePlacementDecidedEvent_eq_ok he).2]
    exact List.mem_cons_self
  | recordPlacementWithReviewRequest agent payload request =>
    refine Proc.exec_transaction .refl fun result db' h => ?_
    obtain ⟨placement, requested, hplacement, hrequested, hcommit⟩ :=
      recordPlacementWithReviewRequest_spec hdb h
    refine Emits.of_commitAll (fun e he s => ?_) hcommit
    rcases List.mem_cons.1 he with rfl | he
    · rw [(makePlacementDecidedEvent_eq_ok hplacement).2]
      exact List.mem_cons_self
    · rw [List.mem_singleton.1 he, hrequested.payload_eq]
      exact List.mem_cons_of_mem _ List.mem_cons_self
  | nextCostTurn provider agent task proposedTurn =>
    exact Proc.exec_transaction .refl fun _ _ h => nextCostTurn_spec h ▸ .refl
  | read =>
    refine Proc.exec_transaction .refl fun result db' h => ?_
    rw [← bind_pure ensureTables, ensureTables_bind, Tx.pure_eq_ok] at h
    exact h.2 ▸ .refl

end Orchestration.Dispatch
