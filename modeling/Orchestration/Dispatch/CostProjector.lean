import Orchestration.Dispatch.Events
import Orchestration.Library.Table

/-!
# The cost read model

Each observation of a turn's cost is kept once and added to two rollups, that of
its agent and that of its task. The rollups also count the observations behind
each kind of measurement. Tables of older builds lack the observations or the
counts and are repaired before they are used; tables that this projector folded
carry the counts, and there is nothing to repair.
-/

namespace Orchestration.Dispatch

open Fallible

/-- A row of `cost_observations`. -/
structure CostObservation (α : Type := Float) where
  provider : Provider
  agent : String
  task : String
  turn : ℕ
  sourceId : Option String
  costUsd : Option α
  inputTokens : Option ℕ
  outputTokens : Option ℕ
  totalTokens : Option ℕ
  cacheReadTokens : Option ℕ
  cacheCreationTokens : Option ℕ
  usedPct : Option α
deriving DecidableEq, Repr

def CostObservation.key {α : Type} (o : CostObservation α) : Provider × String × String × ℕ :=
  (o.provider, o.agent, o.task, o.turn)

/-- Which side of the dual rollup a row belongs to. -/
inductive CostRollupKind where
  | agent
  | task
deriving DecidableEq, Repr

/-- The rollup of that kind which an observation is added to. -/
def CostObservation.id {α : Type} (o : CostObservation α) : CostRollupKind → String
  | .agent => o.agent
  | .task => o.task

/-- A row of `cost_rollup`. -/
structure CostRollup (α : Type := Float) where
  kind : CostRollupKind
  id : String
  totalCostUsd : α
  costUsdObservations : ℕ
  inputTokens : ℕ
  outputTokens : ℕ
  totalTokens : ℕ
  tokenObservations : ℕ
  cacheReadTokens : ℕ
  cacheCreationTokens : ℕ
  usedPct : α
  usedPctObservations : ℕ
  observations : ℕ
deriving DecidableEq, Repr

def CostRollup.key {α : Type} (row : CostRollup α) : CostRollupKind × String := (row.kind, row.id)

/-- A row of `cost_near_budget`. -/
structure NearBudgetRecord where
  seq : ℕ
  task : String
  agent : String
  provider : Provider
  totalCostUsd : Float
  capCents : Float
  thresholdPct : Float
  recordedTs : ℕ
deriving DecidableEq, Repr

/-- The cost tables as the database holds them. -/
structure CostRows (α : Type := Float) where
  observations : Table (@CostObservation.key α) := {}
  rollups : Table (@CostRollup.key α) := {}
  nearBudget : Table NearBudgetRecord.seq := {}

/-- Tables without a row. -/
def CostRows.empty {α : Type} : CostRows α := {}

/-! ## Observations -/

section

variable {α : Type} [Amount α]

/-- The total as reported, or else the sum of its parts when both are. -/
def normalizedTotalTokens (p : CostRecorded α) : Option ℕ :=
  p.totalTokens.or do
    let input ← p.inputTokens
    let output ← p.outputTokens
    return input + output

def normalizeCostObservation (p : CostRecorded α) : CostObservation α where
  provider := p.provider
  agent := p.agent
  task := p.task
  turn := p.turn
  sourceId := p.sourceId
  costUsd := p.costUsd
  inputTokens := p.inputTokens
  outputTokens := p.outputTokens
  totalTokens := normalizedTotalTokens p
  cacheReadTokens := p.cacheReadInputTokens
  cacheCreationTokens := p.cacheCreationInputTokens
  usedPct := p.usedPct

def observationsMatchIgnoringTurn (a b : CostObservation α) : Bool :=
  a.provider == b.provider && a.agent == b.agent && a.task == b.task && a.sourceId == b.sourceId &&
    a.costUsd == b.costUsd && a.inputTokens == b.inputTokens && a.outputTokens == b.outputTokens &&
    a.totalTokens == b.totalTokens && a.cacheReadTokens == b.cacheReadTokens &&
    a.cacheCreationTokens == b.cacheCreationTokens && a.usedPct == b.usedPct

def observationsMatch (a b : CostObservation α) : Bool :=
  a.turn == b.turn && observationsMatchIgnoringTurn a b

/-- The observation of the same provider sample, which a unique index allows once. -/
def selectSameSource (t : CostRows α) (n : CostObservation α) : Option (CostObservation α) :=
  t.observations.rows.find? fun o =>
    n.sourceId.isSome && o.provider == n.provider && o.agent == n.agent && o.task == n.task &&
      o.sourceId == n.sourceId

/-- Keep an observation once: an exact repetition is nothing new, a conflicting one fails. -/
def recordCostObservation (t : CostRows α) (p : CostRecorded α) : Except String (Option (CostRows α)) :=
  let n := normalizeCostObservation p
  let sameSource := selectSameSource t n
  match t.observations.insert? n, sameSource with
  | some observations, none => return some { t with observations }
  | _, _ =>
    if (t.observations.find? n.key).any (observationsMatch · n) ||
        sameSource.any (observationsMatchIgnoringTurn · n) then
      return none
    else
      throw (s!"cost-projector: conflicting duplicate cost observation for " ++
        s!"{n.provider}/{n.agent}/{n.task}/turn-{n.turn}")

/-- The rollup row of a single observation; what it does not measure counts as nothing. -/
def rollupRow (kind : CostRollupKind) (id : String) (p : CostRecorded α) : CostRollup α where
  kind
  id
  totalCostUsd := p.costUsd.getD 0
  costUsdObservations := if p.costUsd.isSome then 1 else 0
  inputTokens := p.inputTokens.getD 0
  outputTokens := p.outputTokens.getD 0
  totalTokens := (normalizedTotalTokens p).getD 0
  tokenObservations := if (normalizedTotalTokens p).isSome then 1 else 0
  cacheReadTokens := p.cacheReadInputTokens.getD 0
  cacheCreationTokens := p.cacheCreationInputTokens.getD 0
  usedPct := p.usedPct.getD 0
  usedPctObservations := if p.usedPct.isSome then 1 else 0
  observations := 1

/-- Add up the columns of two rows. -/
def CostRollup.plus (row excluded : CostRollup α) : CostRollup α :=
  { row with
    totalCostUsd := row.totalCostUsd + excluded.totalCostUsd
    costUsdObservations := row.costUsdObservations + excluded.costUsdObservations
    inputTokens := row.inputTokens + excluded.inputTokens
    outputTokens := row.outputTokens + excluded.outputTokens
    totalTokens := row.totalTokens + excluded.totalTokens
    tokenObservations := row.tokenObservations + excluded.tokenObservations
    cacheReadTokens := row.cacheReadTokens + excluded.cacheReadTokens
    cacheCreationTokens := row.cacheCreationTokens + excluded.cacheCreationTokens
    usedPct := row.usedPct + excluded.usedPct
    usedPctObservations := row.usedPctObservations + excluded.usedPctObservations
    observations := row.observations + excluded.observations }

/-- Add one observation to the rollup of `id`. -/
def addToRollup (t : CostRows α) (kind : CostRollupKind) (id : String) (p : CostRecorded α) : CostRows α :=
  { t with
    rollups := t.rollups.upsert (rollupRow kind id p)
      { run := (·.plus (rollupRow kind id p)), keeps := fun _ => rfl } }

/-! ## Repairing tables of older builds -/

/-- What an observation may measure and a rollup counts. -/
inductive Measure where
  | costUsd
  | tokens
  | usedPct
deriving DecidableEq, Repr

def CostObservation.has (o : CostObservation α) : Measure → Bool
  | .costUsd => o.costUsd.isSome
  | .tokens => o.totalTokens.isSome
  | .usedPct => o.usedPct.isSome

def CostRollup.count (row : CostRollup α) : Measure → ℕ
  | .costUsd => row.costUsdObservations
  | .tokens => row.tokenObservations
  | .usedPct => row.usedPctObservations

/-- The observations behind one count of a rollup. -/
def CostRows.observed (t : CostRows α) (kind : CostRollupKind) (id : String) (measure : Measure) : ℕ :=
  t.observations.rows.countP fun o => o.id kind == id && o.has measure

/-- Rebuild one kind of rollup from the observations. SQLite's `SUM` compensates the rounding of
doubles, which this sum does not. -/
def rollupsFromObservations (observations : List (CostObservation α)) (kind : CostRollupKind) :
    List (CostRollup α) :=
  (observations.map (·.id kind)).dedup.mergeSort.map fun id =>
    let mine := observations.filter (·.id kind == id)
    { kind
      id
      totalCostUsd := mine.foldl (fun sum o => sum + o.costUsd.getD 0) 0
      costUsdObservations := mine.countP (·.costUsd.isSome)
      inputTokens := (mine.map (·.inputTokens.getD 0)).sum
      outputTokens := (mine.map (·.outputTokens.getD 0)).sum
      totalTokens := (mine.map (·.totalTokens.getD 0)).sum
      tokenObservations := mine.countP (·.totalTokens.isSome)
      cacheReadTokens := (mine.map (·.cacheReadTokens.getD 0)).sum
      cacheCreationTokens := (mine.map (·.cacheCreationTokens.getD 0)).sum
      usedPct := mine.foldl (fun sum o => sum + o.usedPct.getD 0) 0
      usedPctObservations := mine.countP (·.usedPct.isSome)
      observations := mine.length }

def recomputeCostRollupsFromObservations (t : CostRows α) : CostRows α :=
  { t with
    rollups := (rollupsFromObservations t.observations.rows .agent ++
      rollupsFromObservations t.observations.rows .task).foldl
        (fun rollups row => (rollups.insert? row).getD rollups) {} }

/-- Rollups without observations come from a build that kept none: refold the cost events of the
log. Otherwise recount. -/
def backfillCostObservationState (costEvents : List (CostRecorded α)) (t : CostRows α) :
    Except String (CostRows α) := do
  if t.observations.rows = [] ∧ t.rollups.rows ≠ [] then
    let t ← costEvents.foldlM
      (fun t p => do
        costRecordedSchema p
        return (← recordCostObservation t p).getD t) t
    return recomputeCostRollupsFromObservations t
  else
    return { t with
      rollups := t.rollups.updateWhere (fun _ => true)
        { run := fun row => { row with
            costUsdObservations := t.observed row.kind row.id .costUsd
            tokenObservations := t.observed row.kind row.id .tokens
            usedPctObservations := t.observed row.kind row.id .usedPct } } }

/-! ## The fold -/

def validateCostRecordedEnvelope {π : Type} (event : StoredEvent π) (p : CostRecorded α) :
    Except String Unit := do
  refuse (event.scope ≠ costScope p.agent)
    (s!"cost-projector: cost scope '{event.scope}' does not match cost.recorded agent " ++
      s!"'{p.agent}'")
  whenSome event.actor fun actor =>
    refuse (actor ≠ p.agent)
      s!"cost-projector: actor '{actor}' does not match cost.recorded agent '{p.agent}'"

def validateCostNearBudgetEnvelope (event : StoredEvent DispatchEvent) (p : CostNearBudget) :
    Except String Unit := do
  refuse (event.scope ≠ costScope p.task)
    (s!"cost-projector: cost scope '{event.scope}' does not match cost.near_budget task " ++
      s!"'{p.task}'")
  whenSome event.actor fun actor =>
    refuse (actor ≠ p.agent)
      s!"cost-projector: actor '{actor}' does not match cost.near_budget agent '{p.agent}'"

/-- Fold a cost into both rollups, unless it repeats one. -/
def applyCostRecorded {π : Type} (t : CostRows α) (event : StoredEvent π) (p : CostRecorded α) :
    Except String (CostRows α) := do
  validateCostRecordedEnvelope event p
  match ← recordCostObservation t p with
  | none => return t
  | some t => return addToRollup (addToRollup t .agent p.agent p) .task p.task p

/-- Fold a budget crossing, keyed by its event. -/
def applyCostNearBudget (t : CostRows α) (event : StoredEvent DispatchEvent) (p : CostNearBudget) :
    Except String (CostRows α) := do
  validateCostNearBudgetEnvelope event p
  let row : NearBudgetRecord := {
    seq := event.seq
    task := p.task
    agent := p.agent
    provider := p.provider
    totalCostUsd := p.totalCostUsd
    capCents := p.capCents
    thresholdPct := p.thresholdPct
    recordedTs := event.ts }
  return { t with
    nearBudget := t.nearBudget.upsert row { run := fun old => { row with seq := old.seq } } }

/-- Bring the tables up to date with the cost events of the log, then fold one decoded event. -/
def CostProjector.applyRows (costEvents : List CostRecorded) (t : CostRows)
    (event : StoredEvent DispatchEvent) : Except String CostRows := do
  let t ← backfillCostObservationState costEvents t
  match event.payload with
  | .costRecorded p => applyCostRecorded t event p
  | .costNearBudget p => applyCostNearBudget t event p
  | _ => return t

/-! ## Nothing to repair -/

/-- The counts are those of the observations, and every observation is in its two rollups. -/
structure Counted (t : CostRows α) : Prop where
  counted : ∀ kind id row, t.rollups.find? (kind, id) = some row →
    ∀ measure, row.count measure = t.observed kind id measure
  rolled : ∀ o ∈ t.observations.rows, ∀ kind, (t.rollups.find? (kind, o.id kind)).isSome = true
  observed : t.observations.rows = [] → t.rollups.rows = []

omit [Amount α] in
theorem counted_empty : Counted ({} : CostRows α) where
  counted _ _ _ h := nomatch h
  rolled _ h := absurd h List.not_mem_nil
  observed _ := rfl

/-- There is nothing to repair, whatever the log says. -/
theorem Counted.backfill {t : CostRows α} (h : Counted t) (costEvents : List (CostRecorded α)) :
    backfillCostObservationState costEvents t = .ok t := by
  have hrefold : ¬ (t.observations.rows = [] ∧ t.rollups.rows ≠ []) := fun ⟨hnone, hsome⟩ =>
    hsome (h.observed hnone)
  rw [backfillCostObservationState, if_neg hrefold]
  refine congrArg (fun rollups => Except.ok { t with rollups }) (Table.updateWhere_eq_self ?_)
  intro row hrow _
  have hcount := h.counted row.kind row.id row (Table.find?_eq_some.2 ⟨hrow, rfl⟩)
  simp only [← hcount .costUsd, ← hcount .tokens, ← hcount .usedPct, CostRollup.count]

@[simp] theorem count_plus (row excluded : CostRollup α) (measure : Measure) :
    (row.plus excluded).count measure = row.count measure + excluded.count measure := by
  cases measure <;> rfl

theorem count_rollupRow (kind : CostRollupKind) (id : String) (p : CostRecorded α)
    (measure : Measure) : (rollupRow kind id p).count measure =
      if (normalizeCostObservation p).has measure = true then 1 else 0 := by
  cases measure <;> rfl

/-- What a lookup finds after an observation was added to its two rollups. -/
theorem find?_addToRollup (t : CostRows α) (p : CostRecorded α) (kind : CostRollupKind)
    (id : String) :
    (addToRollup (addToRollup t .agent p.agent p) .task p.task p).rollups.find? (kind, id) =
      if id = (normalizeCostObservation p).id kind then
        some (((t.rollups.find? (kind, id)).map (·.plus (rollupRow kind id p))).getD
          (rollupRow kind id p))
      else t.rollups.find? (kind, id) := by
  cases kind <;>
    simp only [addToRollup, Table.find?_upsert, CostRollup.key, rollupRow, Prod.mk.injEq,
      reduceCtorEq, false_and, true_and, if_false, CostObservation.id,
      normalizeCostObservation] <;>
    split <;> simp_all

/-- A fresh observation is counted in its two rollups. -/
theorem Counted.recorded {t : CostRows α} (h : Counted t) {p : CostRecorded α}
    {observations : Table (@CostObservation.key α)}
    (hinsert : t.observations.insert? (normalizeCostObservation p) = some observations) :
    Counted (addToRollup (addToRollup { t with observations } .agent p.agent p) .task p.task p) := by
  obtain ⟨-, hrows⟩ := Table.insert?_eq_some.1 hinsert
  have hfind := find?_addToRollup { t with observations } p
  have hobserved : ∀ kind id measure,
      (addToRollup (addToRollup { t with observations } .agent p.agent p) .task p.task p).observed
        kind id measure = t.observed kind id measure +
          if (normalizeCostObservation p).id kind = id ∧
            (normalizeCostObservation p).has measure = true then 1 else 0 := by
    intro kind id measure
    simp [CostRows.observed, addToRollup, hrows, List.countP_append, List.countP_singleton]
  refine ⟨?_, ?_, ?_⟩
  · intro kind id row hrow measure
    rw [hobserved]
    rw [hfind] at hrow
    split at hrow
    · next hid =>
      subst hid
      obtain rfl := Option.some.inj hrow
      cases hold : t.rollups.find? (kind, (normalizeCostObservation p).id kind) with
      | some old =>
        simp [count_rollupRow, h.counted _ _ old hold measure]
      | none =>
        -- no rollup yet, hence no observation yet
        have hnone : t.observed kind ((normalizeCostObservation p).id kind) measure = 0 := by
          refine List.countP_eq_zero.2 fun o ho hp => ?_
          have hrolled := h.rolled o ho kind
          simp only [Bool.and_eq_true, beq_iff_eq] at hp
          rw [hp.1, hold] at hrolled
          cases hrolled
        simp [count_rollupRow, hnone]
    · next hid =>
      rw [if_neg fun hmine => hid hmine.1.symm, Nat.add_zero]
      exact h.counted kind id row hrow measure
  · intro o ho kind
    rw [hfind]
    split
    · rfl
    · next hid =>
      have ho' : o ∈ t.observations.rows ++ [normalizeCostObservation p] := hrows ▸ ho
      rcases List.mem_append.1 ho' with ho' | ho'
      · exact h.rolled o ho' kind
      · exact absurd (congrArg (·.id kind) (List.mem_singleton.1 ho')) hid
  · intro hnone
    have hempty : t.observations.rows ++ [normalizeCostObservation p] = [] := hrows ▸ hnone
    simp at hempty

theorem Counted.applyRows {costEvents : List CostRecorded} {t t' : CostRows}
    {event : StoredEvent DispatchEvent} (h : Counted t)
    (happly : CostProjector.applyRows costEvents t event = .ok t') : Counted t' := by
  rw [CostProjector.applyRows, h.backfill] at happly
  change (match event.payload with
    | .costRecorded p => applyCostRecorded t event p
    | .costNearBudget p => applyCostNearBudget t event p
    | _ => pure t) = .ok t' at happly
  split at happly
  · next p _ =>
    obtain ⟨-, -, happly⟩ := bind_eq_ok.1 happly
    obtain ⟨recorded, hrecord, happly⟩ := bind_eq_ok.1 happly
    simp only [recordCostObservation] at hrecord
    split at hrecord
    · next observations hinsert _ =>
      obtain rfl := pure_eq_ok.1 hrecord
      obtain rfl := pure_eq_ok.1 happly
      exact h.recorded hinsert
    · split at hrecord
      · obtain rfl := pure_eq_ok.1 hrecord
        obtain rfl := pure_eq_ok.1 happly
        exact h
      · simp at hrecord
  · obtain ⟨-, -, happly⟩ := bind_eq_ok.1 happly
    obtain rfl := pure_eq_ok.1 happly
    exact ⟨h.counted, h.rolled, h.observed⟩
  · obtain rfl := pure_eq_ok.1 happly
    exact h

end

/-- The cost tables of this build: there is nothing to repair in them. -/
structure CostTables extends CostRows where
  counted : Counted toCostRows

def CostTables.empty : CostTables where
  counted := counted_empty

/-- Bring the tables up to date with the cost events of the log. -/
def ensureCostTables (costEvents : List CostRecorded) (t : CostTables) : Except String CostTables :=
  match h : backfillCostObservationState costEvents t.toCostRows with
  | .ok rows => .ok { rows with
      counted := by
        obtain rfl := Except.ok.inj ((t.counted.backfill costEvents).symm.trans h)
        exact t.counted }
  | .error e => .error e

@[simp] theorem ensureCostTables_eq (costEvents : List CostRecorded) (t : CostTables) :
    ensureCostTables costEvents t = .ok t := by
  have hnoop := t.counted.backfill costEvents
  unfold ensureCostTables
  split
  · next rows h =>
    obtain rfl := Except.ok.inj (hnoop.symm.trans h)
    rfl
  · next h =>
    rw [hnoop] at h
    cases h

/-- The cost projector: fold one decoded event, with the cost events of the log at hand. -/
def CostProjector.apply (costEvents : List CostRecorded) (t : CostTables)
    (event : StoredEvent DispatchEvent) : Except String CostTables :=
  match h : CostProjector.applyRows costEvents t.toCostRows event with
  | .ok rows => .ok { rows with counted := t.counted.applyRows h }
  | .error e => .error e

/-- What is folded does not depend on the rest of the log. -/
theorem CostProjector.apply_log (costEvents costEvents' : List CostRecorded) (t : CostTables)
    (event : StoredEvent DispatchEvent) :
    CostProjector.apply costEvents t event = CostProjector.apply costEvents' t event := by
  have hrows : CostProjector.applyRows costEvents t.toCostRows event =
      CostProjector.applyRows costEvents' t.toCostRows event := by
    rw [CostProjector.applyRows, CostProjector.applyRows, t.counted.backfill, t.counted.backfill]
  unfold CostProjector.apply
  split <;> split <;> simp_all

end Orchestration.Dispatch
