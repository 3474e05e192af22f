import Mathlib.Data.List.Find
import Mathlib.Data.Rat.Defs
import Orchestration.Dispatch.CostProjector
import Orchestration.Dispatch.Keys

/-!
# Three ways to the same rollups

The rollups are kept up to date event by event, they can be summed up again from
the stored observations, and a reader of a store without observations computes
them from the raw events alone. The reader applies the rule against duplicates a
second time, to keys that it builds from names.
-/

namespace Orchestration.Dispatch

open Fallible

/-! ## The read-only rollups -/

section

variable {α : Type} [Amount α]

/-- The columns of a rollup while it is summed up. -/
structure CostRollupAccumulator (α : Type := Float) where
  totalCostUsd : α
  costUsdObservations : ℕ
  inputTokens : ℕ
  outputTokens : ℕ
  totalTokens : ℕ
  tokenObservations : ℕ
  cacheReadTokens : ℕ
  cacheCreationTokens : ℕ
  usedPct : α
  usedPctObservations : ℕ
  observations : ℕ
deriving DecidableEq, Repr

def emptyRollupAccumulator : CostRollupAccumulator α where
  totalCostUsd := 0
  costUsdObservations := 0
  inputTokens := 0
  outputTokens := 0
  totalTokens := 0
  tokenObservations := 0
  cacheReadTokens := 0
  cacheCreationTokens := 0
  usedPct := 0
  usedPctObservations := 0
  observations := 0

def accumulatorToRollup (kind : CostRollupKind) (id : String) (acc : CostRollupAccumulator α) :
    CostRollup α where
  kind
  id
  totalCostUsd := acc.totalCostUsd
  costUsdObservations := acc.costUsdObservations
  inputTokens := acc.inputTokens
  outputTokens := acc.outputTokens
  totalTokens := acc.totalTokens
  tokenObservations := acc.tokenObservations
  cacheReadTokens := acc.cacheReadTokens
  cacheCreationTokens := acc.cacheCreationTokens
  usedPct := acc.usedPct
  usedPctObservations := acc.usedPctObservations
  observations := acc.observations

def addObservedCost (acc : CostRollupAccumulator α) (obs : CostObservation α) :
    CostRollupAccumulator α where
  totalCostUsd := acc.totalCostUsd + obs.costUsd.getD 0
  costUsdObservations := acc.costUsdObservations + if obs.costUsd.isSome then 1 else 0
  inputTokens := acc.inputTokens + obs.inputTokens.getD 0
  outputTokens := acc.outputTokens + obs.outputTokens.getD 0
  totalTokens := acc.totalTokens + obs.totalTokens.getD 0
  tokenObservations := acc.tokenObservations + if obs.totalTokens.isSome then 1 else 0
  cacheReadTokens := acc.cacheReadTokens + obs.cacheReadTokens.getD 0
  cacheCreationTokens := acc.cacheCreationTokens + obs.cacheCreationTokens.getD 0
  usedPct := acc.usedPct + obs.usedPct.getD 0
  usedPctObservations := acc.usedPctObservations + if obs.usedPct.isSome then 1 else 0
  observations := acc.observations + 1

omit [Amount α] in
/-- The key of an observation's turn. -/
def observationTurnIdentity (obs : CostObservation α) : String :=
  keyed (toString obs.provider) (keyed obs.agent (keyed obs.task s!"turn:{obs.turn}"))

omit [Amount α] in
/-- The key of an observation's provider sample. -/
def observationSourceIdentity (obs : CostObservation α) : Option String :=
  obs.sourceId.map fun sourceId =>
    keyed (toString obs.provider) (keyed obs.agent (keyed obs.task ("source:" ++ sourceId)))

/-- The observations that the reader has counted, by either key. -/
structure ReadOnlyObservations (α : Type := Float) where
  byTurn : Table (Prod.fst : String × CostObservation α → String) := {}
  bySource : Table (Prod.fst : String × CostObservation α → String) := {}

/-- Remember an observation once: an exact repetition is nothing new, a conflicting one fails. -/
def rememberReadOnlyObservation (seen : ReadOnlyObservations α) (obs : CostObservation α) :
    Except String (Option (ReadOnlyObservations α)) := do
  let conflict : String :=
    s!"cost-projector: conflicting duplicate cost observation for " ++
      s!"{obs.provider}/{obs.agent}/{obs.task}/turn-{obs.turn}"
  let turnKey := observationTurnIdentity obs
  match seen.byTurn.find? turnKey with
  | some (_, sameTurn) =>
    refuse (!observationsMatch sameTurn obs) conflict
    return none
  | none =>
    let byTurn := seen.byTurn.upsert (turnKey, obs) { run := fun (key, _) => (key, obs) }
    match observationSourceIdentity obs with
    | none => return some { seen with byTurn }
    | some sourceKey =>
      match seen.bySource.find? sourceKey with
      | some (_, sameSource) =>
        refuse (!observationsMatchIgnoringTurn sameSource obs) conflict
        return none
      | none =>
        let bySource :=
          seen.bySource.upsert (sourceKey, obs) { run := fun (key, _) => (key, obs) }
        return some { byTurn, bySource }

def CostRollupKind.text : CostRollupKind → String
  | .agent => "agent"
  | .task => "task"

def rollupKey (kind : CostRollupKind) (id : String) : String := keyed kind.text id

/-- The accumulators by rollup key. -/
abbrev Accumulators (α : Type := Float) :=
  Table (Prod.fst : String × CostRollupAccumulator α → String)

/-- Add an observation to the accumulator of a rollup. -/
def applyObservedCost (byKey : Accumulators α) (kind : CostRollupKind) (id : String)
    (obs : CostObservation α) : Accumulators α :=
  byKey.upsert (rollupKey kind id, addObservedCost emptyRollupAccumulator obs)
    { run := fun (key, acc) => (key, addObservedCost acc obs) }

/-- The first two pieces of a key, which are its kind and, if that has no separator, its id. -/
def splitRollupKey (key : String) : CostRollupKind × String :=
  let kind := key.toList.takeWhile (· ≠ NUL)
  let rest := (key.toList.dropWhile (· ≠ NUL)).drop 1
  (if String.ofList kind = CostRollupKind.agent.text then .agent else .task,
    String.ofList (rest.takeWhile (· ≠ NUL)))

/-- Count one raw event. -/
def readOnlyStep (state : ReadOnlyObservations α × Accumulators α) (p : CostRecorded α) :
    Except String (ReadOnlyObservations α × Accumulators α) := do
  costRecordedSchema p
  let obs := normalizeCostObservation p
  match ← rememberReadOnlyObservation state.1 obs with
  | none => return state
  | some seen =>
    return (seen, applyObservedCost (applyObservedCost state.2 .agent obs.agent obs) .task obs.task obs)

/-- The rollups of the raw events, here in the order in which they were begun. -/
def readOnlyRollupsFromEvents (rows : List (CostRecorded α)) : Except String (List (CostRollup α)) := do
  let (_, byKey) ← rows.foldlM readOnlyStep ({}, {})
  return byKey.rows.map fun (key, acc) =>
    accumulatorToRollup (splitRollupKey key).1 (splitRollupKey key).2 acc

/-! ## What the rollups add up to -/

/-- Amounts that add up exactly, in whatever order. -/
class ExactAmount (α : Type) [Amount α] : Prop where
  zero_add (a : α) : 0 + a = a
  add_assoc (a b c : α) : a + b + c = a + (b + c)
  add_comm (a b : α) : a + b = b + a

/-- Add one observation to a row. -/
def CostRollup.observe (row : CostRollup α) (obs : CostObservation α) : CostRollup α :=
  { row with
    totalCostUsd := row.totalCostUsd + obs.costUsd.getD 0
    costUsdObservations := row.costUsdObservations + if obs.costUsd.isSome then 1 else 0
    inputTokens := row.inputTokens + obs.inputTokens.getD 0
    outputTokens := row.outputTokens + obs.outputTokens.getD 0
    totalTokens := row.totalTokens + obs.totalTokens.getD 0
    tokenObservations := row.tokenObservations + if obs.totalTokens.isSome then 1 else 0
    cacheReadTokens := row.cacheReadTokens + obs.cacheReadTokens.getD 0
    cacheCreationTokens := row.cacheCreationTokens + obs.cacheCreationTokens.getD 0
    usedPct := row.usedPct + obs.usedPct.getD 0
    usedPctObservations := row.usedPctObservations + if obs.usedPct.isSome then 1 else 0
    observations := row.observations + 1 }

/-- The row of a rollup's observations. -/
def observedRollup (kind : CostRollupKind) (id : String) (mine : List (CostObservation α)) :
    CostRollup α :=
  mine.foldl CostRollup.observe (accumulatorToRollup kind id emptyRollupAccumulator)

/-- The rollup that a list of observations amounts to. -/
def rollupOf (observations : List (CostObservation α)) (key : CostRollupKind × String) :
    Option (CostRollup α) :=
  match observations.filter (·.id key.1 == key.2) with
  | [] => none
  | mine => some (observedRollup key.1 key.2 mine)

theorem observedRollup_concat (kind : CostRollupKind) (id : String)
    (mine : List (CostObservation α)) (obs : CostObservation α) :
    observedRollup kind id (mine ++ [obs]) = (observedRollup kind id mine).observe obs := by
  rw [observedRollup, List.foldl_concat, observedRollup]

theorem rollupOf_concat (observations : List (CostObservation α)) (obs : CostObservation α)
    (key : CostRollupKind × String) : rollupOf (observations ++ [obs]) key =
      if key.2 = obs.id key.1 then
        some (((rollupOf observations key).getD
          (accumulatorToRollup key.1 key.2 emptyRollupAccumulator)).observe obs)
      else rollupOf observations key := by
  by_cases hid : key.2 = obs.id key.1
  · have hmine : (observations ++ [obs]).filter (·.id key.1 == key.2) =
        observations.filter (·.id key.1 == key.2) ++ [obs] := by
      simp [List.filter_append, hid]
    rw [if_pos hid, rollupOf, hmine, rollupOf]
    cases hold : observations.filter (·.id key.1 == key.2) with
    | nil => rfl
    | cons o rest =>
      exact congrArg some (observedRollup_concat key.1 key.2 (o :: rest) obs)
  · have hmine : (observations ++ [obs]).filter (·.id key.1 == key.2) =
        observations.filter (·.id key.1 == key.2) := by
      simp [List.filter_append, Ne.symm hid]
    rw [if_neg hid, rollupOf, hmine, rollupOf]

theorem kind_observedRollup (kind : CostRollupKind) (id : String)
    (mine : List (CostObservation α)) : (observedRollup kind id mine).key = (kind, id) := by
  induction mine using List.reverseRecOn with
  | nil => rfl
  | append_singleton mine obs ih =>
    rw [observedRollup_concat]
    exact ih

/-- The sums of the rows that SQLite groups are the row. -/
theorem rollupsFromObservations_eq (observations : List (CostObservation α))
    (kind : CostRollupKind) : rollupsFromObservations observations kind =
      (observations.map (·.id kind)).dedup.mergeSort.map fun id =>
        observedRollup kind id (observations.filter (·.id kind == id)) := by
  refine List.map_congr_left fun id _ => ?_
  induction observations.filter (·.id kind == id) using List.reverseRecOn with
  | nil => rfl
  | append_singleton mine obs ih =>
    rw [observedRollup_concat, ← ih]
    simp [CostRollup.observe, List.countP_append, List.countP_singleton]

/-- What a lookup finds among the rows of one kind. -/
theorem find?_rollupsFromObservations (observations : List (CostObservation α))
    (kind kind' : CostRollupKind) (id : String) :
    (rollupsFromObservations observations kind').find? (fun row => row.key = (kind, id)) =
      if kind' = kind then rollupOf observations (kind, id) else none := by
  rw [rollupsFromObservations_eq]
  by_cases hkind : kind' = kind
  · subst hkind
    rw [if_pos rfl, List.find?_map]
    have hkey : ((fun row : CostRollup α => decide (row.key = (kind', id))) ∘ fun id' =>
        observedRollup kind' id' (observations.filter (·.id kind' == id'))) =
          fun id' => decide (id' = id) := by
      funext id'
      simp [kind_observedRollup]
    rw [hkey, rollupOf]
    cases hmine : observations.filter (·.id kind' == id) with
    | nil =>
      have hnone : ∀ id' ∈ (observations.map (·.id kind')).dedup.mergeSort, ¬ id' = id := by
        intro id' hid' hsame
        simp only [List.mem_mergeSort, List.mem_dedup, List.mem_map] at hid'
        obtain ⟨obs, hobs, rfl⟩ := hid'
        have hmem : obs ∈ observations.filter (·.id kind' == id) := by simp [hobs, hsame]
        simp [hmine] at hmem
      rw [List.find?_eq_none.2 (by simpa using hnone)]
      rfl
    | cons obs rest =>
      have hobs : obs ∈ observations.filter (·.id kind' == id) := by simp [hmine]
      obtain ⟨hmem, hid⟩ := List.mem_filter.1 hobs
      have hid' : id ∈ (observations.map (·.id kind')).dedup.mergeSort := by
        simp only [List.mem_mergeSort, List.mem_dedup, List.mem_map]
        exact ⟨obs, hmem, by simpa using hid⟩
      have hfound : (observations.map (·.id kind')).dedup.mergeSort.find? (fun id' => id' = id) =
          some id := by
        cases hfind : (observations.map (·.id kind')).dedup.mergeSort.find? (fun id' => id' = id) with
        | none => exact absurd (List.find?_eq_none.1 hfind id hid') (by simp)
        | some found => rw [(by simpa using List.find?_some hfind : found = id)]
      rw [hfound, Option.map_some, hmine]
  · rw [if_neg hkind, List.find?_eq_none]
    intro row hrow
    obtain ⟨id', -, rfl⟩ := List.mem_map.1 hrow
    simp [kind_observedRollup, hkind]

/-- The recomputed rollups are what the observations amount to. -/
theorem find?_recompute (t : CostRows α) (kind : CostRollupKind) (id : String) :
    (recomputeCostRollupsFromObservations t).rollups.find? (kind, id) =
      rollupOf t.observations.rows (kind, id) := by
  simp only [recomputeCostRollupsFromObservations, Table.find?_foldl_insert?, List.find?_append,
    find?_rollupsFromObservations]
  cases kind <;> simp [Table.find?]

/-- The order of the observations does not matter to exact amounts. -/
theorem rollupOf_perm [ExactAmount α] {observations observations' : List (CostObservation α)}
    (h : observations.Perm observations') (key : CostRollupKind × String) :
    rollupOf observations key = rollupOf observations' key := by
  have hcomm : ∀ a b c : α, a + b + c = a + c + b := fun a b c => by
    rw [ExactAmount.add_assoc, ExactAmount.add_comm b c, ← ExactAmount.add_assoc]
  have : RightCommutative (CostRollup.observe (α := α)) := ⟨fun row a b => by
    simp only [CostRollup.observe, CostRollup.mk.injEq, true_and, and_true]
    refine ⟨hcomm _ _ _, ?_, ?_, ?_, ?_, ?_, ?_, ?_, hcomm _ _ _, ?_⟩ <;>
      exact Nat.add_right_comm _ _ _⟩
  have hmine := h.filter (·.id key.1 == key.2)
  unfold rollupOf
  cases hleft : observations.filter (·.id key.1 == key.2) with
  | nil =>
    rw [hleft] at hmine
    rw [← hmine.nil_eq]
  | cons obs rest =>
    rw [hleft] at hmine
    cases hright : observations'.filter (·.id key.1 == key.2) with
    | nil => rw [hright] at hmine; simpa using hmine.length_eq
    | cons obs' rest' =>
      rw [hright] at hmine
      exact congrArg some (hmine.foldl_eq _)

/-! ## The incremental rollups -/

/-- Fold the cost events of a log, each decoded first. -/
def foldCosts (log : List (StoredEvent (CostRecorded α))) : Except String (CostRows α) :=
  log.foldlM
    (fun t event => do
      costRecordedSchema event.payload
      applyCostRecorded t event event.payload) .empty

/-- `new` is the same observation as `old`: the same turn measured the same, or the same provider
sample under any turn. -/
def repeats (old new : CostObservation α) : Bool :=
  observationsMatch old new || (new.sourceId.isSome && observationsMatchIgnoringTurn old new)

/-- The observations that repeat none before them. -/
def firsts (observations : List (CostObservation α)) : List (CostObservation α) :=
  observations.foldl (fun kept obs => if kept.any (repeats · obs) then kept else kept ++ [obs]) []

/-- The observations that a log reports. -/
def reported (log : List (StoredEvent (CostRecorded α))) : List (CostObservation α) :=
  log.map (normalizeCostObservation ·.payload)

theorem firsts_concat (observations : List (CostObservation α)) (obs : CostObservation α) :
    firsts (observations ++ [obs]) =
      if (firsts observations).any (repeats · obs) then firsts observations
      else firsts observations ++ [obs] := by
  rw [firsts, List.foldl_concat, firsts]

theorem sameSample_of_match {old new : CostObservation α}
    (h : observationsMatchIgnoringTurn old new = true) :
    old.provider = new.provider ∧ old.agent = new.agent ∧ old.task = new.task ∧
      old.sourceId = new.sourceId := by
  simp only [observationsMatchIgnoringTurn, Bool.and_eq_true, beq_iff_eq] at h
  exact ⟨h.1.1.1.1.1.1.1.1.1.1, h.1.1.1.1.1.1.1.1.1.2, h.1.1.1.1.1.1.1.1.2, h.1.1.1.1.1.1.1.2⟩

theorem key_eq_of_match {old new : CostObservation α} (h : observationsMatch old new = true) :
    old.key = new.key := by
  simp only [observationsMatch, Bool.and_eq_true, beq_iff_eq] at h
  obtain ⟨hprovider, hagent, htask, -⟩ := sameSample_of_match h.2
  simp [CostObservation.key, hprovider, hagent, htask, h.1]

omit [Amount α] in
theorem selectSameSource_eq_some {t : CostRows α} {obs old : CostObservation α}
    (h : selectSameSource t obs = some old) : old ∈ t.observations.rows ∧
      obs.sourceId.isSome = true ∧ old.provider = obs.provider ∧ old.agent = obs.agent ∧
      old.task = obs.task ∧ old.sourceId = obs.sourceId := by
  have hold := List.find?_some h
  simp only [Bool.and_eq_true, beq_iff_eq] at hold
  exact ⟨List.mem_of_find?_eq_some h, hold.1.1.1.1, hold.1.1.1.2, hold.1.1.2, hold.1.2, hold.2⟩

/-- An accepted observation repeats a kept one, or it is new by either key. -/
theorem recordCostObservation_eq_ok {t : CostRows α} {p : CostRecorded α}
    {result : Option (CostRows α)} (h : recordCostObservation t p = .ok result) :
    (result = none ∧ t.observations.rows.any (repeats · (normalizeCostObservation p)) = true ∧
      ((t.observations.find? (normalizeCostObservation p).key).any
          (observationsMatch · (normalizeCostObservation p)) = true ∨
        (selectSameSource t (normalizeCostObservation p)).any
          (observationsMatchIgnoringTurn · (normalizeCostObservation p)) = true)) ∨
    (∃ observations, t.observations.insert? (normalizeCostObservation p) = some observations ∧
      selectSameSource t (normalizeCostObservation p) = none ∧
      t.observations.rows.any (repeats · (normalizeCostObservation p)) = false ∧
      result = some { t with observations }) := by
  simp only [recordCostObservation] at h
  generalize normalizeCostObservation p = obs at h ⊢
  split at h
  · next observations hinsert hsource =>
    obtain rfl := pure_eq_ok.1 h
    refine .inr ⟨observations, hinsert, hsource, ?_, rfl⟩
    have hfree := Table.find?_eq_none.1 (Table.insert?_eq_some.1 hinsert).1
    rw [List.any_eq_false]
    intro old hold hrepeats
    simp only [repeats, Bool.or_eq_true, Bool.and_eq_true] at hrepeats
    rcases hrepeats with hturn | ⟨hsome, hsample⟩
    · exact hfree old hold (key_eq_of_match hturn)
    · obtain ⟨hprovider, hagent, htask, hid⟩ := sameSample_of_match hsample
      refine List.find?_eq_none.1 hsource old hold ?_
      simp [hsome, hprovider, hagent, htask, hid]
  · split at h
    · next hduplicate =>
      obtain rfl := pure_eq_ok.1 h
      rw [Bool.or_eq_true] at hduplicate
      refine .inl ⟨rfl, ?_, hduplicate⟩
      simp only [Option.any_eq_true] at hduplicate
      rw [List.any_eq_true]
      rcases hduplicate with ⟨old, hold, hmatch⟩ | ⟨old, hold, hmatch⟩
      · exact ⟨old, (Table.find?_eq_some.1 hold).1, by simp [repeats, hmatch]⟩
      · obtain ⟨hmem, hsome, -⟩ := selectSameSource_eq_some hold
        exact ⟨old, hmem, by simp [repeats, hmatch, hsome]⟩
    · simp at h

section

variable [ExactAmount α]

/-- The first observation of a rollup makes its row, and every other is added to it. -/
theorem rollupRow_eq (kind : CostRollupKind) (id : String) (p : CostRecorded α) :
    rollupRow kind id p =
      (accumulatorToRollup kind id emptyRollupAccumulator).observe (normalizeCostObservation p) := by
  simp [rollupRow, accumulatorToRollup, emptyRollupAccumulator, CostRollup.observe,
    normalizeCostObservation, ExactAmount.zero_add]
  exact ⟨rfl, rfl, rfl⟩

omit [ExactAmount α] in
theorem plus_rollupRow (row : CostRollup α) (kind : CostRollupKind) (id : String)
    (p : CostRecorded α) :
    row.plus (rollupRow kind id p) = row.observe (normalizeCostObservation p) := rfl

/-- The tables are what the reported observations amount to. -/
structure Rolled (observations : List (CostObservation α)) (t : CostRows α) : Prop where
  kept : t.observations.rows = firsts observations
  rollups : ∀ kind id, t.rollups.find? (kind, id) = rollupOf (firsts observations) (kind, id)

theorem Rolled.concat {observations : List (CostObservation α)} {t t' : CostRows α}
    {event : StoredEvent (CostRecorded α)} (h : Rolled observations t)
    (happly : applyCostRecorded t event event.payload = .ok t') :
    Rolled (observations ++ [normalizeCostObservation event.payload]) t' := by
  simp only [applyCostRecorded, bind_eq_ok] at happly
  obtain ⟨-, -, result, hrecord, happly⟩ := happly
  have hkept := firsts_concat observations (normalizeCostObservation event.payload)
  rw [← h.kept] at hkept
  rcases recordCostObservation_eq_ok hrecord with
    ⟨rfl, hrepeats, -⟩ | ⟨rows, hinsert, -, hnew, rfl⟩
  · obtain rfl := pure_eq_ok.1 happly
    rw [if_pos hrepeats] at hkept
    exact ⟨hkept.symm, fun kind id => by rw [h.rollups, hkept, h.kept]⟩
  · obtain rfl := pure_eq_ok.1 happly
    rw [if_neg (by simp [hnew])] at hkept
    refine ⟨(Table.insert?_eq_some.1 hinsert).2.trans hkept.symm, fun kind id => ?_⟩
    rw [find?_addToRollup, hkept, rollupOf_concat, h.rollups, h.kept]
    by_cases hid : id = (normalizeCostObservation event.payload).id kind
    · rw [if_pos hid, if_pos hid, rollupRow_eq]
      cases rollupOf (firsts observations) (kind, id) with
      | none => rfl
      | some row =>
        rw [← rollupRow_eq, Option.map_some, plus_rollupRow]
        rfl
    · rw [if_neg hid, if_neg hid]

theorem rolled_of_foldCosts {log : List (StoredEvent (CostRecorded α))} {t : CostRows α}
    (h : foldCosts log = .ok t) : Rolled (reported log) t := by
  induction log using List.reverseRecOn generalizing t with
  | nil =>
    obtain rfl := pure_eq_ok.1 h
    exact ⟨rfl, fun _ _ => rfl⟩
  | append_singleton log event ih =>
    simp only [foldCosts, List.foldlM_append, List.foldlM_cons, List.foldlM_nil, bind_eq_ok,
      pure_eq_ok] at h
    obtain ⟨mid, hmid, _, ⟨_, -, happly⟩, rfl⟩ := h
    rw [reported, List.map_append]
    exact (ih hmid).concat happly

end

/-! ## The read-only rollups agree while nothing collides -/

/-- The names of the observation are unambiguous inside a key. -/
structure PlainNames (obs : CostObservation α) : Prop where
  agent : NUL ∉ obs.agent.toList
  task : NUL ∉ obs.task.toList

omit [Amount α] in
/-- Among plain names the key of a turn is as good as the turn. -/
theorem observationTurnIdentity_inj {a b : CostObservation α} (ha : PlainNames a)
    (hb : PlainNames b) : observationTurnIdentity a = observationTurnIdentity b ↔ a.key = b.key := by
  have hturn : s!"turn:{a.turn}" = s!"turn:{b.turn}" ↔ a.turn = b.turn := by
    change "turn:" ++ toString a.turn = "turn:" ++ toString b.turn ↔ a.turn = b.turn
    rw [String.append_right_inj]
    exact ⟨Js.toString_injective, congrArg toString⟩
  simp only [observationTurnIdentity, keyed_inj (plain_provider _) (plain_provider _),
    keyed_inj ha.agent hb.agent, keyed_inj ha.task hb.task, hturn, CostObservation.key,
    Prod.mk.injEq]
  constructor
  · rintro ⟨hprovider, hrest⟩
    exact ⟨toString_provider_injective hprovider, hrest⟩
  · rintro ⟨hprovider, hrest⟩
    exact ⟨congrArg toString hprovider, hrest⟩

omit [Amount α] in
/-- Among plain names the key of a provider sample is as good as the sample. -/
theorem observationSourceIdentity_inj {a b : CostObservation α} (ha : PlainNames a)
    (hb : PlainNames b) (hsome : b.sourceId.isSome = true) :
    observationSourceIdentity a = observationSourceIdentity b ↔
      a.provider = b.provider ∧ a.agent = b.agent ∧ a.task = b.task ∧ a.sourceId = b.sourceId := by
  obtain ⟨sourceId, hsource⟩ := Option.isSome_iff_exists.1 hsome
  cases hsource' : a.sourceId with
  | none => simp [observationSourceIdentity, hsource, hsource']
  | some sourceId' =>
    simp only [observationSourceIdentity, hsource, hsource', Option.map_some, Option.some.injEq,
      keyed_inj (plain_provider _) (plain_provider _), keyed_inj ha.agent hb.agent,
      keyed_inj ha.task hb.task, String.append_right_inj]
    constructor
    · rintro ⟨hprovider, hrest⟩
      exact ⟨toString_provider_injective hprovider, hrest⟩
    · rintro ⟨hprovider, hrest⟩
      exact ⟨congrArg toString hprovider, hrest⟩

theorem plain_kind (kind : CostRollupKind) : NUL ∉ kind.text.toList := by
  cases kind <;> decide

theorem rollupKey_inj {kind kind' : CostRollupKind} {id id' : String} :
    rollupKey kind id = rollupKey kind' id' ↔ kind = kind' ∧ id = id' := by
  rw [rollupKey, rollupKey, keyed_inj (plain_kind kind) (plain_kind kind')]
  refine and_congr_left fun _ => ⟨fun h => ?_, congrArg CostRollupKind.text⟩
  cases kind <;> cases kind' <;> first | rfl | (exact absurd h (by decide))

/-- A key is read back up to the first separator of its id. -/
theorem splitRollupKey_rollupKey (kind : CostRollupKind) (id : String) :
    splitRollupKey (rollupKey kind id) = (kind, String.ofList (id.toList.takeWhile (· ≠ NUL))) := by
  simp only [splitRollupKey, rollupKey, takeWhile_keyed (plain_kind kind),
    dropWhile_keyed (plain_kind kind), List.drop_one, List.tail_cons]
  cases kind <;> rfl

theorem takeWhile_plain {id : String} (hid : NUL ∉ id.toList) :
    String.ofList (id.toList.takeWhile (· ≠ NUL)) = id := by
  rw [List.takeWhile_eq_self_iff.2 (ne_nul_of_mem hid), String.ofList_toList]

/-- The reader has counted the observations `kept`. -/
structure Seen (kept : List (CostObservation α))
    (state : ReadOnlyObservations α × Accumulators α) : Prop where
  plain : ∀ obs ∈ kept, PlainNames obs
  byTurn : state.1.byTurn.rows = kept.map fun obs => (observationTurnIdentity obs, obs)
  bySource : state.1.bySource.rows =
    kept.filterMap fun obs => (observationSourceIdentity obs).map (·, obs)
  keys : ∀ entry ∈ state.2.rows, ∃ kind id, NUL ∉ id.toList ∧ entry.1 = rollupKey kind id
  byKey : ∀ kind id, (state.2.find? (rollupKey kind id)).map
    (fun entry => accumulatorToRollup kind id entry.2) = rollupOf kept (kind, id)

theorem seen_empty : Seen ([] : List (CostObservation α)) ({}, {}) :=
  ⟨by simp, rfl, rfl, by simp, fun _ _ => rfl⟩

section

variable {t : CostRows α} {state : ReadOnlyObservations α × Accumulators α}
  {obs : CostObservation α} (hseen : Seen t.observations.rows state) (hplain : PlainNames obs)
include hseen hplain

theorem find?_byTurn : state.1.byTurn.find? (observationTurnIdentity obs) =
    (t.observations.find? obs.key).map (observationTurnIdentity obs, ·) := by
  refine Option.ext fun entry => ?_
  simp only [Table.find?_eq_some, hseen.byTurn, List.mem_map, Option.map_eq_some_iff]
  constructor
  · rintro ⟨⟨old, hold, rfl⟩, hkey⟩
    exact ⟨old, ⟨hold, (observationTurnIdentity_inj (hseen.plain old hold) hplain).1 hkey⟩,
      congrArg (·, old) hkey.symm⟩
  · rintro ⟨old, ⟨hold, hkey⟩, rfl⟩
    have hsame := (observationTurnIdentity_inj (hseen.plain old hold) hplain).2 hkey
    exact ⟨⟨old, hold, congrArg (·, old) hsame⟩, rfl⟩

theorem find?_bySource {key : String} (hkey : observationSourceIdentity obs = some key) :
    state.1.bySource.find? key = (selectSameSource t obs).map (key, ·) := by
  have hsome : obs.sourceId.isSome = true := by
    rw [← Option.isSome_map, ← observationSourceIdentity.eq_def, hkey]
    rfl
  have hmem : ∀ old ∈ t.observations.rows, (key, old) ∈ state.1.bySource.rows ↔
      old.provider = obs.provider ∧ old.agent = obs.agent ∧ old.task = obs.task ∧
        old.sourceId = obs.sourceId := by
    intro old hold
    rw [← observationSourceIdentity_inj (hseen.plain old hold) hplain hsome, hkey, hseen.bySource]
    simp only [List.mem_filterMap, Option.map_eq_some_iff, Prod.mk.injEq]
    constructor
    · rintro ⟨old', -, key', hkey', rfl, rfl⟩
      exact hkey'
    · exact fun h => ⟨old, hold, key, h, rfl, rfl⟩
  cases hsource : selectSameSource t obs with
  | none =>
    rw [Option.map_none, Table.find?_eq_none]
    rintro ⟨key', old⟩ hrow rfl
    have hold : old ∈ t.observations.rows := by
      rw [hseen.bySource] at hrow
      obtain ⟨old', hold', hrow'⟩ := List.mem_filterMap.1 hrow
      obtain ⟨_, -, heq⟩ := Option.map_eq_some_iff.1 hrow'
      exact (Prod.mk.inj heq).2 ▸ hold'
    obtain ⟨hprovider, hagent, htask, hid⟩ := (hmem old hold).1 hrow
    refine List.find?_eq_none.1 hsource old hold ?_
    simp [hsome, hprovider, hagent, htask, hid]
  | some old =>
    obtain ⟨hold, -, hsample⟩ := selectSameSource_eq_some hsource
    rw [Option.map_some, Table.find?_eq_some]
    exact ⟨(hmem old hold).2 hsample, rfl⟩

/-- The turn of the observation is that of a kept observation which is not the same. -/
def TurnClash (kept : List (CostObservation α)) (obs : CostObservation α) : Prop :=
  ∃ old ∈ kept, old.key = obs.key ∧ observationsMatch old obs = false

/-- The reader fails on a clash of turns, whatever the sample of the observation is. -/
theorem remember_of_clash (hclash : TurnClash t.observations.rows obs) :
    ∃ e, rememberReadOnlyObservation state.1 obs = .error e := by
  obtain ⟨old, hold, hkey, hmatch⟩ := hclash
  have hfind : t.observations.find? obs.key = some old := Table.find?_eq_some.2 ⟨hold, hkey⟩
  have hturn := find?_byTurn hseen hplain
  rw [hfind] at hturn
  simp only [rememberReadOnlyObservation, hturn, Option.map_some, hmatch, refuse]
  exact ⟨_, rfl⟩

/-- Without a clash the reader takes a repetition for a repetition. -/
theorem remember_of_repeats (hclash : ¬ TurnClash t.observations.rows obs)
    (hrepeats : (t.observations.find? obs.key).any (observationsMatch · obs) = true ∨
      (selectSameSource t obs).any (observationsMatchIgnoringTurn · obs) = true) :
    rememberReadOnlyObservation state.1 obs = .ok none := by
  have hturn := find?_byTurn hseen hplain
  cases hfind : t.observations.find? obs.key with
  | some old =>
    obtain ⟨hold, hkey⟩ := Table.find?_eq_some.1 hfind
    have hmatch : observationsMatch old obs = true := by
      by_contra hne
      exact hclash ⟨old, hold, hkey, by simpa using hne⟩
    rw [hfind] at hturn
    simp only [rememberReadOnlyObservation, hturn, Option.map_some, hmatch, refuse]
    rfl
  | none =>
    simp only [hfind, Option.any_none, Bool.false_eq_true, false_or, Option.any_eq_true] at hrepeats
    obtain ⟨old, hold, hmatch⟩ := hrepeats
    obtain ⟨-, hsome, -⟩ := selectSameSource_eq_some hold
    obtain ⟨key, hkey⟩ : ∃ key, observationSourceIdentity obs = some key := by
      rw [← Option.isSome_iff_exists, observationSourceIdentity, Option.isSome_map]
      exact hsome
    have hsource := find?_bySource hseen hplain hkey
    rw [hfind] at hturn
    rw [hold] at hsource
    simp only [rememberReadOnlyObservation, hturn, Option.map_none, hkey, hsource, Option.map_some,
      hmatch, refuse]
    rfl

/-- A new observation is remembered by its keys. -/
theorem remember_of_new (hturnFree : t.observations.find? obs.key = none)
    (hsourceFree : selectSameSource t obs = none) :
    ∃ seen, rememberReadOnlyObservation state.1 obs = .ok (some seen) ∧
      seen.byTurn.rows = state.1.byTurn.rows ++ [(observationTurnIdentity obs, obs)] ∧
      seen.bySource.rows =
        state.1.bySource.rows ++ ((observationSourceIdentity obs).map (·, obs)).toList := by
  have hturn := find?_byTurn hseen hplain
  rw [hturnFree, Option.map_none] at hturn
  cases hkey : observationSourceIdentity obs with
  | none =>
    simp only [rememberReadOnlyObservation, hturn, hkey]
    exact ⟨_, rfl, Table.rows_upsert_of_none hturn, by simp⟩
  | some key =>
    have hsource := find?_bySource hseen hplain hkey
    rw [hsourceFree, Option.map_none] at hsource
    simp only [rememberReadOnlyObservation, hturn, hkey, hsource]
    exact ⟨_, rfl, Table.rows_upsert_of_none hturn, Table.rows_upsert_of_none hsource⟩

end

/-- What a lookup finds after an observation was added to its two accumulators. -/
theorem find?_applyObservedCost (byKey : Accumulators α) (obs : CostObservation α)
    (kind : CostRollupKind) (id : String) :
    ((applyObservedCost (applyObservedCost byKey .agent obs.agent obs) .task obs.task obs).find?
        (rollupKey kind id)).map (fun entry => accumulatorToRollup kind id entry.2) =
      if id = obs.id kind then
        some ((((byKey.find? (rollupKey kind id)).map
          (fun entry => accumulatorToRollup kind id entry.2)).getD
            (accumulatorToRollup kind id emptyRollupAccumulator)).observe obs)
      else (byKey.find? (rollupKey kind id)).map
        (fun entry => accumulatorToRollup kind id entry.2) := by
  have hfind : (applyObservedCost (applyObservedCost byKey .agent obs.agent obs) .task obs.task
      obs).find? (rollupKey kind id) =
        if id = obs.id kind then
          some (((byKey.find? (rollupKey kind id)).map fun entry =>
            (entry.1, addObservedCost entry.2 obs)).getD
              (rollupKey kind id, addObservedCost emptyRollupAccumulator obs))
        else byKey.find? (rollupKey kind id) := by
    cases kind <;>
      simp only [applyObservedCost, Table.find?_upsert, rollupKey_inj, reduceCtorEq, false_and,
        true_and, if_false, CostObservation.id] <;>
      split <;> simp_all
  rw [hfind]
  split
  · cases byKey.find? (rollupKey kind id) with
    | none => rfl
    | some entry => rfl
  · rfl

theorem mem_applyObservedCost {byKey : Accumulators α} {obs : CostObservation α}
    {kind : CostRollupKind} {id : String} {entry : String × CostRollupAccumulator α}
    (h : entry ∈ (applyObservedCost byKey kind id obs).rows) :
    (∃ old ∈ byKey.rows, entry.1 = old.1) ∨ entry.1 = rollupKey kind id := by
  rcases Table.mem_upsert h with hold | ⟨old, hold, -, rfl⟩ | rfl
  · exact .inl ⟨entry, hold, rfl⟩
  · exact .inl ⟨old, hold, rfl⟩
  · exact .inr rfl

/-- One event of the log, seen by the fold and by the reader. -/
theorem Seen.step {t t' : CostRows α} {state : ReadOnlyObservations α × Accumulators α}
    {event : StoredEvent (CostRecorded α)} (hseen : Seen t.observations.rows state)
    (hplain : PlainNames (normalizeCostObservation event.payload))
    (hschema : costRecordedSchema event.payload = .ok ())
    (happly : applyCostRecorded t event event.payload = .ok t') :
    (TurnClash t.observations.rows (normalizeCostObservation event.payload) →
      ∃ e, readOnlyStep state event.payload = .error e) ∧
    (¬ TurnClash t.observations.rows (normalizeCostObservation event.payload) →
      ∃ state', readOnlyStep state event.payload = .ok state' ∧
        Seen t'.observations.rows state') := by
  simp only [applyCostRecorded, bind_eq_ok] at happly
  obtain ⟨-, -, result, hrecord, happly⟩ := happly
  have hstep : readOnlyStep state event.payload = do
      match ← rememberReadOnlyObservation state.1 (normalizeCostObservation event.payload) with
      | none => return state
      | some seen => return (seen, applyObservedCost (applyObservedCost state.2 .agent
          (normalizeCostObservation event.payload).agent (normalizeCostObservation event.payload))
          .task (normalizeCostObservation event.payload).task
          (normalizeCostObservation event.payload)) := by
    rw [readOnlyStep, hschema]
    rfl
  rw [hstep]
  constructor
  · intro hclash
    obtain ⟨e, he⟩ := remember_of_clash hseen hplain hclash
    rw [he]
    exact ⟨e, rfl⟩
  · intro hclash
    rcases recordCostObservation_eq_ok hrecord with
      ⟨rfl, -, hrepeats⟩ | ⟨rows, hinsert, hsourceFree, -, rfl⟩
    · obtain rfl := pure_eq_ok.1 happly
      rw [remember_of_repeats hseen hplain hclash hrepeats]
      exact ⟨state, rfl, hseen⟩
    · obtain rfl := pure_eq_ok.1 happly
      obtain ⟨hturnFree, hrows⟩ := Table.insert?_eq_some.1 hinsert
      obtain ⟨seen, hremember, hbyTurn, hbySource⟩ :=
        remember_of_new hseen hplain hturnFree hsourceFree
      rw [hremember]
      refine ⟨_, rfl, ?_⟩
      change Seen rows.rows _
      rw [hrows]
      refine ⟨?_, ?_, ?_, ?_, fun kind id => ?_⟩
      · intro obs hobs
        rcases List.mem_append.1 hobs with hobs | hobs
        · exact hseen.plain obs hobs
        · exact List.mem_singleton.1 hobs ▸ hplain
      · rw [hbyTurn, hseen.byTurn, List.map_append]
        rfl
      · rw [hbySource, hseen.bySource, List.filterMap_append]
        cases hkey : observationSourceIdentity (normalizeCostObservation event.payload) <;>
          simp [hkey]
      · intro entry hentry
        rcases mem_applyObservedCost hentry with ⟨mid, hmid, hsame⟩ | hnew
        · rcases mem_applyObservedCost hmid with ⟨old, hold, hsame'⟩ | hnew
          · rw [hsame, hsame']
            exact hseen.keys old hold
          · exact ⟨_, _, hplain.agent, hsame.trans hnew⟩
        · exact ⟨_, _, hplain.task, hnew⟩
      · rw [find?_applyObservedCost, rollupOf_concat, hseen.byKey]

/-! ## Agreement over a whole log -/

/-- No observation of the list takes the turn of a counted one that was measured otherwise. -/
def TurnsApart (observations : List (CostObservation α)) : Prop :=
  ∀ before obs after, observations = before ++ obs :: after → ¬ TurnClash (firsts before) obs

theorem turnsApart_nil : TurnsApart ([] : List (CostObservation α)) := by
  intro before obs after h
  simp at h

theorem turnsApart_concat (observations : List (CostObservation α)) (obs : CostObservation α) :
    TurnsApart (observations ++ [obs]) ↔
      TurnsApart observations ∧ ¬ TurnClash (firsts observations) obs := by
  constructor
  · intro h
    refine ⟨fun before old after hsplit => h before old (after ++ [obs]) ?_, h observations obs [] rfl⟩
    rw [hsplit, List.append_assoc, List.cons_append]
  · rintro ⟨hbefore, hlast⟩ before old after hsplit
    induction after using List.reverseRecOn with
    | nil =>
      obtain ⟨rfl, heq⟩ := List.append_inj' hsplit rfl
      obtain rfl := (List.cons.inj heq).1
      exact hlast
    | append_singleton after last _ =>
      rw [← List.cons_append, ← List.append_assoc] at hsplit
      exact hbefore before old after (List.append_inj' hsplit rfl).1

section

variable [ExactAmount α]

/-- The reader gets through a log just when no turns clash in it, and has then counted what the
fold has kept. -/
theorem seen_of_foldCosts {log : List (StoredEvent (CostRecorded α))} {t : CostRows α}
    (h : foldCosts log = .ok t) (hplain : ∀ obs ∈ reported log, PlainNames obs) :
    (TurnsApart (reported log) → ∃ state,
      (log.map (·.payload)).foldlM readOnlyStep ({}, {}) = .ok state ∧
        Seen t.observations.rows state) ∧
    (¬ TurnsApart (reported log) →
      ∃ e, (log.map (·.payload)).foldlM readOnlyStep ({}, {}) = .error e) := by
  induction log using List.reverseRecOn generalizing t with
  | nil =>
    obtain rfl := pure_eq_ok.1 h
    exact ⟨fun _ => ⟨_, rfl, seen_empty⟩, fun hclash => absurd turnsApart_nil hclash⟩
  | append_singleton log event ih =>
    simp only [foldCosts, List.foldlM_append, List.foldlM_cons, List.foldlM_nil, bind_eq_ok,
      pure_eq_ok] at h
    obtain ⟨mid, hmid, _, ⟨⟨⟩, hschema, happly⟩, rfl⟩ := h
    have hreported : reported (log ++ [event]) =
        reported log ++ [normalizeCostObservation event.payload] := by
      rw [reported, List.map_append]
      rfl
    rw [hreported] at hplain ⊢
    obtain ⟨hrun, hstop⟩ := ih hmid fun obs hobs => hplain obs (List.mem_append_left _ hobs)
    have hkept := (rolled_of_foldCosts hmid).kept
    have hlast := hplain _ (List.mem_append_right _ (List.mem_singleton_self _))
    rw [turnsApart_concat, List.map_append, List.foldlM_append]
    by_cases hapart : TurnsApart (reported log)
    · obtain ⟨state, hstate, hseen⟩ := hrun hapart
      obtain ⟨hclash, hstep⟩ := hseen.step hlast hschema happly
      rw [hstate, ← hkept]
      constructor
      · rintro ⟨-, hfree⟩
        obtain ⟨state', hstate', hseen'⟩ := hstep hfree
        refine ⟨state', ?_, hseen'⟩
        change (readOnlyStep state event.payload >>= pure) = _
        rw [hstate']
        rfl
      · intro hnot
        obtain ⟨e, he⟩ := hclash (by_contra fun hfree => hnot ⟨hapart, hfree⟩)
        refine ⟨e, ?_⟩
        change (readOnlyStep state event.payload >>= pure) = _
        rw [he]
        rfl
    · obtain ⟨e, he⟩ := hstop hapart
      rw [he]
      exact ⟨fun hboth => absurd hboth.1 hapart, fun _ => ⟨e, rfl⟩⟩

end

/-- The rollup that a reader of raw events reports under a key. -/
def readOnlyRollup (rows : List (CostRollup α)) (kind : CostRollupKind) (id : String) :
    Option (CostRollup α) :=
  rows.find? fun row => row.key = (kind, id)

/-- The kept rollups are those recomputed from the stored observations, read in any order, and
those read off the raw events. -/
structure RollupsAgree (t : CostRows α) (payloads : List (CostRecorded α)) : Prop where
  recomputed : ∀ t' : CostRows α, t'.observations.rows.Perm t.observations.rows →
    ∀ kind id, (recomputeCostRollupsFromObservations t').rollups.find? (kind, id) =
      t.rollups.find? (kind, id)
  readOnly : ∃ rows, readOnlyRollupsFromEvents payloads = .ok rows ∧
    ∀ kind id, readOnlyRollup rows kind id = t.rollups.find? (kind, id)

/-- What the reader reports is what it has counted. -/
theorem Seen.readOnlyRollups {kept : List (CostObservation α)}
    {state : ReadOnlyObservations α × Accumulators α} (hseen : Seen kept state)
    {payloads : List (CostRecorded α)}
    (hstate : payloads.foldlM readOnlyStep ({}, {}) = .ok state) :
    ∃ rows, readOnlyRollupsFromEvents payloads = .ok rows ∧
      ∀ kind id, readOnlyRollup rows kind id = rollupOf kept (kind, id) := by
  have hread : readOnlyRollupsFromEvents payloads = .ok (state.2.rows.map fun (key, acc) =>
      accumulatorToRollup (splitRollupKey key).1 (splitRollupKey key).2 acc) := by
    rw [readOnlyRollupsFromEvents, hstate]
    rfl
  refine ⟨_, hread, fun kind id => ?_⟩
  have hsplit : ∀ entry ∈ state.2.rows, splitRollupKey entry.1 = (kind, id) ↔
      entry.1 = rollupKey kind id := by
    intro entry hentry
    obtain ⟨kind', id', hid', hentry'⟩ := hseen.keys entry hentry
    rw [hentry', splitRollupKey_rollupKey, takeWhile_plain hid', rollupKey_inj, Prod.mk.injEq]
  have hfind : state.2.rows.find? (fun entry => decide (splitRollupKey entry.1 = (kind, id))) =
      state.2.find? (rollupKey kind id) :=
    List.find?_congr fun entry hentry => decide_eq_decide.2 (hsplit entry hentry)
  rw [← hseen.byKey, ← hfind, readOnlyRollup, List.find?_map]
  refine Option.map_congr fun (key, acc) hentry => ?_
  have hfound := List.find?_some hentry
  change decide (splitRollupKey key = (kind, id)) = true at hfound
  change accumulatorToRollup (splitRollupKey key).1 (splitRollupKey key).2 acc =
    accumulatorToRollup kind id acc
  rw [of_decide_eq_true hfound]

/-- A reported id ends at the first separator. -/
theorem plain_readOnlyRollupsFromEvents {payloads : List (CostRecorded α)}
    {rows : List (CostRollup α)} (h : readOnlyRollupsFromEvents payloads = .ok rows) :
    ∀ row ∈ rows, NUL ∉ row.id.toList := by
  simp only [readOnlyRollupsFromEvents, bind_eq_ok] at h
  obtain ⟨state, -, h⟩ := h
  obtain rfl := pure_eq_ok.1 h
  intro row hrow hmem
  obtain ⟨entry, -, rfl⟩ := List.mem_map.1 hrow
  simp only [accumulatorToRollup, splitRollupKey, String.toList_ofList] at hmem
  simpa using List.mem_takeWhile_imp hmem

/-- Whatever is reported, an observation of the same names is counted. -/
theorem exists_firsts {observations : List (CostObservation α)} {obs : CostObservation α}
    (h : obs ∈ observations) :
    ∃ old ∈ firsts observations, ∀ kind, old.id kind = obs.id kind := by
  induction observations using List.reverseRecOn with
  | nil => cases h
  | append_singleton observations last ih =>
    rw [firsts_concat]
    rcases List.mem_append.1 h with hobs | hlast
    · obtain ⟨old, hold, hid⟩ := ih hobs
      split
      · exact ⟨old, hold, hid⟩
      · exact ⟨old, List.mem_append_left _ hold, hid⟩
    · obtain rfl := List.mem_singleton.1 hlast
      split
      · next hrepeats =>
        obtain ⟨old, hold, hmatch⟩ := List.any_eq_true.1 hrepeats
        refine ⟨old, hold, ?_⟩
        simp only [repeats, observationsMatch, Bool.or_eq_true, Bool.and_eq_true] at hmatch
        have hsame : observationsMatchIgnoringTurn old obs = true :=
          hmatch.elim And.right And.right
        obtain ⟨-, hagent, htask, -⟩ := sameSample_of_match hsame
        intro kind
        cases kind with
        | agent => exact hagent
        | task => exact htask
      · exact ⟨obs, List.mem_append_right _ (List.mem_singleton_self _), fun _ => rfl⟩

/-- An observation has a rollup of either kind. -/
theorem isSome_rollupOf {observations : List (CostObservation α)} {obs : CostObservation α}
    (h : obs ∈ observations) (kind : CostRollupKind) :
    (rollupOf observations (kind, obs.id kind)).isSome = true := by
  have hmem : obs ∈ observations.filter (·.id kind == obs.id kind) := by simp [h]
  rw [rollupOf]
  split
  · next hnone => simp [hnone] at hmem
  · rfl

/-- The three ways to the rollups of a log agree just when no name holds the separator of the
reader's keys and no observation takes the turn of another. -/
theorem cost_rollups_agree_iff [ExactAmount α] {log : List (StoredEvent (CostRecorded α))}
    {t : CostRows α} (h : foldCosts log = .ok t) :
    RollupsAgree t (log.map (·.payload)) ↔
      (∀ obs ∈ reported log, PlainNames obs) ∧ TurnsApart (reported log) := by
  have hrolled := rolled_of_foldCosts h
  constructor
  · rintro ⟨-, rows, hread, hrows⟩
    have hplain : ∀ obs ∈ reported log, PlainNames obs := by
      intro obs hobs
      have hid : ∀ kind, NUL ∉ (obs.id kind).toList := by
        intro kind
        obtain ⟨old, hold, hid⟩ := exists_firsts hobs
        have hsome := isSome_rollupOf hold kind
        rw [hid, ← hrolled.rollups, ← hrows] at hsome
        obtain ⟨row, hrow⟩ := Option.isSome_iff_exists.1 hsome
        have hkey : row.key = (kind, obs.id kind) := by simpa using List.find?_some hrow
        rw [← (Prod.mk.inj hkey).2]
        exact plain_readOnlyRollupsFromEvents hread row (List.mem_of_find?_eq_some hrow)
      exact ⟨hid .agent, hid .task⟩
    refine ⟨hplain, by_contra fun hclash => ?_⟩
    obtain ⟨e, he⟩ := (seen_of_foldCosts h hplain).2 hclash
    simp only [readOnlyRollupsFromEvents, he] at hread
    cases hread
  · rintro ⟨hplain, hapart⟩
    obtain ⟨state, hstate, hseen⟩ := (seen_of_foldCosts h hplain).1 hapart
    obtain ⟨rows, hread, hrows⟩ := hseen.readOnlyRollups hstate
    refine ⟨fun t' hperm kind id => ?_, rows, hread, fun kind id => ?_⟩
    · rw [find?_recompute, rollupOf_perm hperm, hrolled.rollups, hrolled.kept]
    · rw [hrows, hrolled.rollups, hrolled.kept]

end

/-- The fold over a log of costs is what the projector does with tables it has folded itself. -/
theorem applyRows_costRecorded {costEvents : List CostRecorded} {t : CostRows}
    {event : StoredEvent DispatchEvent} {p : CostRecorded} (h : Counted t)
    (hpayload : event.payload = .costRecorded p) :
    CostProjector.applyRows costEvents t event = applyCostRecorded t event p := by
  rw [CostProjector.applyRows, h.backfill, hpayload]
  rfl

/-! ## Costs as rational numbers -/

instance : Amount ℚ where
  nonnegative path value :=
    refuse (value < 0) s!"{path}: Too small: expected number to be >=0"

instance : ExactAmount ℚ where
  zero_add := Rat.zero_add
  add_assoc := Rat.add_assoc
  add_comm := Rat.add_comm

/-- One dollar spent in a turn, as some provider sample. -/
def dollarSpent (seq turn : ℕ) (sourceId : String) (costUsd : ℚ) : StoredEvent (CostRecorded ℚ) where
  scope := costScope "lead"
  v := 1
  payload := {
    provider := .claude
    agent := "lead"
    task := "t1"
    turn
    sourceId := some sourceId
    costUsd := some costUsd }
  seq
  ts := seq

theorem cost_rollups_agree_iff_of_resample : ∃ t,
    foldCosts [dollarSpent 1 1 "s1" 1, dollarSpent 2 7 "s1" 1] = .ok t ∧
      RollupsAgree t ([dollarSpent 1 1 "s1" 1, dollarSpent 2 7 "s1" 1].map (·.payload)) := by
  have hfold : (foldCosts [dollarSpent 1 1 "s1" 1, dollarSpent 2 7 "s1" 1]).toOption.isSome =
      true := by decide +kernel
  obtain ⟨t, ht⟩ := exists_eq_ok hfold
  refine ⟨t, ht, (cost_rollups_agree_iff ht).2 ⟨?_, ?_⟩⟩
  · intro obs hobs
    have hnames : obs.agent = "lead" ∧ obs.task = "t1" := by
      simp only [reported, List.map_cons, List.map_nil, List.mem_cons, List.not_mem_nil,
        or_false] at hobs
      rcases hobs with rfl | rfl <;> exact ⟨rfl, rfl⟩
    exact ⟨by rw [hnames.1]; decide, by rw [hnames.2]; decide⟩
  · have hsplit : reported [dollarSpent 1 1 "s1" 1, dollarSpent 2 7 "s1" 1] =
        [] ++ [normalizeCostObservation (dollarSpent 1 1 "s1" 1).payload] ++
          [normalizeCostObservation (dollarSpent 2 7 "s1" 1).payload] := rfl
    rw [hsplit, turnsApart_concat, turnsApart_concat]
    refine ⟨⟨turnsApart_nil, ?_⟩, ?_⟩
    · rintro ⟨old, hold, -⟩
      cases hold
    · rintro ⟨old, hold, hkey, -⟩
      obtain rfl := List.mem_singleton.1 hold
      exact absurd (congrArg (·.2.2.2) hkey) (by decide)

/-- A sample that comes again under the turn of another sample: the fold takes it for the
repetition it is, and the reader fails. -/
def resampledLog : List (StoredEvent (CostRecorded ℚ)) :=
  [dollarSpent 1 1 "s1" 1, dollarSpent 2 2 "s2" 2, dollarSpent 3 2 "s1" 1]

theorem resampled_turn_disagrees :
    ∃ t, foldCosts resampledLog = .ok t ∧ ¬ RollupsAgree t (resampledLog.map (·.payload)) := by
  have hfold : (foldCosts resampledLog).toOption.isSome = true := by decide +kernel
  obtain ⟨t, ht⟩ := exists_eq_ok hfold
  refine ⟨t, ht, fun ⟨_, rows, hread, _⟩ => ?_⟩
  have hfails : (readOnlyRollupsFromEvents (resampledLog.map (·.payload))).toOption = none := by
    decide +kernel
  rw [hread] at hfails
  cases hfails

end Orchestration.Dispatch
