import Orchestration.Library.Table
import Orchestration.Worktrees.Events

/-!
# The worktree read model

One row for each sandbox, baseline and latest finish, all keyed by branch. A
branch with a live sandbox cannot be created again; a removed one can, and then
starts without the baseline and the finish of its previous life.
-/

namespace Orchestration.Worktrees

open Fallible

/-- The worktree tables as the database holds them. -/
structure WorktreeRows where
  worktrees : Table WorktreeRecord.branch := {}
  baselines : Table Baseline.branch := {}
  finishes : Table FinishRecord.branch := {}

/-- Fold a creation: a fresh branch, or one whose sandbox was removed. -/
def applyCreated (t : WorktreeRows) (event : StoredEvent WorktreeEvent)
    (rec : WorktreeCreated) : Except String WorktreeRows := do
  let record : WorktreeRecord := {
    branch := rec.branch
    baseRef := rec.baseRef
    baseSha := rec.baseSha
    path := rec.path
    parent := rec.parent
    agent := rec.agent
    role := rec.role
    subRole := rec.subRole
    createdTs := event.ts
    removed := false
    provisioned := rec.provisioned }
  match t.worktrees.find? rec.branch with
  | some existing =>
    refuse (!existing.removed)
      s!"worktree.created: branch '{rec.branch}' already has a live worktree record."
    return {
      baselines := t.baselines.filter (·.branch != rec.branch)
      finishes := t.finishes.filter (·.branch != rec.branch)
      worktrees := t.worktrees.upsert record
        { run := fun row => { record with branch := row.branch } } }
  | none =>
    let worktrees ← orThrow (t.worktrees.insert? record) "UNIQUE constraint failed: worktrees.branch"
    return { t with worktrees }

/-- Fold a baseline; a branch has one. -/
def applyBaseline (t : WorktreeRows) (event : StoredEvent WorktreeEvent)
    (b : BaselineCaptured) : Except String WorktreeRows := do
  let row : Baseline := {
    branch := b.branch
    baseRef := b.baseRef
    baseSha := b.baseSha
    tests := b.tests
    capturedTs := event.ts }
  let baselines ← orThrow (t.baselines.insert? row) "UNIQUE constraint failed: baselines.branch"
  return { t with baselines }

/-- Fold a finish; the last one of a branch stands. -/
def applyFinish (t : WorktreeRows) (event : StoredEvent WorktreeEvent) (f : FinishRecorded) :
    WorktreeRows :=
  let row : FinishRecord := {
    branch := f.branch
    baseSha := f.baseSha
    commitSha := f.commitSha
    tests := f.tests
    recordedTs := event.ts
    recordedSeq := some event.seq
    agent := f.agent }
  { t with finishes := t.finishes.upsert row { run := fun old => { row with branch := old.branch } } }

/-- Fold a removal. -/
def applyRemoved (t : WorktreeRows) (branch : String) : WorktreeRows :=
  { t with
    worktrees := t.worktrees.updateWhere (·.branch == branch)
      { run := fun row => { row with removed := true } } }

/-- Give the finishes of older builds the log position of their branch's latest finish event. -/
def backfillFinishRecordedSeq (finishEvents : List (ℕ × FinishRecorded)) (t : WorktreeRows) :
    WorktreeRows :=
  { t with
    finishes := t.finishes.updateWhere (·.recordedSeq.isNone)
      { run := fun row => { row with
          recordedSeq := ((finishEvents.filter (·.2.branch == row.branch)).getLast?).map (·.1) } } }

/-- Bring the tables up to date with the finish events of the log, then fold one decoded event. -/
def WorktreeProjector.applyRows (finishEvents : List (ℕ × FinishRecorded)) (t : WorktreeRows)
    (event : StoredEvent WorktreeEvent) : Except String WorktreeRows :=
  let t := backfillFinishRecordedSeq finishEvents t
  match event.payload with
  | .created rec => applyCreated t event rec
  | .baseline b => applyBaseline t event b
  | .finish f => pure (applyFinish t event f)
  | .removed branch => pure (applyRemoved t branch)

/-! ## Nothing to repair -/

/-- Every finish knows its event. -/
def Sequenced (t : WorktreeRows) : Prop := ∀ row ∈ t.finishes.rows, row.recordedSeq.isSome = true

/-- There is nothing to repair, whatever the log says. -/
theorem Sequenced.backfill {t : WorktreeRows} (h : Sequenced t)
    (finishEvents : List (ℕ × FinishRecorded)) : backfillFinishRecordedSeq finishEvents t = t := by
  refine congrArg (fun finishes => { t with finishes }) (Table.updateWhere_eq_self ?_)
  intro row hrow hnone
  have hsome := h row hrow
  rw [Option.isNone_iff_eq_none.1 hnone] at hsome
  cases hsome

theorem Sequenced.applyRows {finishEvents : List (ℕ × FinishRecorded)} {t t' : WorktreeRows}
    {event : StoredEvent WorktreeEvent} (h : Sequenced t)
    (happly : WorktreeProjector.applyRows finishEvents t event = .ok t') : Sequenced t' := by
  rw [WorktreeProjector.applyRows, h.backfill] at happly
  cases hevent : event.payload with
  | created rec =>
    simp only [hevent, applyCreated] at happly
    cases hexisting : t.worktrees.find? rec.branch with
    | some existing =>
      simp only [hexisting, bind_eq_ok, pure_eq_ok] at happly
      obtain ⟨-, -, rfl⟩ := happly
      exact fun row hrow => h row (Table.mem_filter.1 hrow).1
    | none =>
      simp only [hexisting, bind_eq_ok, pure_eq_ok] at happly
      obtain ⟨worktrees, -, rfl⟩ := happly
      exact h
  | baseline b =>
    simp only [hevent, applyBaseline, bind_eq_ok, pure_eq_ok] at happly
    obtain ⟨baselines, -, rfl⟩ := happly
    exact h
  | finish f =>
    simp only [hevent, pure_eq_ok] at happly
    subst happly
    intro row hrow
    rcases Table.mem_upsert hrow with hrow | ⟨old, -, -, rfl⟩ | rfl
    · exact h row hrow
    · rfl
    · rfl
  | removed branch =>
    simp only [hevent, pure_eq_ok] at happly
    subst happly
    exact h

/-- The worktree tables of this build: there is nothing to repair in them. -/
structure WorktreeTables extends WorktreeRows where
  sequenced : Sequenced toWorktreeRows

def WorktreeTables.empty : WorktreeTables where
  sequenced _ hrow := absurd hrow List.not_mem_nil

/-- Bring the tables up to date with the finish events of the log. -/
def ensureWorktreeTables (finishEvents : List (ℕ × FinishRecorded)) (t : WorktreeTables) :
    WorktreeTables :=
  { backfillFinishRecordedSeq finishEvents t.toWorktreeRows with
    sequenced := (t.sequenced.backfill finishEvents).symm ▸ t.sequenced }

@[simp] theorem ensureWorktreeTables_eq (finishEvents : List (ℕ × FinishRecorded))
    (t : WorktreeTables) : ensureWorktreeTables finishEvents t = t := by
  have hnoop := t.sequenced.backfill finishEvents
  cases t
  simp only [ensureWorktreeTables, WorktreeTables.mk.injEq]
  exact hnoop

def selectWorktree (t : WorktreeTables) (branch : String) : Option WorktreeRecord :=
  t.worktrees.find? branch

def selectBaseline (t : WorktreeTables) (branch : String) : Option Baseline :=
  t.baselines.find? branch

def selectFinish (t : WorktreeTables) (branch : String) : Option FinishRecord :=
  t.finishes.find? branch

/-- The worktree projector: fold one decoded event, with the finish events of the log at hand. -/
def WorktreeProjector.apply (finishEvents : List (ℕ × FinishRecorded)) (t : WorktreeTables)
    (event : StoredEvent WorktreeEvent) : Except String WorktreeTables :=
  match h : WorktreeProjector.applyRows finishEvents t.toWorktreeRows event with
  | .ok rows => .ok { rows with sequenced := t.sequenced.applyRows h }
  | .error e => .error e

theorem WorktreeProjector.rows_of_apply {finishEvents : List (ℕ × FinishRecorded)}
    {t t' : WorktreeTables} {event : StoredEvent WorktreeEvent}
    (h : WorktreeProjector.apply finishEvents t event = .ok t') :
    WorktreeProjector.applyRows finishEvents t.toWorktreeRows event = .ok t'.toWorktreeRows := by
  unfold WorktreeProjector.apply at h
  split at h
  · next rows hrows =>
    cases h
    exact hrows
  · cases h

/-- What a fold makes of the tables, which are always up to date. -/
theorem WorktreeTables.applyRows_eq (t : WorktreeTables) (finishEvents : List (ℕ × FinishRecorded))
    (event : StoredEvent WorktreeEvent) :
    WorktreeProjector.applyRows finishEvents t.toWorktreeRows event =
      match event.payload with
      | .created rec => applyCreated t.toWorktreeRows event rec
      | .baseline b => applyBaseline t.toWorktreeRows event b
      | .finish f => pure (applyFinish t.toWorktreeRows event f)
      | .removed branch => pure (applyRemoved t.toWorktreeRows branch) := by
  rw [WorktreeProjector.applyRows, t.sequenced.backfill]

/-- The row of a folded creation. -/
theorem find?_applyCreated {t t' : WorktreeRows} {event : StoredEvent WorktreeEvent}
    {rec : WorktreeCreated} (h : applyCreated t event rec = .ok t') :
    ∃ row, t'.worktrees.find? rec.branch = some row ∧ row.removed = false ∧
      row.agent = rec.agent ∧ row.path = rec.path := by
  unfold applyCreated at h
  cases hfind : t.worktrees.find? rec.branch with
  | some existing =>
    simp only [hfind, bind_eq_ok, pure_eq_ok] at h
    obtain ⟨-, -, rfl⟩ := h
    simp only [Table.find?_upsert, if_true, hfind, Option.map_some, Option.getD_some]
    exact ⟨_, rfl, rfl, rfl, rfl⟩
  | none =>
    simp only [hfind, bind_eq_ok, orThrow_eq_ok, pure_eq_ok] at h
    obtain ⟨worktrees, hinsert, rfl⟩ := h
    simp only [Table.find?_insert? hinsert, if_true]
    exact ⟨_, rfl, rfl, rfl, rfl⟩

/-- What is folded does not depend on the rest of the log. -/
theorem WorktreeProjector.apply_log (finishEvents finishEvents' : List (ℕ × FinishRecorded))
    (t : WorktreeTables) (event : StoredEvent WorktreeEvent) :
    WorktreeProjector.apply finishEvents t event = WorktreeProjector.apply finishEvents' t event := by
  have hrows : WorktreeProjector.applyRows finishEvents t.toWorktreeRows event =
      WorktreeProjector.applyRows finishEvents' t.toWorktreeRows event := by
    rw [WorktreeProjector.applyRows, WorktreeProjector.applyRows, t.sequenced.backfill,
      t.sequenced.backfill]
  unfold WorktreeProjector.apply
  split <;> split <;> simp_all

end Orchestration.Worktrees
