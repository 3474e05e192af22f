import Orchestration.Library.Fallible
import Orchestration.Store.Event

/-!
# Worktree events

A sandbox is created for a branch with a base commit, its test baseline is
captured once, its worker records finishes, and at the end it is removed.
-/

namespace Orchestration.Worktrees

open Fallible

def worktreeScope (branch : String) : String := "worktree:" ++ branch

def baselineScope (branch : String) : String := "baseline:" ++ branch

def finishScope (branch : String) : String := "finish:" ++ branch

/-- How one working essential was placed in a sandbox. -/
inductive ProvisionMechanism where
  | symlink
  | copy
  | isolatedCopy
  | workspaceNodeModules
deriving DecidableEq, Repr

structure WorktreeProvisionedEntry where
  path : String
  mechanism : ProvisionMechanism
deriving DecidableEq, Repr

structure WorktreeCreated where
  branch : String
  baseRef : String
  baseSha : String
  path : String
  parent : String
  agent : Option String := none
  role : Option String := none
  subRole : Option String := none
  provisioned : Option (List WorktreeProvisionedEntry) := none
deriving DecidableEq, Repr

structure TestOutcome where
  name : String
  passed : Bool
deriving DecidableEq, Repr

structure BaselineCaptured where
  branch : String
  baseRef : String
  baseSha : String
  tests : List TestOutcome
deriving DecidableEq, Repr

structure FinishRecorded where
  branch : String
  baseSha : String
  commitSha : String
  tests : List TestOutcome
  agent : Option String := none
deriving DecidableEq, Repr

/-- What a worktree-store event carries. -/
inductive WorktreeEvent where
  | created (created : WorktreeCreated)
  | baseline (baseline : BaselineCaptured)
  | finish (finish : FinishRecorded)
  | removed (branch : String)
deriving DecidableEq, Repr

def WorktreeEvent.typeName : WorktreeEvent → String
  | .created _ => "worktree.created"
  | .baseline _ => "baseline.captured"
  | .finish _ => "finish.recorded"
  | .removed _ => "worktree.removed"

/-- The payload schema of each worktree event, checked on append and on every read. -/
def worktreeSchemas (event : WorktreeEvent) : Except String WorktreeEvent := do
  match event with
  | .created rec =>
    minLength1 "branch" rec.branch
    minLength1 "baseRef" rec.baseRef
    minLength1 "baseSha" rec.baseSha
    minLength1 "path" rec.path
    minLength1 "parent" rec.parent
    whenSome rec.agent (minLength1 "agent")
    whenSome rec.role (minLength1 "role")
    whenSome rec.subRole (minLength1 "subRole")
    whenSome rec.provisioned fun entries =>
      entries.forM fun entry => minLength1 "provisioned" entry.path
  | .baseline b =>
    minLength1 "branch" b.branch
    minLength1 "baseRef" b.baseRef
    minLength1 "baseSha" b.baseSha
  | .finish f =>
    minLength1 "branch" f.branch
    minLength1 "baseSha" f.baseSha
    minLength1 "commitSha" f.commitSha
    whenSome f.agent (minLength1 "agent")
  | .removed branch => minLength1 "branch" branch
  return event

def makeWorktreeCreatedEvent (rec : WorktreeCreated) : Except String (NewEvent WorktreeEvent) := do
  let payload ← worktreeSchemas (.created rec)
  return { scope := worktreeScope rec.branch, v := 1, payload, actor := rec.parent }

def makeBaselineCapturedEvent (b : BaselineCaptured) : Except String (NewEvent WorktreeEvent) := do
  let payload ← worktreeSchemas (.baseline b)
  return { scope := baselineScope b.branch, v := 1, payload }

def makeFinishRecordedEvent (f : FinishRecorded) : Except String (NewEvent WorktreeEvent) := do
  let payload ← worktreeSchemas (.finish f)
  return { scope := finishScope f.branch, v := 1, payload, actor := f.agent }

def makeWorktreeRemovedEvent (branch : String) : Except String (NewEvent WorktreeEvent) := do
  let payload ← worktreeSchemas (.removed branch)
  return { scope := worktreeScope branch, v := 1, payload }

/-- A sandbox as its row stores it. -/
structure WorktreeRecord where
  branch : String
  baseRef : String
  baseSha : String
  path : String
  parent : String
  agent : Option String
  role : Option String
  subRole : Option String
  createdTs : ℕ
  removed : Bool
  provisioned : Option (List WorktreeProvisionedEntry)
deriving DecidableEq, Repr

structure Baseline where
  branch : String
  baseRef : String
  baseSha : String
  tests : List TestOutcome
  capturedTs : ℕ
deriving DecidableEq, Repr

structure FinishRecord where
  branch : String
  baseSha : String
  commitSha : String
  tests : List TestOutcome
  recordedTs : ℕ
  recordedSeq : Option ℕ
  agent : Option String
deriving DecidableEq, Repr

/-- A built event carries exactly what the schema accepted. -/
theorem worktreeSchemas_eq {event event' : WorktreeEvent}
    (h : worktreeSchemas event = .ok event') : event' = event := by
  unfold worktreeSchemas at h
  cases event <;> simp only [bind_eq_ok, pure_eq_ok] at h <;> grind

end Orchestration.Worktrees
