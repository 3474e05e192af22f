import Orchestration.Review.Store
import Orchestration.Roles.Projector
import Orchestration.Worktrees.Store
import Mathlib.Data.List.Sort

/-!
# The cap on active children

A parent keeps only so many children at work. Which of them count is decided by two
predicates that the caller hands over: whether the branch of a child is merged, and whether
the child holds no slot for another reason.
-/

namespace Orchestration.Plans

open Fallible
open Roles (Role)
open Worktrees (WorktreeRecord WorktreeTables)

def MAX_ACTIVE_CHILDREN_KEY : String := "dispatch.maxActiveChildren"

def MAX_ACTIVE_CHILDREN_DEFAULT : ℕ := 2

/-- What the configuration holds under the key of the cap. -/
inductive MaxActiveChildren where
  | unset
  | integer (n : ℤ)
  | notAnInteger
deriving DecidableEq, Repr

def resolveMaxActiveChildren : MaxActiveChildren → Except String ℕ
  | .unset => pure MAX_ACTIVE_CHILDREN_DEFAULT
  | .integer n => do
    refuse (n < 1) s!"{MAX_ACTIVE_CHILDREN_KEY}: expected a positive integer max-active-children cap."
    return n.toNat
  | .notAnInteger =>
    throw s!"{MAX_ACTIVE_CHILDREN_KEY}: expected a positive integer max-active-children cap."

theorem resolveMaxActiveChildren_pos {setting : MaxActiveChildren} {cap : ℕ}
    (h : resolveMaxActiveChildren setting = .ok cap) : 0 < cap := by
  cases setting with
  | unset =>
    obtain rfl := pure_eq_ok.1 h
    decide
  | integer n =>
    obtain ⟨_, hpos, h⟩ := bind_eq_ok.1 h
    obtain rfl := pure_eq_ok.1 h
    have := refuse_eq_ok.1 hpos
    omega
  | notAnInteger => cases h

/-- A child as the cap sees it; one without a sandbox has no branch. -/
structure CapChild where
  childId : String
  role : Role
  branch : Option String
deriving DecidableEq, Repr

structure ChildCapDisposition where
  queued : Bool
  activeCount : ℕ
  cap : ℕ
deriving DecidableEq, Repr

def activeChildCount (children : List CapChild) (isMerged isInactive : CapChild → Bool) : ℕ :=
  (children.filter fun c => c.role != .reviewer && !isMerged c && !isInactive c).length

def childCapDisposition (children : List CapChild) (isMerged : CapChild → Bool) (cap : ℕ)
    (isInactive : CapChild → Bool) : ChildCapDisposition :=
  let activeCount := activeChildCount children isMerged isInactive
  { queued := cap ≤ activeCount, activeCount, cap }

/-! ## The branch of an agent -/

/-- All sandboxes, by the time of their creation, then by branch. -/
def listWorktrees (t : WorktreeTables) : List WorktreeRecord :=
  t.worktrees.rows.insertionSort fun a b =>
    a.createdTs < b.createdTs ∨ a.createdTs = b.createdTs ∧ a.branch ≤ b.branch

/-- The branch of the agent's newest sandbox. -/
def resolveAgentBranch (t : WorktreeTables) (agentId : String) : Option String :=
  ((listWorktrees t).filter (·.agent == some agentId)).getLast?.map WorktreeRecord.branch

def branchMerged (t : Review.ReviewTables) (target branch : Option String) : Bool :=
  match target, branch with
  | some target, some branch =>
    (Review.selectVerdict t target branch none).any fun record => record.verdict == .pass
  | _, _ => false

end Orchestration.Plans
