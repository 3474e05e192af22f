import Orchestration.Worktrees.Host
import Orchestration.Worktrees.Store

/-!
# Tearing a sandbox down

`removeWorktree` takes the directory of a recorded sandbox away, and its entry
in git's administration, and then records the removal. The recorded path is
believed only if it lies below the worktrees root of the project.
-/

namespace Orchestration.Worktrees

open Fallible Transaction

/-- The file system as a teardown asks it; the directories themselves are part of the host. -/
structure SandboxFs where
  isSymlink : String → Bool := fun _ => false
  realpath : String → String := id

/-- The segments of an absolute path, without the ones that lead nowhere. -/
def pathSegments (path : String) : List String :=
  ((path.toList.splitOn '/').map String.ofList).foldl
    (fun segments s =>
      if s = "" ∨ s = "." then segments
      else if s = ".." then segments.dropLast
      else segments ++ [s])
    []

/-- A path without empty and dotted segments. -/
def resolve (path : String) : String := "/" ++ "/".intercalate (pathSegments path)

def strictlyWithin (root path : String) : Bool :=
  path != root && (afterPrefix? (root ++ "/") path).isSome

/-- Refuse a symbolic link at the root or on the way from it to the sandbox. -/
def assertNoSymlinkedBoundary (fs : SandboxFs) (root sandbox branch : String) :
    Except String Unit := do
  refuse (fs.isSymlink root = true)
    (s!"openWorktreeStore.removeWorktree: worktrees root '{root}' for branch '{branch}' is a " ++
      "symlink. Refusing teardown.")
  let segments := pathSegments ((afterPrefix? (root ++ "/") sandbox).getD "")
  (segments.inits.drop 1).forM fun way =>
    let cursor := "/".intercalate (root :: way)
    refuse (fs.isSymlink cursor = true)
      (s!"openWorktreeStore.removeWorktree: recorded path boundary '{cursor}' for branch " ++
        s!"'{branch}' is a symlink. Refusing teardown.")

/-- The recorded path, once it is known to be a sandbox of the project. -/
def assertRecordedSandboxPathBounded (fs : SandboxFs) (present : String → Bool)
    (projectDataDir path branch : String) : Except String String := do
  let root := resolve (projectDataDir ++ "/worktrees")
  let sandbox := resolve path
  refuse (path ≠ sandbox)
    (s!"openWorktreeStore.removeWorktree: recorded path '{path}' for branch '{branch}' is not " ++
      s!"the normalized absolute sandbox path '{sandbox}'. Refusing teardown.")
  refuse (!strictlyWithin root sandbox)
    (s!"openWorktreeStore.removeWorktree: recorded path '{path}' for branch '{branch}' is " ++
      s!"outside this project's worktrees root '{root}'. Refusing teardown.")
  assertNoSymlinkedBoundary fs root sandbox branch
  if !present sandbox then return sandbox
  let realRoot := fs.realpath root
  refuse (!strictlyWithin realRoot (fs.realpath sandbox))
    (s!"openWorktreeStore.removeWorktree: recorded path '{path}' for branch '{branch}' resolves " ++
      s!"outside this project's worktrees root '{realRoot}'. Refusing teardown.")
  return sandbox

/-- What a teardown is called with. -/
structure RemoveWorktreeDeps where
  repoCwd : String
  projectDataDir : String
  fs : SandboxFs := {}
  force : Bool := false
  /-- The fault that strikes `git worktree remove`. -/
  fault : Option Git.Fault := none

section

variable {File : Type}

/-- Take the directory and git's entry of it away. -/
def tearDown (deps : RemoveWorktreeDeps) (sandboxPath : String) : HostProc File Unit := do
  let present ← onRepo fun repo => (.ok (repo.dirs sandboxPath).isSome, repo)
  if present then
    let flags := if deps.force then ["--force"] else []
    gitExec deps.repoCwd (["worktree", "remove"] ++ flags ++ [sandboxPath])
      (Git.Repo.worktreeRemove deps.fault deps.force sandboxPath)
  else
    -- only git's entry can be left, and it may be gone as well
    let _ ← attempt "git worktree remove"
      (gitExec deps.repoCwd ["worktree", "remove", sandboxPath]
        (Git.Repo.worktreeRemove deps.fault false sandboxPath))
  onRepo fun repo => (.ok (), repo.setDir sandboxPath none)

/-- Tear down the recorded sandbox of a branch, and record that. -/
def removeSandbox (deps : RemoveWorktreeDeps) (branch : String) : HostProc File WorktreeRecord := do
  let recorded ← onStore (transaction (reading (selectWorktree · branch)))
  let recorded ← orThrow recorded
    s!"openWorktreeStore.removeWorktree: no worktree recorded for branch '{branch}'."
  let sandboxPath ← (fun host =>
    (assertRecordedSandboxPathBounded deps.fs (fun path => (host.repo.dirs path).isSome)
      deps.projectDataDir recorded.path branch, host) : HostProc File String)
  tearDown deps sandboxPath
  onStore (transaction
    (recordAndRead (makeWorktreeRemovedEvent branch) (selectWorktree · branch)
      s!"openWorktreeStore.removeWorktree: row missing after projection (branch='{branch}')"))

end

end Orchestration.Worktrees
