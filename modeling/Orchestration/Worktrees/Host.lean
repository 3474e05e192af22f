import Orchestration.Library.GitRepo
import Orchestration.Store.Project

/-!
# A project on its machine

The store of a project and the repository that its sandboxes are cut from. What
an operation did to the one is not undone because the other failed, so a caller
that gives up cleans up after itself, and reports what it could not clean.
-/

namespace Orchestration.Worktrees

open Transaction

/-- The store of a project, and its repository with the sandboxes. -/
structure Host (File : Type) where
  db : Db
  repo : Git.Repo File

/-- A procedure over both. -/
abbrev HostProc (File α : Type) := Proc (Host File) String α

variable {File α : Type}

/-- An operation of a store. -/
def onStore (p : StoreProc α) : HostProc File α := fun host =>
  ((p host.db).1, { host with db := p.exec host.db })

/-- A git command on the repository. -/
def onRepo (p : Proc (Git.Repo File) String α) : HostProc File α := fun host =>
  ((p host.repo).1, { host with repo := p.exec host.repo })

/-! ## Running git -/

/-- The flags whose value can carry free text. -/
def valueBearingFlags : List String :=
  ["-m", "--message", "-F", "--file", "--body", "-b", "--title", "-t", "-f", "--field",
    "--raw-field", "--input"]

/-- The name of a flag in front of its `=`. -/
def flagBeforeEquals (token : String) : Option String :=
  let (name, value) := token.toList.span (· != '=')
  let word (c : Char) : Bool := c.isAlphanum || c == '_' || c == '-'
  let isName : Bool :=
    match name with
    | '-' :: '-' :: c :: cs => c.isAlpha && cs.all word
    | '-' :: c :: cs => c.isAlpha && cs.all word
    | _ => false
  if isName && !value.isEmpty then some (String.ofList name) else none

/-- An argv as a message shows it: the values of these flags are masked. -/
def redactExecArgs (args : List String) : String :=
  " ".intercalate (go args)
where
  go : List String → List String
    | [] => []
    | token :: rest =>
      match (flagBeforeEquals token).filter valueBearingFlags.contains with
      | some flag => (flag ++ "=[redacted]") :: go rest
      | none =>
        if valueBearingFlags.contains token then
          match rest with
          | [] => [token]
          | _ :: rest => token :: "[redacted]" :: go rest
        else token :: go rest

example : redactExecArgs ["worktree", "add", "-b", "co/x", "/data/co/x", "main"] =
    "worktree add -b [redacted] /data/co/x main" := by decide +kernel

/-- Run a git command; its failure names the argv, masked, and what git said. -/
def gitExec (cwd : String) (args : List String) (command : Proc (Git.Repo File) String Unit) :
    HostProc File Unit :=
  tryCatch (onRepo command) fun detail =>
    throw ("co worktrees: `git " ++ redactExecArgs args ++ "` failed in '" ++ cwd ++ "': " ++ detail)

/-! ## Cleaning up -/

/-- A failed rollback step under its label. -/
def rollbackError (operation cause : String) : String := operation ++ " failed: " ++ cause

/-- Run a rollback step; what goes wrong is reported, not thrown. -/
def attempt (operation : String) (p : HostProc File Unit) : HostProc File (List String) := fun host =>
  match p host with
  | (.ok (), host') => (.ok [], host')
  | (.error cause, host') => (.ok [rollbackError operation cause], host')

/-- Throw the failure that started a rollback, with those of the rollback itself. -/
def throwWithRollbackErrors (context primary : String) (rollbackErrors : List String) :
    HostProc File α :=
  if rollbackErrors.isEmpty then throw primary
  else throw (context ++ ": " ++ primary ++ "; rollback also failed: " ++
    "; ".intercalate rollbackErrors)

/-! ## What they leave behind -/

@[simp] theorem exec_onStore (p : StoreProc α) (host : Host File) :
    (onStore p).exec host = { host with db := p.exec host.db } := rfl

@[simp] theorem exec_onRepo (p : Proc (Git.Repo File) String α) (host : Host File) :
    (onRepo p).exec host = { host with repo := p.exec host.repo } := rfl

@[simp] theorem exec_gitExec (cwd : String) (args : List String)
    (command : Proc (Git.Repo File) String Unit) (host : Host File) :
    (gitExec cwd args command).exec host = { host with repo := command.exec host.repo } :=
  Proc.exec_tryCatch fun _ _ _ => rfl

theorem gitExec_eq_ok {cwd : String} {args : List String}
    {command : Proc (Git.Repo File) String Unit} {host host' : Host File} {u : Unit} :
    gitExec cwd args command host = (.ok u, host') ↔
      command host.repo = (.ok (), host'.repo) ∧ host'.db = host.db := by
  rw [gitExec, Proc.tryCatch_eq_ok]
  constructor
  · intro h
    cases h with
    | inl h =>
      obtain ⟨hok, rfl⟩ := Prod.mk.inj h
      exact ⟨Prod.ext hok rfl, rfl⟩
    | inr h =>
      obtain ⟨e, mid, -, h⟩ := h
      cases h
  · rintro ⟨hcommand, hdb⟩
    refine .inl ?_
    rw [onRepo, Proc.exec, hcommand, ← hdb]

/-- An attempt does not throw, and changes what its step changes. -/
theorem attempt_apply (operation : String) (p : HostProc File Unit) (host : Host File) :
    ∃ errors, attempt operation p host = (.ok errors, p.exec host) := by
  unfold attempt Proc.exec
  rcases p host with ⟨cause | u, host'⟩
  · exact ⟨_, rfl⟩
  · exact ⟨_, rfl⟩

theorem throwWithRollbackErrors_apply (context primary : String) (rollbackErrors : List String)
    (host : Host File) : ∃ e,
      (throwWithRollbackErrors context primary rollbackErrors : HostProc File α) host =
        (.error e, host) := by
  unfold throwWithRollbackErrors
  cases rollbackErrors.isEmpty with
  | true => exact ⟨_, rfl⟩
  | false => exact ⟨_, rfl⟩

end Orchestration.Worktrees
