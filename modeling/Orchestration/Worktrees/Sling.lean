import Orchestration.Worktrees.Host
import Orchestration.Worktrees.Store

/-!
# Slinging a worktree

`co_sling` cuts a sandbox for an agent: a new branch and a linked worktree, made
runnable, its test baseline captured, and both recorded in the store. Whatever
goes wrong after the first git command, it removes the worktree and the branch.
-/

namespace Orchestration.Worktrees

open Fallible Transaction

/-! ## The base of a sandbox -/

/-- A read-only git command: its trimmed output, or nothing when git fails. -/
abbrev GitReader := String → List String → Option String

/-- The base of a new sandbox: the remote's default branch, else `main`, else `master`, else the
commit that is checked out. -/
def detectBaseRef (cwd : String) (gitReader : GitReader) : String :=
  match (gitReader cwd ["symbolic-ref", "--quiet", "refs/remotes/origin/HEAD"]).bind
      (afterPrefix? "refs/remotes/") with
  | some ref => ref
  | none =>
    if (gitReader cwd ["rev-parse", "--verify", "--quiet", "refs/heads/main"]).isSome then "main"
    else if (gitReader cwd ["rev-parse", "--verify", "--quiet", "refs/heads/master"]).isSome then
      "master"
    else "HEAD"

/-- The commit of a revision; a revision that names none is refused. -/
def resolveRefSha (cwd ref : String) (gitReader : GitReader) : Except String String :=
  orThrow ((gitReader cwd ["rev-parse", "--verify", ref ++ "^{commit}"]).filter (!·.isEmpty))
    ("co worktrees: cannot resolve base ref '" ++ ref ++ "' to a commit in '" ++ cwd ++
      "' (no such ref, or git is unavailable / not a repository).")

/-! ## Sandboxes -/

/-- The sandbox of a branch, below the program data of its project. -/
def worktreePathFor (projectDataDir branch : String) : Except String String := do
  let root := projectDataDir ++ "/worktrees"
  let segments := (branch.toList.splitOn '/').map String.ofList
  refuse (segments.any fun s => s.isEmpty || s == "." || s == "..")
    s!"co_sling: refusing unsafe branch '{branch}' (empty or traversal segment)."
  let path := "/".intercalate (root :: segments)
  refuse (path ≠ root ∧ (afterPrefix? (root ++ "/") path).isNone)
    s!"co_sling: branch '{branch}' escapes the worktrees root (Principle 12)."
  return path

def dirname (path : String) : String :=
  String.ofList ((path.toList.reverse.dropWhile (· != '/')).drop 1).reverse

structure PersonaIdentity where
  name : String
  email : String
deriving DecidableEq, Repr

structure ProvisionContext where
  repoCwd : String
  worktreePath : String
  projectId : String
deriving DecidableEq, Repr

structure BaselineProbeContext where
  repoCwd : String
  worktreePath : String
  branch : String
  baseRef : String
  baseSha : String
deriving DecidableEq, Repr

structure SlingParams where
  parent : String
  agent : Option String := none
  role : Option String := none
  subRole : Option String := none
  branch : String
  base : Option String := none
  repoCwd : String
  projectId : String
deriving DecidableEq, Repr

/-- What provisioning makes of the directory of a sandbox, and what it placed there. -/
abbrev Provisioner (File : Type) :=
  ProvisionContext → Option (Git.Checkout File) →
    Except String (Option (List WorktreeProvisionedEntry)) × Option (Git.Checkout File)

/-- What `slingWorktree` works with: the seams that its callers inject, and the configuration and
file system that it reaches. -/
structure SlingDeps (File : Type) where
  gitReader : GitReader
  resolvePersona : String → Except String (Option PersonaIdentity)
  /-- The injected provisioner, or the one that applies the project's manifest. -/
  resolveProvisioner : String → Except String (Provisioner File)
  probe : BaselineProbeContext → Except String (List TestOutcome)
  projectDataDir : String → String
  mkdirSync : String → Except String Unit

/-- The fault that strikes each git command of a call. -/
structure SlingFaults where
  add : Option Git.Fault := none
  worktreeConfig : Option Git.Fault := none
  userEmail : Option Git.Fault := none
  userName : Option Git.Fault := none
  remove : Option Git.Fault := none
  branchDelete : Option Git.Fault := none
deriving DecidableEq, Repr

structure SlingResult where
  branch : String
  baseRef : String
  baseSha : String
  worktreePath : String
  baselineCaptured : Bool
deriving DecidableEq, Repr

def coBranchPrefix : String := "co/"

/-- What is settled before any git state is created. -/
structure SlingPlan (File : Type) where
  baseRef : String
  baseSha : String
  persona : Option PersonaIdentity
  provisioner : Provisioner File
  worktreePath : String

section

variable {File : Type} (deps : SlingDeps File) (params : SlingParams) (faults : SlingFaults)

/-- The steps before the first git command that writes. -/
def slingPlan : Except String (SlingPlan File) := do
  refuse (params.parent.isEmpty = true)
    "co_sling: `parent` is required (the spawner; there is no @operator default)."
  refuse ((afterPrefix? coBranchPrefix params.branch).isNone = true)
    s!"co_sling: branch '{params.branch}' must start with '{coBranchPrefix}'."
  let baseRef := params.base.getD (detectBaseRef params.repoCwd deps.gitReader)
  let baseSha ← resolveRefSha params.repoCwd baseRef deps.gitReader
  let persona ← deps.resolvePersona params.projectId
  let provisioner ← deps.resolveProvisioner params.projectId
  let worktreePath ← worktreePathFor (deps.projectDataDir params.projectId) params.branch
  deps.mkdirSync (dirname worktreePath)
  return { baseRef, baseSha, persona, provisioner, worktreePath }

/-- Run the provisioner on the sandbox. -/
def provision (plan : SlingPlan File) :
    HostProc File (Option (List WorktreeProvisionedEntry)) := fun host =>
  let ran := plan.provisioner
    { repoCwd := params.repoCwd, worktreePath := plan.worktreePath, projectId := params.projectId }
    (host.repo.dirs plan.worktreePath)
  (ran.1, { host with repo := host.repo.setDir plan.worktreePath ran.2 })

/-- Pin the persona in the sandbox, if one is configured. -/
def pinPersona (plan : SlingPlan File) : HostProc File Unit :=
  match plan.persona with
  | none => pure ()
  | some persona => do
    gitExec params.repoCwd ["config", "extensions.worktreeConfig", "true"]
      (Git.Repo.plain faults.worktreeConfig)
    gitExec plan.worktreePath ["config", "--worktree", "user.email", persona.email]
      (Git.Repo.plain faults.userEmail)
    gitExec plan.worktreePath ["config", "--worktree", "user.name", persona.name]
      (Git.Repo.plain faults.userName)

/-- The record of the sandbox. -/
def slungRecord (plan : SlingPlan File) (provisioned : Option (List WorktreeProvisionedEntry)) :
    WorktreeCreated where
  branch := params.branch
  baseRef := plan.baseRef
  baseSha := plan.baseSha
  path := plan.worktreePath
  parent := params.parent
  agent := params.agent
  role := params.role
  subRole := params.subRole
  provisioned := some (provisioned.getD [])

/-- The body of the `try`: create, provision, probe and record the sandbox. -/
def setUp (plan : SlingPlan File) : HostProc File Unit := do
  gitExec params.repoCwd ["worktree", "add", "-b", params.branch, plan.worktreePath, plan.baseRef]
    (Git.Repo.worktreeAdd faults.add params.branch plan.worktreePath plan.baseRef)
  pinPersona params faults plan
  let provisioned ← provision params plan
  let tests ← deps.probe {
    repoCwd := params.repoCwd
    worktreePath := plan.worktreePath
    branch := params.branch
    baseRef := plan.baseRef
    baseSha := plan.baseSha }
  let _ ← onStore (transaction (recordWorktreeAndBaseline
    (slungRecord params plan provisioned)
    { branch := params.branch, baseRef := plan.baseRef, baseSha := plan.baseSha, tests }))

/-- The `catch`: take the worktree and the branch away, and throw. -/
def rollBack (worktreePath error : String) : HostProc File Unit := do
  let removeErrors ← attempt s!"git worktree remove '{worktreePath}'"
    (gitExec params.repoCwd ["worktree", "remove", "--force", worktreePath]
      (Git.Repo.worktreeRemove faults.remove true worktreePath))
  let deleteErrors ← attempt s!"git branch -D '{params.branch}'"
    (gitExec params.repoCwd ["branch", "-D", params.branch]
      (Git.Repo.branchDelete faults.branchDelete params.branch))
  throwWithRollbackErrors "co_sling: setup failed" error (removeErrors ++ deleteErrors)

/-- Create and record a sandbox; on a failure remove its worktree and its branch. -/
def slingWorktree : HostProc File SlingResult := do
  let plan ← slingPlan deps params
  tryCatch (setUp deps params faults plan) (rollBack params faults plan.worktreePath)
  return {
    branch := params.branch
    baseRef := plan.baseRef
    baseSha := plan.baseSha
    worktreePath := plan.worktreePath
    baselineCaptured := true }

/-! ## What a failed call leaves behind -/

variable {deps params faults} {plan : SlingPlan File} {host host' : Host File}

theorem provision_apply (params : SlingParams) (plan : SlingPlan File) (host : Host File) :
    ∃ result dir, provision params plan host =
      (result, { host with repo := host.repo.setDir plan.worktreePath dir }) := ⟨_, _, rfl⟩

theorem gitExec_eq {cwd : String} {args : List String} {command : Proc (Git.Repo File) String Unit}
    {result : Except String Unit} (h : gitExec cwd args command host = (result, host')) :
    host' = { host with repo := command.exec host.repo } := by
  have hexec := exec_gitExec cwd args command host
  rw [Proc.exec, h] at hexec
  exact hexec

/-- A `git config` writes neither branches nor directories nor the store. -/
theorem plain_eq {cwd : String} {args : List String} {fault : Option Git.Fault}
    {result : Except String Unit}
    (h : gitExec cwd args (Git.Repo.plain fault) host = (result, host')) : host' = host :=
  gitExec_eq h

theorem pinPersona_eq {result : Except String Unit}
    (h : pinPersona params faults plan host = (result, host')) : host' = host := by
  unfold pinPersona at h
  cases hpersona : plan.persona with
  | none =>
    rw [hpersona] at h
    exact (Prod.mk.inj h).2.symm
  | some persona =>
    rw [hpersona] at h
    cases result with
    | ok u =>
      obtain ⟨_, h1, hconfig, h⟩ := Proc.bind_eq_ok.1 h
      obtain ⟨_, h2, hemail, hname⟩ := Proc.bind_eq_ok.1 h
      rw [plain_eq hname, plain_eq hemail, plain_eq hconfig]
    | error e =>
      cases Proc.bind_eq_error.1 h with
      | inl hconfig => exact plain_eq hconfig
      | inr h =>
        obtain ⟨_, h1, hconfig, h⟩ := h
        cases Proc.bind_eq_error.1 h with
        | inl hemail => rw [plain_eq hemail, plain_eq hconfig]
        | inr h =>
          obtain ⟨_, h2, hemail, hname⟩ := h
          rw [plain_eq hname, plain_eq hemail, plain_eq hconfig]

/-- The new branch and its worktree, with what stands in its directory. -/
def Slung (branch path : String) (repo repo' : Git.Repo File) : Prop :=
  repo.heads branch = none ∧ repo.occupied path = false ∧ ∃ sha dir,
    repo' = ((repo.setHead branch (some sha)).register path branch).setDir path dir

theorem Slung.added {branch path : String} {repo repo' : Git.Repo File}
    (h : Slung branch path repo repo') : Git.Repo.Added branch path repo repo' := by
  obtain ⟨hnew, hfree, sha, dir, rfl⟩ := h
  exact .worktree sha dir hnew hfree

/-- The steps up to the record: they do not touch the store, and succeed with the new worktree in
place. -/
theorem setUp_cases {result : Except String Unit}
    (h : setUp deps params faults plan host = (result, host')) :
    (∃ e, result = .error e ∧ host'.db = host.db ∧
      Git.Repo.Added params.branch plan.worktreePath host.repo host'.repo) ∨
    ∃ provisioned tests mid, Slung params.branch plan.worktreePath host.repo mid ∧
      (do let _ ← onStore (transaction (recordWorktreeAndBaseline
            (slungRecord params plan provisioned)
            { branch := params.branch, baseRef := plan.baseRef, baseSha := plan.baseSha, tests })) :
        HostProc File Unit) { host with repo := mid } = (result, host') := by
  rw [setUp] at h
  cases Proc.bind_cases h with
  | inl hthrown =>
    obtain ⟨e, hadd, rfl⟩ := hthrown
    obtain rfl := gitExec_eq hadd
    exact .inl ⟨e, rfl, rfl, Git.Repo.added_worktreeAdd ..⟩
  | inr hadded =>
    obtain ⟨u, added, hadd, hadded⟩ := hadded
    obtain ⟨hadd, hdb⟩ := gitExec_eq_ok.1 hadd
    obtain ⟨sha, hnew, hfree, hrepo⟩ := Git.Repo.worktreeAdd_ok hadd
    have hslung : Slung params.branch plan.worktreePath host.repo added.repo :=
      ⟨hnew, hfree, sha, _, hrepo⟩
    cases Proc.bind_cases hadded with
    | inl hthrown =>
      obtain ⟨e, hpin, rfl⟩ := hthrown
      obtain rfl := pinPersona_eq hpin
      exact .inl ⟨e, rfl, hdb, hslung.added⟩
    | inr hpinned =>
      obtain ⟨u, pinned, hpin, hpinned⟩ := hpinned
      obtain rfl := pinPersona_eq hpin
      obtain ⟨ran, dir, hran⟩ := provision_apply params plan pinned
      have hprovisioned : Slung params.branch plan.worktreePath host.repo
          (pinned.repo.setDir plan.worktreePath dir) :=
        ⟨hnew, hfree, sha, dir, by rw [hrepo, Git.Repo.setDir_setDir]⟩
      cases Proc.bind_cases hpinned with
      | inl hthrown =>
        obtain ⟨e, hprovision, rfl⟩ := hthrown
        obtain ⟨-, rfl⟩ := Prod.mk.inj (hran.symm.trans hprovision)
        exact .inl ⟨e, rfl, hdb, hprovisioned.added⟩
      | inr hplaced =>
        obtain ⟨provisioned, after, hprovision, hplaced⟩ := hplaced
        obtain ⟨-, rfl⟩ := Prod.mk.inj (hran.symm.trans hprovision)
        cases Proc.bind_cases hplaced with
        | inl hthrown =>
          obtain ⟨e, hprobe, rfl⟩ := hthrown
          obtain ⟨-, rfl⟩ := Prod.mk.inj hprobe
          exact .inl ⟨e, rfl, hdb, hprovisioned.added⟩
        | inr hprobed =>
          obtain ⟨tests, after, hprobe, hprobed⟩ := hprobed
          obtain ⟨-, rfl⟩ := Prod.mk.inj hprobe
          rw [hdb] at hprobed
          exact .inr ⟨provisioned, tests, _, hprovisioned, hprobed⟩

theorem setUp_error {e : String} (h : setUp deps params faults plan host = (.error e, host')) :
    host'.db = host.db ∧ Git.Repo.Added params.branch plan.worktreePath host.repo host'.repo := by
  cases setUp_cases h with
  | inl hthrown =>
    obtain ⟨-, -, hdb, hadded⟩ := hthrown
    exact ⟨hdb, hadded⟩
  | inr hrecord =>
    obtain ⟨provisioned, tests, mid, hslung, hrecord⟩ := hrecord
    cases Proc.bind_cases hrecord with
    | inl hrefused =>
      obtain ⟨e', hrefused, -⟩ := hrefused
      obtain ⟨herror, rfl⟩ := Prod.mk.inj hrefused
      exact ⟨transaction_error (Prod.ext herror rfl), hslung.added⟩
    | inr hdone =>
      obtain ⟨_, _, -, hdone⟩ := hdone
      cases hdone

/-- The rollback undoes the worktree, whatever of it there is, and throws. -/
theorem rollBack_apply (params : SlingParams) (faults : SlingFaults) (host : Host File)
    (path error : String) : ∃ e, rollBack params faults path error host = (.error e, { host with
      repo := host.repo.undo faults.remove faults.branchDelete params.branch path }) := by
  unfold rollBack
  obtain ⟨removeErrors, hremove⟩ := attempt_apply s!"git worktree remove '{path}'"
    (gitExec params.repoCwd ["worktree", "remove", "--force", path]
      (Git.Repo.worktreeRemove faults.remove true path)) host
  obtain ⟨deleteErrors, hdelete⟩ := attempt_apply s!"git branch -D '{params.branch}'"
    (gitExec params.repoCwd ["branch", "-D", params.branch]
      (Git.Repo.branchDelete faults.branchDelete params.branch))
    { host with repo := (Git.Repo.worktreeRemove faults.remove true path).exec host.repo }
  rw [exec_gitExec] at hremove hdelete
  obtain ⟨e, hthrow⟩ := throwWithRollbackErrors_apply (α := Unit) "co_sling: setup failed" error
    (removeErrors ++ deleteErrors)
    { host with repo := host.repo.undo faults.remove faults.branchDelete params.branch path }
  exact ⟨e, Proc.bind_eq_error.2 (.inr ⟨_, _, hremove,
    Proc.bind_eq_error.2 (.inr ⟨_, _, hdelete, hthrow⟩)⟩)⟩

/-- A call that throws either stopped before any git state, or undid the worktree. -/
theorem slingWorktree_error {e : String}
    (h : slingWorktree deps params faults host = (.error e, host')) :
    (slingPlan deps params = .error e ∧ host' = host) ∨
      ∃ plan added, slingPlan deps params = .ok plan ∧ host'.db = host.db ∧
        Git.Repo.Added params.branch plan.worktreePath host.repo added ∧
        host'.repo = added.undo faults.remove faults.branchDelete params.branch plan.worktreePath := by
  rw [slingWorktree] at h
  cases Proc.bind_cases h with
  | inl hrefused =>
    obtain ⟨e', hlift, he⟩ := hrefused
    obtain ⟨hplan, rfl⟩ := Prod.mk.inj hlift
    cases he
    exact .inl ⟨hplan, rfl⟩
  | inr hplanned =>
    obtain ⟨plan, mid, hlift, hbody⟩ := hplanned
    obtain ⟨hplan, rfl⟩ := Prod.mk.inj hlift
    refine .inr ⟨plan, ?_⟩
    cases Proc.bind_cases hbody with
    | inr hdone =>
      obtain ⟨_, _, -, hdone⟩ := hdone
      cases hdone
    | inl hthrown =>
      obtain ⟨e', hthrown, -⟩ := hthrown
      obtain ⟨cause, failed, hfailed, hrolled⟩ := Proc.tryCatch_eq_error.1 hthrown
      obtain ⟨hdb, hadded⟩ := setUp_error hfailed
      obtain ⟨e'', hrollBack⟩ := rollBack_apply params faults failed plan.worktreePath cause
      obtain ⟨-, rfl⟩ := Prod.mk.inj (hrollBack.symm.trans hrolled)
      exact ⟨failed.repo, hplan, hdb, hadded, rfl⟩

/-- A call that returns cut the sandbox and recorded it. -/
theorem slingWorktree_eq_ok {result : SlingResult}
    (h : slingWorktree deps params faults host = (.ok result, host')) :
    Slung params.branch result.worktreePath host.repo host'.repo ∧
      Emits (fun _ e => e.payload.projector = .worktrees) host.db host'.db ∧
      ∃ row, selectWorktree host'.db.worktrees params.branch = some row ∧ row.removed = false ∧
        row.agent = params.agent ∧ row.path = result.worktreePath := by
  obtain ⟨plan, hplan, h⟩ := Proc.liftM_bind_eq_ok.1 h
  obtain ⟨_, done, hset, h⟩ := Proc.bind_eq_ok.1 h
  cases h
  cases Proc.tryCatch_eq_ok.1 hset with
  | inr hrolled =>
    obtain ⟨cause, failed, -, hrolled⟩ := hrolled
    obtain ⟨e, hrollBack⟩ := rollBack_apply params faults failed plan.worktreePath cause
    cases hrollBack.symm.trans hrolled
  | inl hset =>
    cases setUp_cases hset with
    | inl hthrown =>
      obtain ⟨e, he, -⟩ := hthrown
      cases he
    | inr hrecorded =>
      obtain ⟨provisioned, tests, mid, hslung, hrecord⟩ := hrecorded
      obtain ⟨row, last, hrecord, hpure⟩ := Proc.bind_eq_ok.1 hrecord
      cases hpure
      obtain ⟨hok, rfl⟩ := Prod.mk.inj hrecord
      have hdb := transaction_eq_ok.1 (Prod.ext hok rfl)
      obtain ⟨created, captured, -, -, hcommit⟩ := recordWorktreeAndBaseline_spec hdb
      refine ⟨hslung, Emits.of_commitAll ?_ hcommit, selectWorktree_of_recorded hdb⟩
      intro event hevent s
      cases List.mem_cons.1 hevent with
      | inl hcreated =>
        subst hcreated
        rfl
      | inr hcaptured =>
        obtain rfl := List.mem_singleton.1 hcaptured
        rfl

/-- The new worktree is registered with its branch. -/
theorem Slung.registered {branch path : String} {repo repo' : Git.Repo File}
    (h : Slung branch path repo repo') :
    ∃ w, repo'.worktrees.find? path = some w ∧ w.branch = some branch := by
  obtain ⟨-, hfree, sha, dir, rfl⟩ := h
  have hnone : repo.worktrees.find? path = none := by
    simpa using (Bool.or_eq_false_iff.1 hfree).1
  refine ⟨{ path, branch }, ?_, rfl⟩
  have hfind := @Table.find?_upsert_self _ _ _ _ repo.worktrees
    { path := path, branch := some branch } { run := fun w => { w with branch } }
  simp only [hnone] at hfind
  exact hfind

/-! ## What a failed call destroys -/

/-- Every branch, every worktree with its directory and every live record is still there. -/
structure Host.Keeps (host host' : Host File) : Prop where
  repo : host.repo.Keeps host'.repo
  records : ∀ row ∈ host.db.worktrees.worktrees.rows, row.removed = false →
    row ∈ host'.db.worktrees.worktrees.rows

/-- The call stops before any git state, or its rollback finds nothing that was there before:
neither a worktree at the path of the sandbox nor a branch of that name that git would give up. -/
def SlingSpares (deps : SlingDeps File) (params : SlingParams) (faults : SlingFaults)
    (host : Host File) : Prop :=
  ∀ plan, slingPlan deps params = .ok plan →
    host.repo.Spared faults.remove faults.branchDelete params.branch plan.worktreePath

/-- A failed call destroys nothing just when its rollback finds nothing of before. -/
theorem failed_sling_keeps_iff {e : String}
    (h : slingWorktree deps params faults host = (.error e, host')) :
    host.Keeps host' ↔ SlingSpares deps params faults host := by
  cases slingWorktree_error h with
  | inl hrefused =>
    obtain ⟨hplan, rfl⟩ := hrefused
    constructor
    · intro _ plan hplanned
      rw [hplan] at hplanned
      cases hplanned
    · intro _
      exact ⟨.refl _, fun _ hrow _ => hrow⟩
  | inr hundone =>
    obtain ⟨plan, added, hplan, hdb, hadded, hrepo⟩ := hundone
    have hkeeps := Git.Repo.keeps_undo_iff faults.remove faults.branchDelete hadded
    rw [← hrepo] at hkeeps
    constructor
    · intro hkept plan' hplan'
      cases hplan.symm.trans hplan'
      exact hkeeps.1 hkept.repo
    · intro hspared
      exact ⟨hkeeps.2 (hspared plan hplan), fun row hrow _ => by rw [hdb]; exact hrow⟩

end

/-- A project whose git answers every read with one commit. -/
def plainDeps : SlingDeps String where
  gitReader _ _ := some "c1"
  resolvePersona _ := .ok none
  resolveProvisioner _ := .ok fun _ dir => (.ok none, dir)
  probe _ := .ok []
  projectDataDir projectId := "/data/" ++ projectId
  mkdirSync _ := .ok ()

def feature : SlingParams where
  parent := "lead-1"
  branch := "co/feature"
  base := some "main"
  repoCwd := "/repo"
  projectId := "p"

/-- On a repository that has neither branch, the failing call leaves none. -/
theorem failed_sling_keeps_iff_of_empty : ∃ e host',
    slingWorktree plainDeps feature {} { db := .atRest, repo := {} } = (.error e, host') ∧
      Host.Keeps { db := .atRest, repo := {} } host' := by
  cases hrun : slingWorktree plainDeps feature {} { db := .atRest, repo := {} } with
  | mk result host' =>
    cases result with
    | ok slung =>
      have hfails : (slingWorktree plainDeps feature {} { db := .atRest, repo := {} }).1.toOption =
          none := by decide +kernel
      rw [hrun] at hfails
      cases hfails
    | error e =>
      refine ⟨e, host', rfl, (failed_sling_keeps_iff hrun).2 fun plan _ => ⟨?_, ?_⟩⟩
      · rintro ⟨-, hdir⟩
        cases hdir
      · intro hhead
        cases hhead

/-- A branch that an earlier sandbox left behind, with work that is merged nowhere. -/
def leftBranch : Host String where
  db := .atRest
  repo := {
    heads := fun b =>
      if b = "co/feature" then some "work" else if b = "main" then some "c1" else none }

/-- The command that creates the branch fails because there is one, and the rollback deletes it. -/
theorem failed_sling_deletes_branch : ∃ e host',
    slingWorktree plainDeps feature {} leftBranch = (.error e, host') ∧
      leftBranch.repo.heads "co/feature" = some "work" ∧ host'.repo.heads "co/feature" = none ∧
      ¬ leftBranch.Keeps host' := by
  have hgone : ((slingWorktree plainDeps feature {}).exec leftBranch).repo.heads "co/feature" =
      none := by decide +kernel
  cases hrun : slingWorktree plainDeps feature {} leftBranch with
  | mk result host' =>
    rw [Proc.exec, hrun] at hgone
    cases result with
    | ok slung =>
      have hfails : (slingWorktree plainDeps feature {} leftBranch).1.toOption = none := by
        decide +kernel
      rw [hrun] at hfails
      cases hfails
    | error e =>
      refine ⟨e, host', rfl, rfl, hgone, fun hkept => ?_⟩
      have hkept := hkept.repo.heads "co/feature" "work" rfl
      rw [hgone] at hkept
      cases hkept

end Orchestration.Worktrees
