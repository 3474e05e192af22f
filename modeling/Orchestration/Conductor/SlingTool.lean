import Orchestration.Plans.ChildCap
import Orchestration.Session.StartCoordinator

/-!
# `co_sling`

A parent asks for a child: the call is checked against the roster and the cap, waits for the
usage of the providers, is checked against the cap once more, cuts the sandbox, mails the
kickoff, and waits for the launch of the child before it records the placement. What fails
after the sandbox was cut takes the sandbox, the branch and the kickoff back.
-/

namespace Orchestration.Conductor

open Fallible Transaction
open Dispatch (Effort ContextWindow PlacementDecided PlacementDecidedPlaced Provider recordPlacement)
open Mail (DeliveredMail Delivery MailEnvelope)
open Plans (CapChild MaxActiveChildren ChildCapDisposition activeChildCount branchMerged
  childCapDisposition resolveAgentBranch resolveMaxActiveChildren)
open Roles (Role RosterTables checkSpawnPlan findSubRole parseSubRoleId selectAgent)
open Worktrees

/-! ## The call -/

/-- What the mount knows of the caller. -/
structure ToolContext where
  agent : String
  cwd : String
  projectId : String
deriving DecidableEq, Repr

/-- The work size and the reasoning budget only reach the dispatch policy. -/
structure SlingInput where
  parent : String
  agent : String
  role : Option String := none
  branch : String
  base : Option String := none
  kickoff : Option String := none
deriving DecidableEq, Repr

structure SlingWaiting where
  message : String
  nextStep : String
  etaResetAt : Option String := none
  reason : String
  maxedProviders : List Provider := []
  unavailableProviders : List Provider := []
deriving DecidableEq, Repr

structure SlingPlaced where
  result : SlingResult
  webResearchEnabled : Bool
  webResearchAdvisory : Option String
  placement : PlacementDecidedPlaced
deriving DecidableEq, Repr

inductive SlingOutput where
  | waiting (waiting : SlingWaiting)
  | placed (placed : SlingPlaced)
deriving DecidableEq, Repr

/-- A child as it is to be slung. -/
structure ChildRole where
  role : Role
  subRole : Option String
deriving DecidableEq, Repr

/-! ## Checks -/

def BASE_ROLES : List Role := [.coordinator, .lead, .implementer, .reviewer, .researcher]

/-- `text.trim().toLowerCase()` for the names of the roles, which are ASCII. -/
def roleId (text : String) : String := (Js.trimString text).map Char.toLower

def parseKnownSpawnRole (tool id : String) : Except String Role := do
  let parsed := parseSubRoleId (roleId id)
  let role ← orThrow (BASE_ROLES.find? fun role => toString role == parsed.1)
    s!"{tool}: unknown role '{id}'."
  whenSome parsed.2 fun name =>
    refuse ((findSubRole role name).isNone = true) s!"{tool}: unknown role '{id}'."
  return role

def assertToolCallerRole (tool : String) (roster : RosterTables) (agent : String)
    (allowed : List Role) : Except String Unit := do
  let caller ← orThrow (selectAgent roster agent)
    (s!"{tool}: caller '{agent}' is not registered in the roster — refusing owner-tier tool use.")
  let tiers := " or ".intercalate (allowed.map toString)
  refuse (caller.role ∉ allowed)
    s!"{tool}: caller '{agent}' has role '{caller.role}', but this tool requires {tiers}."

/-- What is checked before the cap. -/
def slingChecks (roster : RosterTables) (ctx : ToolContext) (input : SlingInput) :
    Except String ChildRole := do
  refuse (input.parent ≠ ctx.agent)
    (s!"co_sling: parent '{input.parent}' does not match mounted caller '{ctx.agent}'. The mount " ++
      "supplies caller identity; a tool input may not assign lifecycle authority to another agent.")
  assertToolCallerRole "co_sling" roster ctx.agent [.coordinator, .lead, .implementer]
  refuse ((selectAgent roster input.agent).isSome = true)
    (s!"co_sling: child agent '{input.agent}' is already registered in the roster; refusing to " ++
      "reuse an existing live agent id for a new sandbox.")
  let role := (input.role.map roleId).getD "implementer"
  let parsedRole := parseSubRoleId role
  let childRole ← parseKnownSpawnRole "co_sling" role
  whenSome (selectAgent roster ctx.agent) fun caller =>
    whenSome (checkSpawnPlan caller.role childRole) fun reason =>
      throw s!"co_sling: illegal spawn plan — {reason}."
  refuse (childRole = .reviewer)
    ("co_sling: refused — reviewer dispatch is gate-internal and may not be slung ad-hoc. An " ++
      "ad-hoc reviewer worktree has no review.requested event, no review_id, and no " ++
      "`$\x7brole\x7d@$\x7breviewId\x7d` seat placement, so co_review_finalize can never record its " ++
      "verdict and co_merge stalls at review_pending. Finish the reviewed branch and call " ++
      "co_merge — it triggers the reviewer, records the review.requested + reviewer placement, " ++
      "spawns the reviewer under the seat id, and supplies the review_id co_review_finalize needs.")
  return { role := childRole, subRole := parsedRole.2 }

/-! ## The cap -/

/-- What the cap reads outside of the project store: who is stopped, who has finalised a research
result, and the setting of the cap. -/
structure CapReads where
  stopped : List String
  finalized : List String
  maxActiveChildren : MaxActiveChildren

/-- The children of a parent; in which order they are listed matters to no count. -/
def capChildren (db : Db) (parent : String) : List CapChild :=
  (db.roster.roster.rows.filter (·.parent == parent)).map fun a =>
    { childId := a.agentId, role := a.role, branch := resolveAgentBranch db.worktrees a.agentId }

/-- A child that holds no slot although its branch is not merged. -/
def slotFreed (db : Db) (reads : CapReads) (child : CapChild) : Bool :=
  reads.stopped.contains child.childId ||
    child.role == .researcher && reads.finalized.contains child.childId ||
    child.branch.any fun branch => (selectFinish db.worktrees branch).isSome

/-- The answer of a call that finds the cap reached; `target` is the branch that is checked out
in the directory of the caller. -/
def childCapWaitingDisposition (db : Db) (reads : CapReads) (agent target : String) :
    Except String (Option SlingOutput) := do
  let children := capChildren db agent
  if !children.any (·.role != .reviewer) then return none
  let cap ← resolveMaxActiveChildren reads.maxActiveChildren
  let disposition := childCapDisposition children
    (fun child => branchMerged db.review (some target) child.branch) cap (slotFreed db reads)
  if !disposition.queued then return none
  return some (.waiting {
    message :=
      s!"dispatch queued: parent '{agent}' already has {disposition.activeCount} active " ++
        s!"child(ren) at the cap of {cap}. A slot frees when a child reaches a terminal state: a " ++
        "branch merges, a researcher finalizes, a worker records co_finish, or the operator stops it."
    nextStep :=
      "Free a slot — land/merge an active child branch, or wait for a child to finalize, finish, " ++
        "or be operator-reclaimed — then re-issue this co_sling."
    reason := s!"max active children reached ({disposition.activeCount}/{cap})" })

/-! ## The sandbox and the kickoff -/

/-- The faults that strike the git commands of a call. -/
structure SlingToolFaults where
  sling : SlingFaults := {}
  remove : Option Git.Fault := none
  branchDelete : Option Git.Fault := none

structure SlingToolDeps (File : Type) where
  sling : SlingDeps File
  delivery : Delivery
  fs : SandboxFs

section

variable {File : Type} (deps : SlingToolDeps File) (faults : SlingToolFaults) (ctx : ToolContext)
  (input : SlingInput)

def slingParams (child : ChildRole) : SlingParams where
  parent := input.parent
  agent := some input.agent
  role := some (toString child.role)
  subRole := child.subRole
  branch := input.branch
  base := input.base
  repoCwd := ctx.cwd
  projectId := ctx.projectId

/-- The kickoff of a child. -/
def slingKickoff : MailEnvelope where
  type := .clarifyRequest
  «to» := input.agent
  «from» := ctx.agent
  subject := "Kickoff"
  body := input.kickoff.getD
    ("Begin your assigned task; your full assignment is in your session context. Report " ++
      "completion via `co_finish`/`worker_done`.")
  correlationId := some (Session.turnKickoffCorrelationId input.agent)

def cleanupFailedSlingWorktree : HostProc File (List String) := do
  let removeErrors ← attempt s!"remove worktree '{input.branch}'" do
    let _ ← removeSandbox
      { repoCwd := ctx.cwd
        projectDataDir := deps.sling.projectDataDir ctx.projectId
        fs := deps.fs
        force := true
        fault := faults.remove } input.branch
  let deleteErrors ← attempt s!"git branch -D '{input.branch}'"
    (gitExec ctx.cwd ["branch", "-D", input.branch]
      (Git.Repo.branchDelete faults.branchDelete input.branch))
  return removeErrors ++ deleteErrors

def retractKickoff (kickoff : DeliveredMail) : HostProc File (List String) :=
  attempt s!"retract kickoff seq {kickoff.seq}" do
    let _ ← onStore (Mail.MailStore.retract deps.delivery ctx.agent kickoff.seq)

/-- The undoing of a call whose launch or placement failed. -/
def undoSling (kickoff : DeliveredMail) : HostProc File (List String) := do
  let worktreeErrors ← cleanupFailedSlingWorktree deps faults ctx input
  let kickoffErrors ← retractKickoff deps ctx kickoff
  return worktreeErrors ++ kickoffErrors

/-- Cut the sandbox and mail the kickoff; without a kickoff the sandbox goes again. -/
def cutAndKickOff (child : ChildRole) : HostProc File (SlingResult × DeliveredMail) := do
  let result ← slingWorktree deps.sling (slingParams ctx input child) faults.sling
  let kickoff ← tryCatch (onStore (Mail.MailStore.send deps.delivery (slingKickoff ctx input)))
    fun cause => do
      let errors ← cleanupFailedSlingWorktree deps faults ctx input
      throwWithRollbackErrors "co_sling: kickoff failed" cause errors
  return (result, kickoff)

end

/-! ## The answer -/

def roleMayResearchWeb (role : Role) (subRole : Option String) : Bool :=
  role == .researcher && subRole == some "external"

def slingAnswer (child : ChildRole) (result : SlingResult) (placement : PlacementDecidedPlaced) :
    SlingOutput :=
  let webResearchEnabled := roleMayResearchWeb child.role child.subRole
  .placed {
    result
    webResearchEnabled
    webResearchAdvisory :=
      if !webResearchEnabled && child.role == .researcher then
        some ("This researcher pane has NO outbound network — no web, api.github.com, or gh " ++
          "access. Sling role=\"researcher:external\" for any task that needs web/GitHub research.")
      else none
    placement }

end Orchestration.Conductor
