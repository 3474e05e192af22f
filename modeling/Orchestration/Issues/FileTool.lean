import Orchestration.Issues.Store
import Orchestration.Mail.Approval
import Orchestration.Roles.Projector
import Orchestration.Worktrees.Publishing

/-!
# `co_issue_file`

A coordinator or lead files a diagnosed issue. The first call asks the operator under the key
of the issue; a later one posts what was approved and records the filing.
-/

namespace Orchestration.Issues

open Fallible Transaction
open Js (Json trimString)
open Mail (ApprovalOutcome Asks DeliveredMail Delivery MailEnvelope NotWithdrawn Pending
  approvalOutcome gateOutwardAction outwardApprovalEnvelope)
open Roles (Role)
open Worktrees (RepoMode)

/-! ## The gates -/

structure IssueOptIns where
  capture : Bool
  publish : Bool
  selfAssign : Bool
deriving DecidableEq, Repr

/-- A layer counts only as the boolean `true`, and only on top of the earlier layers. -/
def layerIssueOptIns (capture publish selfAssign : Option Json) : IssueOptIns :=
  let isTrue (value : Option Json) : Bool :=
    match value with
    | some (.bool true) => true
    | _ => false
  let capture := isTrue capture
  let publish := capture && isTrue publish
  { capture, publish, selfAssign := publish && isTrue selfAssign }

/-- The opt-ins of the effective config. -/
def resolveIssueOptIns (effective : String → Option Json) : IssueOptIns :=
  layerIssueOptIns (effective "issues.capture") (effective "issues.publish")
    (effective "issues.selfAssign")

/-- The slug of co's own repo, unless the config has something else there. -/
def coRepoSlugOf (effective : String → Option Json) : Option String :=
  match effective "issues.coRepo" with
  | some (.str slug) => some slug
  | _ => none

def assertIssueDestinationAllowed (destination : IssueDestination) (mode : RepoMode) :
    Except String Unit :=
  refuse (destination = .target ∧ mode = .offline)
    ("issue filing: cannot file against the target repo in offline mode — there is no remote. " ++
      "Capture stays local; set destination 'co' for co-tooling friction.")

/-- The roles as the refusal lists them. -/
def assertToolCallerRole (tool : String) (roster : Roles.RosterTables) (agent : String)
    (allowed : List Role) : Except String Unit := do
  let caller ← orThrow (Roles.selectAgent roster agent)
    (s!"{tool}: caller '{agent}' is not registered in the roster — refusing owner-tier " ++
      "tool use.")
  refuse (caller.role ∉ allowed)
    (s!"{tool}: caller '{agent}' has role '{caller.role}', but this tool requires " ++
      " or ".intercalate (allowed.map toString) ++ ".")

/-! ## The approval and the post -/

def issueFilingApprovalKey (issueId : String) : String := "issue-file:" ++ issueId

/-- The request to file an issue, from the agent `sender`. -/
def buildIssueFilingApproval (sender : String) (issue : IssueRecord) (title : String) :
    MailEnvelope :=
  outwardApprovalEnvelope {
    «from» := sender
    subject := scrubIssueText title
    body := renderIssueBody issue
    idempotencyKey := some (issueFilingApprovalKey issue.issueId) }

/-- The first request of the issue that the operator sees, from a sender that is allowed. -/
def findIssueFilingApproval (inbox : List DeliveredMail) (issueId : String)
    (senderAllowed : String → Bool) : Option DeliveredMail :=
  inbox.find? fun mail =>
    if mail.type ≠ .approval ∨ mail.idempotencyKey ≠ some (issueFilingApprovalKey issueId) ∨
        mail.retracted = true then false
    else senderAllowed mail.sender

def ghIssueCreateArgs (destination : IssueDestination) (coRepoSlug : Option String)
    (title body : String) : Except String (List String) := do
  refuse (destination = .co ∧ (coRepoSlug.all fun slug => trimString slug = "") = true)
    ("issue filing: destination 'co' needs the 'issues.coRepo' config key (an " ++
      "'owner/repo' slug) — refusing to guess where co's issues live.")
  return ["issue", "create"] ++ destinationRepoFlag destination coRepoSlug ++
    ["--title", title, "--body", body]

/-- The refusal of a machine without a token, with the command to run by hand. -/
def assertGhTokenForFiling (hasToken : Bool) (destination : IssueDestination)
    (coRepoSlug : Option String) (title : String) : Except String Unit :=
  let repoFlag := String.join ((destinationRepoFlag destination coRepoSlug).map (· ++ " "))
  refuse (hasToken = false)
    ("issue filing: no GitHub token available — connect GitHub in Settings, or set CO_GH_TOKEN " ++
      "/ run \x60gh auth login\x60 and restart the Conductor (or reopen the project), then " ++
      "retry. To file this issue by hand instead, run:\n  gh issue create " ++ repoFlag ++
      "--title " ++ Js.stringify (.str title) ++ " --body \"<paste the approved body>\"")

/-- Post an approved issue, or find that it is posted. -/
def fileIssueOutward (outcome : ApprovalOutcome) (ghExec : GhExec) (hasToken : Bool)
    (cwd : String) (destination : IssueDestination) (coRepoSlug : Option String)
    (issueId title body : String) : Except String String := do
  let args ← ghIssueCreateArgs destination coRepoSlug title body
  gateOutwardAction outcome do
    assertGhTokenForFiling hasToken destination coRepoSlug title
    match findAlreadyPostedIssue ghExec cwd destination coRepoSlug issueId with
    | some existingUrl => return existingUrl
    | none => return trimString (← ghExec cwd args)

/-! ## The tool -/

/-- The stores of a project that the tool works on. -/
structure Desk where
  db : Db
  issues : IssueTables

abbrev DeskProc (α : Type) := Proc Desk String α

def onMail {α : Type} (p : StoreProc α) : DeskProc α := fun desk =>
  ((p desk.db).1, { desk with db := p.exec desk.db })

def onIssues {α : Type} (p : Proc IssueTables String α) : DeskProc α := fun desk =>
  ((p desk.issues).1, { desk with issues := p.exec desk.issues })

def readDesk : DeskProc Desk := fun desk => (.ok desk, desk)

/-- What the mount gives the tool: the caller, the effective config, the repo mode as config and
probe give it, and `gh`. -/
structure ToolContext where
  agent : String
  cwd : String
  delivery : Delivery
  effective : String → Option Json
  repoMode : Except String RepoMode
  ghExec : GhExec
  hasGhToken : Bool

structure IssueFileInput where
  issueId : String
  title : Option String := none
  probableCause : Option String := none
deriving DecidableEq, Repr

inductive IssueFileStatus where
  | approvalRequested
  | filed
deriving DecidableEq, Repr

structure IssueFileOutput where
  status : IssueFileStatus
  approvalSeq : Option ℕ := none
  postedRef : Option String := none
  issue : StoredIssue
deriving DecidableEq, Repr

/-- The roles that may file, and whose requests count. -/
def ownerTier : List Role := [.coordinator, .lead]

/-- The record, diagnosed by the caller if it is the caller's own capture. -/
def diagnosedIssue (ctx : ToolContext) (input : IssueFileInput) (issue : StoredIssue) :
    DeskProc StoredIssue :=
  match issue.state, input.probableCause with
  | .captured, some probableCause => do
    refuse (issue.capturedBy ≠ ctx.agent)
      (s!"co_issue_file: issue '{input.issueId}' was captured by '{issue.capturedBy}', so " ++
        s!"caller '{ctx.agent}' cannot inline-diagnose it. Dispatch a researcher to run " ++
        "co_issue_diagnose, or have the capturing owner-tier agent file it with a probable_cause.")
    onIssues (IssueStore.recordDiagnosis {
      issueId := issue.issueId
      probableCause
      diagnosedBy := ctx.agent })
  | _, _ => pure issue

/-- Ask the operator, or post what the operator approved. -/
def requestOrFile (ctx : ToolContext) (input : IssueFileInput) (issue : StoredIssue) :
    Option DeliveredMail → DeskProc IssueFileOutput
  | none => do
    let sent ← onMail (Mail.MailStore.send ctx.delivery
      (buildIssueFilingApproval ctx.agent issue.toIssueRecord
        (input.title.getD issue.summary)))
    return { status := .approvalRequested, approvalSeq := some sent.seq, issue }
  | some existing => do
    let outcome ← onMail (approvalOutcome existing)
    let postedRef ← fileIssueOutward outcome ctx.ghExec ctx.hasGhToken ctx.cwd
      issue.destination (coRepoSlugOf ctx.effective) issue.issueId existing.subject existing.body
    let filed ← onIssues (IssueStore.recordFiling {
      issueId := issue.issueId
      filedBy := ctx.agent
      approvalSeq := existing.seq
      postedRef })
    return {
      status := .filed
      approvalSeq := some existing.seq
      postedRef := some postedRef
      issue := filed }

/-- The request of the issue that counts: its sender still has a role that may file. -/
def existingApproval (issueId : String) : DeskProc (Option DeliveredMail) := do
  let inbox ← onMail (Mail.MailStore.inbox Mail.OPERATOR)
  let desk ← readDesk
  return findIssueFilingApproval inbox issueId fun sender =>
    (Roles.selectAgent desk.db.roster sender).any fun record => record.role ∈ ownerTier

def issueFileTool (ctx : ToolContext) (input : IssueFileInput) : DeskProc IssueFileOutput := do
  let desk ← readDesk
  assertToolCallerRole "co_issue_file" desk.db.roster ctx.agent ownerTier
  refuse ((resolveIssueOptIns ctx.effective).publish = false)
    ("co_issue_file: outward publishing is not enabled for this project — set the " ++
      "'issues.publish' config key to true (with issues.capture) to opt in. All " ++
      "issue-pipeline layers are OFF by default.")
  let mode ← ctx.repoMode
  let issue ← onIssues (IssueStore.getIssue input.issueId)
  let issue ← orThrow issue
    s!"co_issue_file: no issue record for '{input.issueId}' — capture it first."
  if issue.state = .filed ∨ issue.state = .selfAssigned then
    return {
      status := .filed
      approvalSeq := issue.approvalSeq
      postedRef := issue.postedRef
      issue }
  else
    let issue ← diagnosedIssue ctx input issue
    refuse (issue.state ≠ .diagnosed)
      (s!"co_issue_file: issue '{input.issueId}' is in state '{issue.state}' — it must be " ++
        "diagnosed before filing (the pipeline is detect → diagnose → dedup → file). Supply a " ++
        "'probable_cause' on this call to diagnose it inline, or dispatch a researcher to run " ++
        "co_issue_diagnose.")
    assertIssueDestinationAllowed issue.destination mode
    requestOrFile ctx input issue (← existingApproval issue.issueId)

/-! ## What it leaves behind -/

variable {ctx : ToolContext} {input : IssueFileInput} {desk desk' : Desk}

theorem onMail_eq_ok {α : Type} {p : StoreProc α} {a : α} :
    onMail p desk = (.ok a, desk') ↔
      p desk.db = (.ok a, desk'.db) ∧ desk'.issues = desk.issues := by
  obtain ⟨db', issues'⟩ := desk'
  simp only [onMail, Desk.mk.injEq, Proc.exec, Prod.ext_iff, eq_comm (a := issues')]
  tauto

theorem onIssues_eq_ok {α : Type} {p : Proc IssueTables String α} {a : α} :
    onIssues p desk = (.ok a, desk') ↔
      p desk.issues = (.ok a, desk'.issues) ∧ desk'.db = desk.db := by
  obtain ⟨db', issues'⟩ := desk'
  simp only [onIssues, Desk.mk.injEq, Proc.exec, Prod.ext_iff, eq_comm (a := db')]
  tauto

/-- The inline diagnosis is of the same issue, and sends no mail. -/
theorem diagnosedIssue_eq_ok {issue issue' : StoredIssue}
    (h : diagnosedIssue ctx input issue desk = (.ok issue', desk')) :
    issue'.issueId = issue.issueId ∧ desk'.db = desk.db := by
  by_cases hinline : issue.state = .captured ∧ input.probableCause.isSome = true
  · obtain ⟨hstate, hcause⟩ := hinline
    obtain ⟨probableCause, hcause⟩ := Option.isSome_iff_exists.1 hcause
    simp only [diagnosedIssue, hstate, hcause] at h
    obtain ⟨_, -, h⟩ := Proc.liftM_bind_eq_ok.1 h
    obtain ⟨hrecord, hdb⟩ := onIssues_eq_ok.1 h
    exact ⟨IssueStore.record_eq_ok hrecord, hdb⟩
  · have hsame : diagnosedIssue ctx input issue = pure issue := by
      unfold diagnosedIssue
      cases hstate : issue.state <;> cases hcause : input.probableCause <;> simp_all
    rw [hsame] at h
    obtain ⟨hissue, hdesk⟩ := Prod.mk.inj h
    rw [← hdesk, Except.ok.inj hissue]
    exact ⟨rfl, rfl⟩

/-- The lookup finds the caller's own request unless it was withdrawn. -/
theorem withdrawn_of_not_found {t : Mail.MailTables} {issueId sender : String}
    {senderAllowed : String → Bool} (hallowed : senderAllowed sender = true)
    (h : findIssueFilingApproval (Mail.inboxForRecipient t Mail.OPERATOR) issueId senderAllowed =
      none) :
    ∀ row ∈ t.inbox, Asks (issueFilingApprovalKey issueId) row → row.sender = sender →
      row.retracted = true := by
  rintro row hrow ⟨hrecipient, htype, hkey⟩ rfl
  by_contra hkept
  have hmem : row ∈ Mail.inboxForRecipient t Mail.OPERATOR := by
    rw [Mail.inboxForRecipient, List.mem_filter]
    exact ⟨hrow, by simp [hrecipient, Bool.eq_false_iff.2 hkept]⟩
  have hskipped := List.find?_eq_none.1 h row hmem
  simp [htype, hkey, hkept, hallowed] at hskipped

/-- Where the caller's role may file, what was not found the caller withdrew. -/
theorem withdrawn_of_existingApproval {issueId : String} {record : Roles.AgentRecord}
    (hrecord : Roles.selectAgent desk.db.roster ctx.agent = some record)
    (hrole : record.role ∈ ownerTier)
    (h : existingApproval issueId desk = (.ok none, desk')) :
    desk' = desk ∧ ∀ row ∈ desk.db.mail.inbox, Asks (issueFilingApprovalKey issueId) row →
      row.sender = ctx.agent → row.retracted = true := by
  obtain ⟨hnone, hsame⟩ := Prod.mk.inj h
  refine ⟨hsame.symm, withdrawn_of_not_found ?_ (Except.ok.inj hnone)⟩
  change (Roles.selectAgent desk.db.roster ctx.agent).any (fun record => record.role ∈ ownerTier) =
    true
  simp [hrecord, hrole]

theorem requestOrFile_eq_ok {issue : StoredIssue} {existing : Option DeliveredMail}
    {out : IssueFileOutput} (h : requestOrFile ctx input issue existing desk = (.ok out, desk'))
    (hstatus : out.status = .approvalRequested) :
    existing = none ∧ ∃ sent, Mail.MailStore.send ctx.delivery
      (buildIssueFilingApproval ctx.agent issue.toIssueRecord (input.title.getD issue.summary))
      desk.db = (.ok sent, desk'.db) := by
  cases existing with
  | none =>
    obtain ⟨sent, _, hsend, h⟩ := Proc.bind_eq_ok.1 h
    obtain ⟨-, rfl⟩ := Prod.mk.inj h
    exact ⟨rfl, sent, (onMail_eq_ok.1 hsend).1⟩
  | some existing =>
    obtain ⟨_, _, -, h⟩ := Proc.bind_eq_ok.1 h
    obtain ⟨_, -, h⟩ := Proc.liftM_bind_eq_ok.1 h
    obtain ⟨_, _, -, h⟩ := Proc.bind_eq_ok.1 h
    obtain ⟨hout, -⟩ := Prod.mk.inj h
    rw [← Except.ok.inj hout] at hstatus
    cases hstatus

/-- What the caller was asked for, it had the role for. -/
theorem assertToolCallerRole_eq_ok {tool agent : String} {roster : Roles.RosterTables}
    {allowed : List Role} {u : Unit} (h : assertToolCallerRole tool roster agent allowed = .ok u) :
    ∃ record, Roles.selectAgent roster agent = some record ∧ record.role ∈ allowed := by
  obtain ⟨record, hrecord, hrole⟩ := bind_eq_ok.1 h
  exact ⟨record, orThrow_eq_ok.1 hrecord, not_not.1 (refuse_eq_ok.1 hrole)⟩

/-- A filing that asks the operator leaves the request open exactly where the caller had withdrawn
none, or one was open. -/
theorem file_request_pending_iff {out : IssueFileOutput}
    (h : issueFileTool ctx input desk = (.ok out, desk'))
    (hstatus : out.status = .approvalRequested) :
    Pending (issueFilingApprovalKey input.issueId) desk'.db.mail ↔
      NotWithdrawn ctx.agent (issueFilingApprovalKey input.issueId) desk.db.mail ∨
        Pending (issueFilingApprovalKey input.issueId) desk.db.mail := by
  obtain ⟨_, _, hread, h⟩ := Proc.bind_eq_ok.1 h
  obtain ⟨hread, hsame⟩ := Prod.mk.inj hread
  obtain rfl := Except.ok.inj hread
  rw [← hsame] at h
  obtain ⟨_, hcaller, h⟩ := Proc.liftM_bind_eq_ok.1 h
  obtain ⟨record, hrecord, hrole⟩ := assertToolCallerRole_eq_ok hcaller
  obtain ⟨_, -, h⟩ := Proc.liftM_bind_eq_ok.1 h
  obtain ⟨mode, -, h⟩ := Proc.liftM_bind_eq_ok.1 h
  obtain ⟨found, _, hfound, h⟩ := Proc.bind_eq_ok.1 h
  obtain ⟨hfound, hlooked⟩ := Prod.mk.inj hfound
  obtain rfl := Except.ok.inj hfound
  rw [← hlooked] at h
  obtain ⟨issue, hissue, h⟩ := Proc.liftM_bind_eq_ok.1 h
  have hid : issue.issueId = input.issueId := (Table.find?_eq_some.1 (orThrow_eq_ok.1 hissue)).2
  split at h
  · obtain ⟨hout, -⟩ := Prod.mk.inj h
    rw [← Except.ok.inj hout] at hstatus
    cases hstatus
  · obtain ⟨diagnosed, mid, hdiagnosed, h⟩ := Proc.bind_eq_ok.1 h
    obtain ⟨hsameId, hdb⟩ := diagnosedIssue_eq_ok hdiagnosed
    obtain ⟨_, -, h⟩ := Proc.liftM_bind_eq_ok.1 h
    obtain ⟨_, -, h⟩ := Proc.liftM_bind_eq_ok.1 h
    obtain ⟨existing, _, hexisting, h⟩ := Proc.bind_eq_ok.1 h
    obtain ⟨rfl, sent, hsend⟩ := requestOrFile_eq_ok h hstatus
    rw [← hdb] at hrecord ⊢
    rw [← hid, ← hsameId]
    obtain ⟨rfl, hwithdrawn⟩ := withdrawn_of_existingApproval hrecord hrole hexisting
    rw [Mail.send_approval_pending rfl hsend, Mail.notWithdrawn_iff_of_withdrawn hwithdrawn]

end Orchestration.Issues
