import Orchestration.Issues.FileTool
import Orchestration.Replay.Recovery
import Orchestration.Specs.LockApproval

/-!
# Requested approvals

Two tools ask the operator for an approval: the filing of an issue and the lock of a spec. After
either says that the operator was asked, the request is open, unless the caller had withdrawn an
earlier one: then the send finds the withdrawn mail and sends nothing.
-/

namespace Orchestration.Issues

open Replay (StoreCall)
open Mail (Asks DeliveredMail Delivery NotWithdrawn Pending Unanswered)
open Specs (MailSendInput SpecTables mailSendTool specLockApprovalKey)

/-- A call by which an agent asks the operator. -/
inductive ApprovalCall where
  | fileIssue (ctx : ToolContext) (input : IssueFileInput)
  | lockSpec (delivery : Delivery) (agent taskId : String) (specs : Option SpecTables)
      (input : MailSendInput)

namespace ApprovalCall

/-- The agent that asks. -/
def caller : ApprovalCall → String
  | fileIssue ctx _ => ctx.agent
  | lockSpec _ agent _ _ _ => agent

/-- The key of what it asks for. -/
def key : ApprovalCall → String
  | fileIssue _ input => issueFilingApprovalKey input.issueId
  | lockSpec _ _ taskId _ _ => specLockApprovalKey taskId

/-- The tool says that the operator was asked: the filing in so many words, the lock by returning
for a task whose request was never answered. -/
def Asked (call : ApprovalCall) (desk desk' : Desk) : Prop :=
  match call with
  | fileIssue ctx input =>
    ∃ out, issueFileTool ctx input desk = (.ok out, desk') ∧ out.status = .approvalRequested
  | lockSpec delivery agent taskId specs input =>
    input.lockTaskId = some taskId ∧ Unanswered (specLockApprovalKey taskId) desk.db.mail ∧
      ∃ mail, onMail (mailSendTool delivery agent specs input) desk = (.ok mail, desk')

end ApprovalCall

/-! ## Runs -/

/-- Something happens at the desk. -/
inductive DeskStep where
  | store (call : StoreCall)
  | issue (event : IssueEvent)
  | file (ctx : ToolContext) (input : IssueFileInput)
  | send (delivery : Delivery) (agent : String) (specs : Option SpecTables) (input : MailSendInput)

/-- The desk after a step. -/
def DeskStep.exec : DeskStep → Desk → Desk
  | store call, desk => { desk with db := call.exec desk.db }
  | issue event, desk => (onIssues (IssueStore.record "record" event)).exec desk
  | file ctx input, desk => (issueFileTool ctx input).exec desk
  | send delivery agent specs input, desk => (onMail (mailSendTool delivery agent specs input)).exec desk

/-- The desk after `steps`. -/
abbrev deskRun (steps : List DeskStep) (desk : Desk) : Desk := Run.after DeskStep.exec steps desk

def Desk.fresh : Desk := { db := Db.atRest, issues := {} }

/-- Wherever the desk got to: a request that a tool says was made is open afterwards exactly where
the caller had withdrawn no request of the key, or one was open already. -/
theorem requested_approval_pending_iff (steps : List DeskStep) (desk : Desk) {call : ApprovalCall}
    {desk' : Desk} (h : call.Asked (deskRun steps desk) desk') :
    Pending call.key desk'.db.mail ↔
      NotWithdrawn call.caller call.key (deskRun steps desk).db.mail ∨
        Pending call.key (deskRun steps desk).db.mail := by
  cases call with
  | fileIssue ctx input =>
    obtain ⟨out, hcall, hstatus⟩ := h
    exact file_request_pending_iff hcall hstatus
  | lockSpec delivery agent taskId specs input =>
    obtain ⟨htask, hanswers, mail, hcall⟩ := h
    exact Specs.lock_request_pending_iff htask hanswers (onMail_eq_ok.1 hcall).1

/-! ## A withdrawn request -/

/-- The coordinator of a project that publishes its issues. -/
def publisher : ToolContext where
  agent := "main"
  cwd := "/repo"
  delivery := .inProcess
  effective key :=
    if key = "issues.capture" ∨ key = "issues.publish" then some (.bool true) else none
  repoMode := .ok .owner
  ghExec _ _ := .error "offline"
  hasGhToken := true

/-- The coordinator files an issue. -/
def fileIssue : ApprovalCall := .fileIssue publisher { issueId := "i" }

/-- The coordinator captures and diagnoses an issue. -/
def diagnosed : List DeskStep := [
  .store (.roster (.recordAgent { agentId := "main", role := .coordinator, parent := "@operator" })),
  .issue (.captured ⟨"i", "s", "d", .target, "main"⟩),
  .issue (.diagnosed ⟨"i", "c", "main"⟩)]

/-- It asks to file it, and withdraws the request. -/
def withdrawn : List DeskStep := diagnosed ++ [
  .file publisher { issueId := "i" },
  .store (.mail .inProcess (.retract "main" 2))]

/-- The desk after the coordinator files the issue. -/
def filedAfter (steps : List DeskStep) : Desk :=
  (issueFileTool publisher { issueId := "i" }).exec (deskRun steps .fresh)

theorem asked_of_requested {steps : List DeskStep}
    (h : ((issueFileTool publisher { issueId := "i" } (deskRun steps .fresh)).1.toOption.any
      fun out => out.status = .approvalRequested) = true) :
    fileIssue.Asked (deskRun steps .fresh) (filedAfter steps) := by
  cases hresult : (issueFileTool publisher { issueId := "i" } (deskRun steps .fresh)).1 with
  | error e =>
    rw [hresult] at h
    cases h
  | ok out =>
    rw [hresult] at h
    exact ⟨out, Prod.ext hresult rfl, of_decide_eq_true h⟩

/-- The first request is open. -/
theorem requested_approval_pending_first :
    Pending fileIssue.key (filedAfter diagnosed).db.mail :=
  (requested_approval_pending_iff diagnosed .fresh
    (asked_of_requested (by decide +kernel))).2 (.inl (by decide +kernel))

/-- The coordinator files the issue again, is told that the operator was asked, and the operator
has nothing to answer. -/
theorem withdrawn_request_is_not_sent : ¬ ∀ (steps : List DeskStep) (call : ApprovalCall)
    (desk' : Desk), call.Asked (deskRun steps .fresh) desk' → Pending call.key desk'.db.mail := by
  intro hpending
  have hasked : fileIssue.Asked (deskRun withdrawn .fresh) (filedAfter withdrawn) :=
    asked_of_requested (by decide +kernel)
  have hnone : ¬ Pending fileIssue.key (filedAfter withdrawn).db.mail := by decide +kernel
  exact hnone (hpending withdrawn fileIssue (filedAfter withdrawn) hasked)

end Orchestration.Issues
