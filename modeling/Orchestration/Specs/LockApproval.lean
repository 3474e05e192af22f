import Orchestration.Library.Table
import Orchestration.Mail.Approval

/-!
# Spec locks

A draft spec is locked by the operator's approval. The request is mailed by `co_mail_send`
under a key that names the task, and the same key is refused to any other new mail.
-/

namespace Orchestration.Specs

open Fallible Transaction
open Mail (ApprovalDecision Asks DeliveredMail Delivery MailEnvelope MailType
  NotWithdrawn Pending Unanswered outwardApprovalEnvelope)

structure Criterion where
  text : String
  verify : Option String := none
deriving DecidableEq, Repr

/-- What the request of a lock reads of a spec. -/
structure SpecRecord where
  taskId : String
  criteria : List Criterion
deriving DecidableEq, Repr

abbrev SpecTables := Table SpecRecord.taskId

def specLockApprovalKey (taskId : String) : String := "spec-lock:" ++ taskId

/-- The key is in the reserved namespace. -/
def isSpecLockApprovalKey (key : Option String) : Bool :=
  key.any fun key => "spec-lock:".toList.isPrefixOf key.toList

/-- The criteria as the operator sees them. -/
def renderCriteriaPreview (spec : SpecRecord) : String :=
  if spec.criteria.length = 0 then "(no acceptance criteria recorded yet)"
  else
    "\n".intercalate <| spec.criteria.mapIdx fun i c =>
      let verify := (c.verify.filter (· ≠ "")).getD "(no verify command)"
      s!"{i + 1}. {c.text}\n   verify: {verify}"

/-- The request to lock the spec of a task, from the agent `sender`. -/
def buildSpecLockApprovalEnvelope (sender taskId : String) (spec : SpecRecord) : MailEnvelope :=
  outwardApprovalEnvelope {
    «from» := sender
    subject := s!"Lock spec for {taskId}: freeze acceptance criteria"
    body := s!"Approve to lock the spec for task '{taskId}' — its acceptance criteria are " ++
      "frozen for review (only a draft can be locked; fuzzy criteria are refused). Criteria to " ++
      s!"freeze:\n\n{renderCriteriaPreview spec}"
    idempotencyKey := some (specLockApprovalKey taskId) }

/-- A call of `co_mail_send` that answers no mail. -/
structure MailSendInput where
  «to» : Option String := none
  type : MailType
  subject : String
  body : String
  idempotencyKey : Option String := none
  decision : Option ApprovalDecision := none
  lockTaskId : Option String := none
deriving DecidableEq, Repr

/-- `co_mail_send` for a new mail: the request of a spec lock, or plain mail. -/
def mailSendTool (delivery : Delivery) (agent : String) (specs : Option SpecTables)
    (input : MailSendInput) : StoreProc DeliveredMail :=
  match input.lockTaskId with
  | some taskId => do
    refuse (input.type ≠ .approval)
      (s!"co_mail_send: lock_task_id is only valid for a new '{MailType.approval}' request " ++
        s!"(got type '{input.type}').")
    let specs ← orThrow specs
      "co_mail_send: the mount did not inject a spec store (ctx.specs absent)."
    let spec ← orThrow (specs.find? taskId)
      (s!"co_mail_send: no spec record for task '{taskId}' — draft it before " ++
        "requesting a lock.")
    Mail.MailStore.send delivery (buildSpecLockApprovalEnvelope agent taskId spec)
  | none => do
    refuse (isSpecLockApprovalKey input.idempotencyKey)
      ("co_mail_send: spec-lock idempotency keys are reserved; use lock_task_id to mint a " ++
        "spec-lock approval request.")
    let recipient ← orThrow (input.to.filter (· ≠ ""))
      ("co_mail_send: \x60to\x60 is required for a new message (omit it only when replying via " ++
        "in_reply_to).")
    Mail.MailStore.send delivery {
      type := input.type
      «to» := recipient
      «from» := agent
      subject := input.subject
      body := input.body
      idempotencyKey := input.idempotencyKey
      decision := input.decision }

variable {delivery : Delivery} {agent taskId : String} {specs : Option SpecTables}
  {input : MailSendInput} {mail : DeliveredMail} {db db' : Db}

/-- A request of a lock that returns has sent the approval of the task. -/
theorem mailSendTool_eq_ok (htask : input.lockTaskId = some taskId)
    (h : mailSendTool delivery agent specs input db = (.ok mail, db')) :
    ∃ spec, Mail.MailStore.send delivery (buildSpecLockApprovalEnvelope agent taskId spec) db =
      (.ok mail, db') := by
  rw [mailSendTool, htask] at h
  obtain ⟨_, -, h⟩ := Proc.liftM_bind_eq_ok.1 h
  obtain ⟨specs, -, h⟩ := Proc.liftM_bind_eq_ok.1 h
  obtain ⟨spec, -, h⟩ := Proc.liftM_bind_eq_ok.1 h
  exact ⟨spec, h⟩

/-- A request of a lock that was never answered is open after the call exactly where the caller
had withdrawn none, or one was open. -/
theorem lock_request_pending_iff (htask : input.lockTaskId = some taskId)
    (hanswers : Unanswered (specLockApprovalKey taskId) db.mail)
    (h : mailSendTool delivery agent specs input db = (.ok mail, db')) :
    Pending (specLockApprovalKey taskId) db'.mail ↔
      NotWithdrawn agent (specLockApprovalKey taskId) db.mail ∨
        Pending (specLockApprovalKey taskId) db.mail := by
  obtain ⟨spec, hsend⟩ := mailSendTool_eq_ok htask h
  rw [Mail.send_approval_pending rfl hsend]
  exact Mail.free_or_pending_iff hanswers

end Orchestration.Specs
