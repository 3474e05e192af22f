import Orchestration.Mail.Idempotency

/-!
# Approvals

What is genuinely outward waits for the operator: a request goes to the operator's inbox under
a key that names what is asked for, and the recorded answer gates the action. The request of a
key is looked up among the mails that the operator sees, but sent once for all: a mail of the
key that its sender withdrew is sent no second time.
-/

namespace Orchestration.Mail

open Fallible Transaction

/-- What an approval came to so far. -/
inductive ApprovalOutcome where
  | pending
  | approved
  | declined
deriving DecidableEq, Repr

/-- Whether the mail is the operator's answer to the approval. -/
def answersApproval (approval mail : DeliveredMail) : Bool :=
  mail.type == .approvalResponse && mail.sender == approval.recipient &&
    mail.recipient == approval.sender && mail.correlationId == some approval.threadId &&
    mail.causationId == some (toString approval.seq)

/-- Read the outcome of an approval from the answer in its sender's inbox. -/
def approvalOutcome (approval : DeliveredMail) : StoreProc ApprovalOutcome := do
  let inbox ← MailStore.inbox approval.recipient
  let stored ← orThrow
    ((inbox.find? fun mail => mail.seq == approval.seq).filter fun mail => mail.type == .approval)
    "approvalOutcome: expected a persisted approval mail item"
  let answers ← MailStore.inbox stored.sender
  match (answers.find? (answersApproval stored)).bind (·.decision) with
  | none => return .pending
  | some .approve => return .approved
  | some .decline => return .declined

/-- Run an outward action once it is approved. -/
def gateOutwardAction {α : Type} (outcome : ApprovalOutcome) (action : Except String α) :
    Except String α :=
  match outcome with
  | .approved => action
  | .pending => throw "approval gate: outward action BLOCKED — approval is still pending"
  | .declined => throw "approval gate: outward action REFUSED — approval was declined"

/-- A request to bless something outward. -/
structure OutwardApprovalRequest where
  «from» : String
  subject : String
  body : String
  idempotencyKey : Option String := none
deriving DecidableEq, Repr

/-- An outward approval always goes to the operator. -/
def outwardApprovalEnvelope (req : OutwardApprovalRequest) : MailEnvelope where
  type := .approval
  «to» := OPERATOR
  «from» := req.from
  subject := req.subject
  body := req.body
  idempotencyKey := req.idempotencyKey

/-! ## Asking the operator -/

/-- The mail asks the operator for what the key names. -/
def Asks (key : String) (mail : DeliveredMail) : Prop :=
  mail.recipient = OPERATOR ∧ mail.type = .approval ∧ mail.idempotencyKey = some key

instance (key : String) (mail : DeliveredMail) : Decidable (Asks key mail) :=
  inferInstanceAs (Decidable (_ ∧ _))

/-- The operator has an open request of the key. -/
def Pending (key : String) (t : MailTables) : Prop :=
  ∃ mail ∈ outstandingForRecipient t OPERATOR, Asks key mail

instance (key : String) (t : MailTables) : Decidable (Pending key t) :=
  inferInstanceAs (Decidable (∃ mail ∈ _, _))

/-- No request of the key was answered. -/
def Unanswered (key : String) (t : MailTables) : Prop :=
  ∀ mail ∈ t.inbox, Asks key mail → mail.resolved = false

instance (key : String) (t : MailTables) : Decidable (Unanswered key t) :=
  inferInstanceAs (Decidable (∀ mail ∈ _, _))

/-- No request of the key by `sender` was withdrawn. -/
def NotWithdrawn (sender key : String) (t : MailTables) : Prop :=
  ∀ mail ∈ t.inbox, Asks key mail → mail.sender = sender → mail.retracted = false

instance (sender key : String) (t : MailTables) : Decidable (NotWithdrawn sender key t) :=
  inferInstanceAs (Decidable (∀ mail ∈ _, _))

theorem mem_outstanding {t : MailTables} {recipient : String} {mail : DeliveredMail} :
    mail ∈ outstandingForRecipient t recipient ↔ mail ∈ t.inbox ∧ mail.recipient = recipient ∧
      mail.kind = .actionable ∧ mail.resolved = false ∧ mail.retracted = false := by
  simp [outstandingForRecipient, and_assoc]

theorem pending_iff {key : String} {t : MailTables} :
    Pending key t ↔ ∃ mail ∈ t.inbox, Asks key mail ∧ mail.resolved = false ∧
      mail.retracted = false := by
  constructor
  · rintro ⟨mail, hmail, hasks⟩
    obtain ⟨hmem, -, -, hresolved, hretracted⟩ := mem_outstanding.1 hmail
    exact ⟨mail, hmem, hasks, hresolved, hretracted⟩
  · rintro ⟨mail, hmem, hasks, hresolved, hretracted⟩
    refine ⟨mail, mem_outstanding.2 ⟨hmem, hasks.1, ?_, hresolved, hretracted⟩, hasks⟩
    rw [DeliveredMail.kind, hasks.2.1]
    rfl

section

variable {req : OutwardApprovalRequest} {key : String} {t : MailTables}

theorem keyedAs_outwardApproval {mail : DeliveredMail} (hkey : req.idempotencyKey = some key) :
    KeyedAs (outwardApprovalEnvelope req) mail ↔ Asks key mail ∧ mail.sender = req.from := by
  constructor
  · intro h
    exact ⟨⟨h.recipient, h.type, h.key.trans hkey⟩, h.sender⟩
  · rintro ⟨⟨hrecipient, htype, hmail⟩, hsender⟩
    refine ⟨?_, hmail.trans hkey.symm, hrecipient, hsender, htype⟩
    change req.idempotencyKey.isSome = true
    rw [hkey]
    rfl

/-- A request that was added is open. -/
theorem pending_of_added {seq ts : ℕ} (hkey : req.idempotencyKey = some key)
    (h : deliveredRow (outwardApprovalEnvelope req) seq ts ∈ t.inbox) : Pending key t :=
  pending_iff.2 ⟨_, h, ⟨rfl, rfl, hkey⟩, rfl, rfl⟩

/-- A sent request is open afterwards where the sender had sent none, or one is open. What the
send finds is the sender's own earlier mail, withdrawn or not. -/
theorem send_approval_pending {delivery : Delivery} {mail : DeliveredMail} {db db' : Db}
    (hkey : req.idempotencyKey = some key)
    (h : MailStore.send delivery (outwardApprovalEnvelope req) db = (.ok mail, db')) :
    Pending key db'.mail ↔
      (∀ row ∈ db.mail.inbox, Asks key row → row.sender ≠ req.from) ∨ Pending key db.mail := by
  cases send_eq_ok h with
  | inl hfound =>
    obtain ⟨rfl, hold⟩ := hfound
    refine ⟨.inr, fun hopen => ?_⟩
    cases hopen with
    | inr hopen => exact hopen
    | inl hnone =>
      rw [existingForKey_eq_none_iff.2 fun row hrow hkeyed => ?_] at hold
      · cases hold
      · obtain ⟨hasks, hsender⟩ := (keyedAs_outwardApproval hkey).1 hkeyed
        exact hnone row hrow hasks hsender
  | inr hadded =>
    obtain ⟨hfresh, rfl, hmem, -⟩ := hadded
    constructor
    · intro _
      refine .inl fun row hrow hasks hsender => ?_
      exact existingForKey_eq_none_iff.1 hfresh row hrow
        ((keyedAs_outwardApproval hkey).2 ⟨hasks, hsender⟩)
    · intro _
      exact pending_of_added hkey hmem

/-- Where all that the sender sent of the key was withdrawn, nothing was sent if nothing was
withdrawn. -/
theorem notWithdrawn_iff_of_withdrawn {sender : String}
    (h : ∀ row ∈ t.inbox, Asks key row → row.sender = sender → row.retracted = true) :
    NotWithdrawn sender key t ↔ ∀ row ∈ t.inbox, Asks key row → row.sender ≠ sender := by
  constructor
  · intro hkept row hrow hasks hsender
    have hretracted := hkept row hrow hasks hsender
    rw [h row hrow hasks hsender] at hretracted
    cases hretracted
  · intro hfree row hrow hasks hsender
    exact absurd hsender (hfree row hrow hasks)

/-- Where no request of the key was answered, what the sender sent is open unless it was
withdrawn. -/
theorem free_or_pending_iff {sender : String} (hanswers : Unanswered key t) :
    (∀ row ∈ t.inbox, Asks key row → row.sender ≠ sender) ∨ Pending key t ↔
      NotWithdrawn sender key t ∨ Pending key t := by
  by_cases hpending : Pending key t
  · simp only [hpending, or_true]
  · have hwithdrawn : ∀ row ∈ t.inbox, Asks key row → row.retracted = true := by
      intro row hrow hasks
      by_contra hkept
      exact hpending (pending_iff.2
        ⟨row, hrow, hasks, hanswers row hrow hasks, Bool.eq_false_iff.2 hkept⟩)
    rw [notWithdrawn_iff_of_withdrawn fun row hrow hasks _ => hwithdrawn row hrow hasks]

end

end Orchestration.Mail
