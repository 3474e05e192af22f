import Orchestration.Review.Verdict

/-!
# Mail events

The envelope a caller sends, the mail item the inbox holds, and the events the
mail store appends: one for each mail, and the receipts that record a read, a
forward, a retraction, a clean-up or a live delivery effect. The recipient is
the event's scope and the sender its actor.
-/

namespace Orchestration.Mail

open Orchestration.Review (Verdict)

/-- The single non-agent participant. -/
def OPERATOR : String := "@operator"

/-- Scope prefix of every recipient stream. -/
def MAIL_SCOPE_PREFIX : String := "mail:"

/-- The registered mail types; no other type can be sent. -/
inductive MailType where
  | chat
  | operatorMessage
  | clarifyRequest
  | clarifyResponse
  | approval
  | approvalResponse
  | escalation
  | workerDone
  | reviewRequest
  | reviewResponse
deriving DecidableEq, Repr

instance : ToString MailType where
  toString
    | .chat => "chat"
    | .operatorMessage => "operator_message"
    | .clarifyRequest => "clarify_request"
    | .clarifyResponse => "clarify_response"
    | .approval => "approval"
    | .approvalResponse => "approval_response"
    | .escalation => "escalation"
    | .workerDone => "worker_done"
    | .reviewRequest => "review_request"
    | .reviewResponse => "review_response"

/-- The decision an `approval_response` carries. -/
inductive ApprovalDecision where
  | approve
  | decline
deriving DecidableEq, Repr

/-- Whether a mail demands a response. -/
inductive MailKind where
  | actionable
  | informational
deriving DecidableEq, Repr

/-- The kind registry. -/
def mailKind : MailType → MailKind
  | .clarifyRequest => .actionable
  | .approval => .actionable
  | .escalation => .actionable
  | .reviewRequest => .actionable
  | .clarifyResponse | .chat | .operatorMessage | .approvalResponse | .workerDone
  | .reviewResponse => .informational

/-- The payload of a mail: prose, and the structured field that one response type carries. -/
structure MailPayload where
  subject : String
  body : String
  decision : Option ApprovalDecision := none
  reviewVerdict : Option Verdict := none
deriving DecidableEq, Repr

/-- The payload schema of each mail type. Only `approval_response` reads `decision` and only
`review_response` reads `reviewVerdict`; every other type strips them. -/
def mailSchema (type : MailType) (candidate : MailPayload) : Except String MailPayload :=
  match type with
  | .approvalResponse =>
    match candidate.decision with
    | some _ => pure { candidate with reviewVerdict := none }
    | none => throw "decision: Invalid option: expected one of \"approve\"|\"decline\""
  | .reviewResponse =>
    match candidate.reviewVerdict with
    | some _ => pure { candidate with decision := none }
    | none => throw "reviewVerdict: Invalid option: expected one of \"PASS\"|\"ISSUES\""
  | _ => pure { candidate with decision := none, reviewVerdict := none }

/-- The successful effects a live-delivery receipt acknowledges. -/
structure MailLiveEffect where
  seq : ℕ
  wakeSucceeded : Bool := false
  injectSucceeded : Bool := false
deriving DecidableEq, Repr

/-- What a mail-store event carries: a mail of one of the registered types, or a receipt. -/
inductive MailEvent where
  | mail (type : MailType) (payload : MailPayload)
  | read (seq : ℕ)
  | forwarded (seq : ℕ) (forwardedTo : String)
  | retracted (seq : ℕ)
  | recipientCleared
  | recipientSenderCleared (sender : String)
  | liveEffect (effect : MailLiveEffect)
deriving DecidableEq, Repr

/-- The event type as the log stores it. -/
def MailEvent.typeName : MailEvent → String
  | .mail type _ => toString type
  | .read _ => "mail.read"
  | .forwarded _ _ => "mail.forwarded"
  | .retracted _ => "mail.retracted"
  | .recipientCleared => "mail.recipient_cleared"
  | .recipientSenderCleared _ => "mail.recipient_sender_cleared"
  | .liveEffect _ => "mail.live_effect"

/-- The payload schema of each mail event, checked on append and on every read. -/
def mailSchemas : MailEvent → Except String MailEvent
  | .mail type payload => return .mail type (← mailSchema type payload)
  | .forwarded seq forwardedTo => do
    minLength1 "forwardedTo" forwardedTo
    return .forwarded seq forwardedTo
  | .recipientSenderCleared sender => do
    minLength1 "sender" sender
    return .recipientSenderCleared sender
  | .liveEffect effect =>
    if effect.wakeSucceeded ∨ effect.injectSucceeded then return .liveEffect effect
    else throw "mail live effect must acknowledge wakeSucceeded or injectSucceeded"
  | event => return event

/-- What a caller hands to `send`. -/
structure MailEnvelope where
  type : MailType
  «to» : String
  «from» : String
  subject : String
  body : String
  correlationId : Option String := none
  causationId : Option String := none
  idempotencyKey : Option String := none
  decision : Option ApprovalDecision := none
  reviewVerdict : Option Verdict := none
deriving DecidableEq, Repr

/-- A persisted mail item; its identity is the `seq` of its event. Two columns of its row are
not fields here, because they are computed from fields that no event changes: `kind` and
`threadId` below. -/
structure DeliveredMail where
  seq : ℕ
  recipient : String
  sender : String
  type : MailType
  subject : String
  body : String
  correlationId : Option String
  causationId : Option String
  idempotencyKey : Option String
  ts : ℕ
  read : Bool := false
  resolved : Bool := false
  retracted : Bool := false
  decision : Option ApprovalDecision
  reviewVerdict : Option Verdict
deriving DecidableEq, Repr

/-- Whether the item demands a response. -/
def DeliveredMail.kind (mail : DeliveredMail) : MailKind := mailKind mail.type

/-- The thread a mail belongs to: the one it names, or the one it starts. -/
def threadOf (correlationId : Option String) (seq : ℕ) : String :=
  correlationId.getD (toString seq)

/-- The thread of a persisted mail. -/
def DeliveredMail.threadId (mail : DeliveredMail) : String :=
  threadOf mail.correlationId mail.seq

/-- A recipient's stream scope. -/
def mailScope (recipient : String) : String := MAIL_SCOPE_PREFIX ++ recipient

/-- The recipient of an event scope, or a failure on any scope that is no mail stream. -/
def mailRecipientForScope (scope : String) : Except String String :=
  match afterPrefix? MAIL_SCOPE_PREFIX scope with
  | none => throw s!"mail: unexpected scope '{scope}' (want '{MAIL_SCOPE_PREFIX}…')"
  | some recipient =>
    if recipient = "" then throw s!"mail: empty recipient in scope '{scope}'" else pure recipient

theorem mailRecipientForScope_mailScope {recipient : String} (h : recipient ≠ "") :
    mailRecipientForScope (mailScope recipient) = .ok recipient := by
  simp [mailRecipientForScope, mailScope, h, pure, Except.pure]

/-- Reject an empty address. -/
def assertAddress (field value : String) : Except String Unit :=
  if value = "" then throw s!"mail: '{field}' must be a non-empty string" else pure ()

@[simp] theorem assertAddress_eq_ok {field value : String} {u : Unit} :
    assertAddress field value = .ok u ↔ value ≠ "" := by
  by_cases h : value = "" <;> simp [assertAddress, h, throw, throwThe, MonadExceptOf.throw, pure,
    Except.pure]

/-- Check an envelope's addressing and its payload against the schema of its type. -/
def validateEnvelope (envelope : MailEnvelope) : Except String MailPayload := do
  assertAddress "to" envelope.to
  assertAddress "from" envelope.from
  if envelope.type = .approval ∧ envelope.to ≠ OPERATOR then
    throw s!"mail: approval must be addressed to {OPERATOR}"
  else if envelope.type = .reviewRequest ∧ envelope.to ≠ OPERATOR then
    throw s!"mail: review_request must be addressed to {OPERATOR}"
  else
    mailSchema envelope.type
      { subject := envelope.subject, body := envelope.body, decision := envelope.decision,
        reviewVerdict := envelope.reviewVerdict }

/-- The event of a mail: the recipient stream is the scope, the sender the actor. -/
def makeMailEvent (envelope : MailEnvelope) : Except String (NewEvent MailEvent) := do
  let payload ← validateEnvelope envelope
  return {
    scope := mailScope envelope.to
    v := 1
    payload := .mail envelope.type payload
    actor := envelope.from
    correlationId := envelope.correlationId
    causationId := envelope.causationId
    idempotencyKey := envelope.idempotencyKey }

/-- The read receipt of `recipient` for the mail at `seq`. -/
def makeMailReadEvent (recipient : String) (seq : ℕ) : Except String (NewEvent MailEvent) := do
  assertAddress "to" recipient
  return { scope := mailScope recipient, v := 1, payload := .read seq, actor := recipient }

/-- The tombstone by which `sender` withdraws the mail at `seq`. -/
def makeMailRetractEvent (sender : String) (seq : ℕ) : Except String (NewEvent MailEvent) := do
  assertAddress "from" sender
  return {
    scope := mailScope sender
    v := 1
    payload := .retracted seq
    actor := sender
    causationId := toString seq }

/-- The receipt that clears every actionable mail to `recipient`. -/
def makeMailRecipientClearedEvent (recipient : String) : Except String (NewEvent MailEvent) := do
  assertAddress "to" recipient
  return { scope := mailScope recipient, v := 1, payload := .recipientCleared, actor := OPERATOR }

/-- The receipt that clears the actionable mail from `sender` to `recipient`. -/
def makeMailRecipientSenderClearedEvent (recipient sender : String) :
    Except String (NewEvent MailEvent) := do
  assertAddress "to" recipient
  assertAddress "from" sender
  return {
    scope := mailScope recipient
    v := 1
    payload := .recipientSenderCleared sender
    actor := OPERATOR }

/-- The receipt by which `holder` records that it forwarded the mail at `seq`. -/
def makeMailForwardEvent (holder : String) (seq : ℕ) (forwardedTo : String) :
    Except String (NewEvent MailEvent) := do
  assertAddress "to" holder
  assertAddress "to" forwardedTo
  let payload ← mailSchemas (.forwarded seq forwardedTo)
  return { scope := mailScope holder, v := 1, payload, actor := holder, causationId := toString seq }

/-- The acknowledgement of a live side effect for one mail. -/
def makeMailLiveEffectEvent (effect : MailLiveEffect) : Except String (NewEvent MailEvent) := do
  let payload ← mailSchemas (.liveEffect effect)
  return {
    scope := s!"mail-effect:{effect.seq}"
    v := 1
    payload
    causationId := toString effect.seq }

/-! ## Completion predicates -/

def causedBy (item closer : DeliveredMail) : Bool :=
  closer.causationId == some (toString item.seq)

def sentByHolder (item closer : DeliveredMail) : Bool :=
  closer.sender == item.recipient

def sentBackToRequester (item closer : DeliveredMail) : Bool :=
  closer.recipient == item.sender

def inSameThread (item closer : DeliveredMail) : Bool :=
  closer.correlationId == some item.threadId

/-- Whether `closer` answers the actionable `item`: every actionable type registers a
predicate, an informational one none. An escalation is answered by anything but a raw
`escalation`; a forward is recorded by its receipt instead. -/
def completionPredicate : MailType → Option (DeliveredMail → DeliveredMail → Bool)
  | .clarifyRequest => some fun item closer =>
    sentByHolder item closer && causedBy item closer && inSameThread item closer &&
      closer.type == .clarifyResponse && sentBackToRequester item closer
  | .approval => some fun item closer =>
    closer.type == .approvalResponse && sentByHolder item closer &&
      sentBackToRequester item closer && inSameThread item closer && causedBy item closer
  | .escalation => some fun item closer =>
    sentByHolder item closer && causedBy item closer && inSameThread item closer &&
      closer.type != .escalation && sentBackToRequester item closer
  | .reviewRequest => some fun item closer =>
    closer.type == .reviewResponse && sentByHolder item closer &&
      sentBackToRequester item closer && inSameThread item closer && causedBy item closer
  | .clarifyResponse | .chat | .operatorMessage | .approvalResponse | .workerDone
  | .reviewResponse => none

/-- `closer` satisfies the completion predicate of `item`'s type. -/
def closes (item closer : DeliveredMail) : Bool :=
  match completionPredicate item.type with
  | some predicate => predicate item closer
  | none => false

theorem completionPredicate_isSome_iff {type : MailType} :
    (completionPredicate type).isSome = true ↔ mailKind type = .actionable := by
  cases type <;> decide

/-- Whatever its type, an answer is sent in the item's thread by its holder, back to its
sender, and names the item as its cause. -/
theorem closes_threading {item closer : DeliveredMail} (h : closes item closer = true) :
    closer.causationId = some (toString item.seq) ∧
      closer.correlationId = some item.threadId ∧
      closer.sender = item.recipient ∧ closer.recipient = item.sender := by
  unfold closes at h
  cases htype : item.type <;>
    simp only [htype, completionPredicate, causedBy, sentByHolder, sentBackToRequester,
      inSameThread, Bool.and_eq_true, beq_iff_eq, reduceCtorEq] at h <;>
    tauto

/-- The columns of a mail that no later event changes. -/
def DeliveredMail.fixed (mail : DeliveredMail) : DeliveredMail :=
  { mail with read := false, resolved := false, retracted := false }

@[simp] theorem closes_fixed (item closer : DeliveredMail) :
    closes item.fixed closer.fixed = closes item closer := by
  obtain ⟨seq, recipient, sender, type⟩ := item
  cases type <;> rfl

theorem closes_congr {item closer item' closer' : DeliveredMail} (hitem : item'.fixed = item.fixed)
    (hcloser : closer'.fixed = closer.fixed) : closes item' closer' = closes item closer := by
  rw [← closes_fixed, hitem, hcloser, closes_fixed]

end Orchestration.Mail
