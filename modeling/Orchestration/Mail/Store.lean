import Orchestration.Mail.Delivery
import Orchestration.Review.Store

/-!
# The mail store

The bus over one project store: it validates what callers hand in, routes plain
mail through the delivery, and runs the two human-review operations itself,
because each of them commits mail and review events together.
-/

namespace Orchestration.Mail

open Fallible Transaction
open Orchestration.Review (ReviewRequested ReviewRequestRecord ReviewVerdictRecorded Verdict
  ensureReviewTables readingSlot selectReviewRequest makeMergeSerializedEvent
  makeReviewRequestedEvent makeReviewVerdictEvent)

/-- What a caller supplies to a reply; the addresses and the threading are derived from the
mail it answers. -/
structure ReplyDraft where
  type : MailType
  subject : String
  body : String
  «from» : Option String := none
  idempotencyKey : Option String := none
  decision : Option ApprovalDecision := none
  reviewVerdict : Option Verdict := none
deriving DecidableEq, Repr

/-- Review mail goes through the two human-review operations only. -/
def assertNotReviewMail (envelope : MailEnvelope) (source : String) : Except String Unit := do
  refuse (envelope.type = .reviewRequest)
    (s!"{source}: review_request must be recorded through requestHumanReview so the " ++
      "review.requested row and actionable mail commit atomically.")
  refuse (envelope.type = .reviewResponse)
    (s!"{source}: review_response must be recorded through replyWithReviewVerdict so the " ++
      "review verdict and mail response commit atomically.")

/-- The envelope that answers `toMail` in its thread. -/
def buildReplyEnvelope (toMail : DeliveredMail) (draft : ReplyDraft) :
    Except String MailEnvelope := do
  let envelope : MailEnvelope := {
    type := draft.type
    «to» := toMail.sender
    «from» := draft.from.getD toMail.recipient
    subject := draft.subject
    body := draft.body
    correlationId := some toMail.threadId
    causationId := some (toString toMail.seq)
    idempotencyKey := draft.idempotencyKey
    decision := draft.decision
    reviewVerdict := draft.reviewVerdict }
  let _ ← validateEnvelope envelope
  return envelope

def reviewRequestIdempotencyKey (reviewId : String) : String := "review-request:" ++ reviewId

def assertSameHumanReviewRequest (existing : ReviewRequestRecord) (requested : ReviewRequested)
    (source : String) : Except String Unit :=
  Review.assertSameRequest source existing requested

/-- A human-review transaction folds its mail with the mail projectors and everything else with
the review projectors. -/
def mailStoreProjectors : List Projector := mailProjectors ++ Review.reviewProjectors

/-- A key as the conflict messages print it. -/
def orBlank (key : Option String) : String := key.getD ""

/-- The mail a response answers, as the conflict messages print it. -/
def orUnknown (seq : Option String) : String := seq.getD "<unknown>"

/-- The `seq` of the last event of a batch. -/
def lastSeq (stored : List (StoredEvent Payload)) : ℕ :=
  (stored.getLast?.map (·.seq)).getD 0

/-- What `requestHumanReview` does for a mail that is there already: the slot is taken again
if it was released meanwhile. -/
def repeatHumanReview (envelope : MailEnvelope) (request : ReviewRequested)
    (existing : DeliveredMail) : StoreTx (DeliveredMail × ReviewRequestRecord) := do
  let existingRequest ← Review.reading (selectReviewRequest · request.target request.branch)
  match existingRequest.filter (·.reviewId == request.reviewId) with
  | some existingRequest =>
    assertSameHumanReviewRequest existingRequest request "mail human review request"
    match ← readingSlot request.target with
    | some active =>
      refuse (active ≠ request.branch)
        (s!"mail human review request: refused — '{active}' is the active " ++
          s!"reviewer/merge for '{request.target}'.")
      return (existing, existingRequest)
    | none =>
      let slot ← makeMergeSerializedEvent { target := request.target, branch := request.branch }
      let _ ← recordAll mailStoreProjectors [Review.toProject slot]
      return (existing, existingRequest)
  | none =>
    throw (s!"mail human review request: idempotency_key '{orBlank envelope.idempotencyKey}' " ++
      "already belongs to existing mail without the matching durable review.requested row.")

/-- The event by which a request takes a free slot. -/
def slotClaim (active : Option String) (request : ReviewRequested) :
    Except String (List (NewEvent Payload)) := do
  if active = none then
    let slot ← makeMergeSerializedEvent { target := request.target, branch := request.branch }
    return [Review.toProject slot]
  else return []

/-- What `requestHumanReview` does for a new review: take the slot unless the branch holds it,
record the request and deliver the mail. -/
def recordHumanReview (envelope : MailEnvelope) (request : ReviewRequested) :
    StoreTx (DeliveredMail × ReviewRequestRecord) := do
  Review.assertReviewIdAvailableInDb request.reviewId request.target request.branch
  let active ← readingSlot request.target
  whenSome active fun active =>
    refuse (active ≠ request.branch)
      (s!"mail human review request: refused — '{active}' is the active reviewer/merge for " ++
        s!"'{request.target}'.")
  let slot ← slotClaim active request
  let requested ← makeReviewRequestedEvent request
  let mail ← makeMailEvent envelope
  let stored ← recordAll mailStoreProjectors
    (slot ++ [Review.toProject requested, toProject mail])
  let record ← Review.reading (selectReviewRequest · request.target request.branch)
  let record ← orThrow record
    ("mail human review request: review request row missing after projection " ++
      s!"(target='{request.target}', branch='{request.branch}')")
  match ← reading (selectMailBySeq · (lastSeq stored)) with
  | some delivered => return (delivered, record)
  | none =>
    -- the fold collapsed our duplicate onto the row another process committed first
    let existing ← reading (existingForKey · envelope)
    let existing ← orThrow existing
      ("mail human review request: inbox row missing after projection " ++
        s!"(seq={lastSeq stored})")
    return (existing, record)

/-- What a response draft to a `review_request` mail must agree with, before anything is read
from the review tables. -/
def assertReviewReply (current : DeliveredMail) (draft : ReplyDraft)
    (verdict : ReviewVerdictRecorded) : Except String Unit := do
  refuse current.retracted s!"mail review reply: mail seq={current.seq} was retracted"
  refuse (current.type ≠ .reviewRequest)
    s!"mail review reply: mail seq={current.seq} is '{current.type}', not review_request."
  let expectedRequestKey := reviewRequestIdempotencyKey verdict.reviewId
  refuse (current.idempotencyKey ≠ some expectedRequestKey)
    (s!"mail review reply: review_request mail {current.seq} must carry idempotency_key " ++
      s!"'{expectedRequestKey}', got '{orNone current.idempotencyKey}'.")
  refuse (draft.type ≠ .reviewResponse)
    s!"mail review reply: expected review_response draft, got '{draft.type}'."
  refuse (draft.reviewVerdict ≠ some verdict.verdict)
    (s!"mail review reply: review_response review_verdict " ++
      s!"'{orNone (draft.reviewVerdict.map toString)}' " ++
      s!"does not match recorded verdict '{verdict.verdict}'.")
  whenSome draft.from fun sender =>
    refuse (sender ≠ current.recipient)
      (s!"mail review reply: review_response sender '{sender}' must match request " ++
        s!"recipient '{current.recipient}'.")

/-- An idempotent retry of a response must repeat it. -/
def assertSameReviewReply (current existing : DeliveredMail) (draft : ReplyDraft)
    (envelope : MailEnvelope) : Except String Unit := do
  refuse (existing.causationId ≠ some (toString current.seq))
    (s!"mail review reply: idempotency_key '{orBlank envelope.idempotencyKey}' already " ++
      s!"belongs to review_request mail {orUnknown existing.causationId}; " ++
      s!"it cannot answer mail {current.seq}.")
  refuse (existing.reviewVerdict ≠ draft.reviewVerdict)
    (s!"mail review reply: idempotent review_response retry for mail {current.seq} " ++
      s!"changes review_verdict from '{orNone (existing.reviewVerdict.map toString)}' to " ++
      s!"'{orNone (draft.reviewVerdict.map toString)}'.")
  refuse (existing.subject ≠ draft.subject ∨ existing.body ≠ draft.body)
    (s!"mail review reply: idempotent review_response retry for mail {current.seq} " ++
      "changes subject/body.")

/-- The durable request that the answered mail must be the human request of. -/
def assertHumanRequest (current : DeliveredMail) (request : ReviewRequestRecord)
    (verdict : ReviewVerdictRecorded) : Except String Unit := do
  refuse (request.reviewerKind ≠ .human)
    (s!"mail review reply: review_request mail {current.seq} is not a human " ++
      s!"review_request (reviewerKind={request.reviewerKind}).")
  refuse (request.requestedBy ≠ current.sender)
    (s!"mail review reply: review_request mail {current.seq} requestedBy " ++
      s!"'{request.requestedBy}' does not match mail sender '{current.sender}'.")
  refuse (request.reviewId ≠ verdict.reviewId)
    (s!"mail review reply: review_request mail {current.seq} is for reviewId " ++
      s!"'{verdict.reviewId}', but the latest durable request is '{request.reviewId}'.")

/-- The release that goes with an `ISSUES` verdict: the slot must be free or the branch's. -/
def reviewReplyRelease (verdict : ReviewVerdictRecorded) :
    StoreTx (List (NewEvent Payload)) := do
  if verdict.verdict = .issues then
    match ← readingSlot verdict.target with
    | some active =>
      refuse (active ≠ verdict.branch)
        (s!"mail review reply: '{verdict.branch}' does not hold the merge slot " ++
          s!"for '{verdict.target}' (active holder: {active}).")
      let release ← makeMergeSerializedEvent { target := verdict.target, branch := verdict.branch }
      return [Review.toProject release]
    | none => return []
  else return []

/-- Record the verdict, the release that goes with it and the closing mail. -/
def recordReviewReply (current : DeliveredMail) (envelope : MailEnvelope)
    (verdict : ReviewVerdictRecorded) : StoreTx DeliveredMail := do
  refuse current.resolved s!"mail review reply: mail seq={current.seq} is already resolved"
  let request ← Review.reading (selectReviewRequest · verdict.target verdict.branch)
  let request ← orThrow request
    (s!"mail review reply: review_request mail {current.seq} has no matching " ++
      "review.requested row.")
  assertHumanRequest current request verdict
  let preparedVerdict ← Review.prepareReviewVerdictForDb verdict "mail review reply"
  let verdictEvent ← makeReviewVerdictEvent preparedVerdict
  let release ← reviewReplyRelease preparedVerdict
  let mail ← makeMailEvent envelope
  let stored ← recordAll mailStoreProjectors
    (Review.toProject verdictEvent :: release ++ [toProject mail])
  match ← reading (selectMailBySeq · (lastSeq stored)) with
  | some delivered => return delivered
  | none =>
    -- the fold collapsed our duplicate onto the row another process committed first
    let existing ← reading (existingForKey · envelope)
    orThrow existing
      s!"mail review reply: inbox row missing after projection (seq={lastSeq stored})"

namespace MailStore

/-- Validate an envelope and deliver it. -/
def send (delivery : Delivery) (envelope : MailEnvelope) : StoreProc DeliveredMail := do
  let _ ← validateEnvelope envelope
  assertNotReviewMail envelope "mail send"
  delivery.deliver envelope

/-- Answer `toMail` in its thread. -/
def reply (delivery : Delivery) (toMail : DeliveredMail) (draft : ReplyDraft) :
    StoreProc DeliveredMail := do
  let current ← transaction (reading (selectMailBySeq · toMail.seq))
  let current ← orThrow current s!"mail reply: no persisted mail seq={toMail.seq}"
  refuse current.retracted s!"mail reply: mail seq={toMail.seq} was retracted"
  refuse (draft.type = .reviewResponse)
    ("mail reply: review_response must be recorded through replyWithReviewVerdict so " ++
      "the review verdict and mail response commit atomically.")
  let envelope ← buildReplyEnvelope current draft
  send delivery envelope

/-- Request a human review: the slot, the request and the actionable mail, together. -/
def requestHumanReview (envelope : MailEnvelope) (request : ReviewRequested) :
    StoreProc (DeliveredMail × ReviewRequestRecord) := do
  let _ ← validateEnvelope envelope
  refuse (envelope.type ≠ .reviewRequest)
    s!"mail human review request: expected review_request envelope, got '{envelope.type}'."
  refuse (envelope.from ≠ request.requestedBy)
    (s!"mail human review request: envelope sender '{envelope.from}' must match " ++
      s!"requestedBy '{request.requestedBy}'.")
  let expectedIdempotencyKey := reviewRequestIdempotencyKey request.reviewId
  refuse (envelope.idempotencyKey ≠ some expectedIdempotencyKey)
    (s!"mail human review request: expected idempotency_key '{expectedIdempotencyKey}', got " ++
      s!"'{orNone envelope.idempotencyKey}'.")
  refuse (request.reviewerKind ≠ some .human)
    (s!"mail human review request: review '{request.reviewId}' must be routed to " ++
      s!"reviewerKind=human, got '{request.reviewerKind.getD .agent}'.")
  transaction do
    ensureReviewTables
    match ← reading (existingForKey · envelope) with
    | some existing => repeatHumanReview envelope request existing
    | none => recordHumanReview envelope request

/-- Answer a human `review_request` and record its verdict, together. -/
def replyWithReviewVerdict (toMail : DeliveredMail) (draft : ReplyDraft)
    (verdict : ReviewVerdictRecorded) : StoreProc DeliveredMail :=
  transaction do
    ensureReviewTables
    let current ← reading (selectMailBySeq · toMail.seq)
    let current ← orThrow current s!"mail review reply: no persisted mail seq={toMail.seq}"
    assertReviewReply current draft verdict
    let envelope ← buildReplyEnvelope current draft
    refuse (verdict.reviewer ≠ envelope.from)
      (s!"mail review reply: verdict reviewer '{verdict.reviewer}' must match " ++
        s!"review_response sender '{envelope.from}'.")
    match ← reading (existingForKey · envelope) with
    | some existing =>
      assertSameReviewReply current existing draft envelope
      return existing
    | none => recordReviewReply current envelope verdict

/-- Forward a held item upward. -/
def forward (delivery : Delivery) (held : DeliveredMail) (envelope : MailEnvelope) :
    StoreProc DeliveredMail := do
  let _ ← validateEnvelope envelope
  delivery.forward held envelope

/-- Resolve a held escalation downward, with the relays of its answer. -/
def resolve (delivery : Delivery) (held : DeliveredMail) (envelope : MailEnvelope)
    (relays : List MailEnvelope) : StoreProc DeliveredMail := do
  (envelope :: relays).forM fun envelope => do
    let _ ← validateEnvelope envelope
    assertNotReviewMail envelope "mail resolve"
  delivery.resolve held envelope relays

def markRead (delivery : Delivery) (recipient : String) (seq : ℕ) : StoreProc DeliveredMail :=
  delivery.markRead recipient seq

def retract (delivery : Delivery) (sender : String) (seq : ℕ) : StoreProc DeliveredMail :=
  delivery.retract sender seq

def clearOutstanding (delivery : Delivery) (recipient : String) : StoreProc ℕ :=
  delivery.clearOutstanding recipient

def clearOutstandingFromSenderToRecipient (delivery : Delivery) (sender recipient : String) :
    StoreProc ℕ :=
  delivery.clearOutstandingFromSenderToRecipient sender recipient

def inbox (recipient : String) : StoreProc (List DeliveredMail) :=
  transaction (reading (inboxForRecipient · recipient))

def sentBy (sender : String) : StoreProc (List DeliveredMail) :=
  transaction (reading (sentByForSender · sender))

def forwardSource (forwardedSeq : ℕ) : StoreProc (Option DeliveredMail) :=
  transaction (reading (forwardSourceForSeq · forwardedSeq))

end MailStore

end Orchestration.Mail
