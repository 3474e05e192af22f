import Orchestration.Store.Log

/-!
# Delivery

The writer half of the mail bus. Each operation is one transaction: read what it
depends on, append the mail and its receipts, fold them, and read back the row.
The live delivery persists through the in-process one and recovers an answer
that was delivered before; waking and injecting are host callbacks that run
after the commit, and what they write to the log is `persistEffect`.
-/

namespace Orchestration.Mail

open Fallible Transaction

/-- The projectors of a mail store. -/
def mailProjectors : List Projector := [.mail]

/-- A mail event as the project log carries it. -/
def toProject (event : NewEvent MailEvent) : NewEvent Payload :=
  event.withPayload (.mail event.payload)

/-- Build a mail event, append it and fold it. -/
def recordMail (event : Except String (NewEvent MailEvent)) : StoreTx (StoredEvent Payload) := do
  let event ← event
  record mailProjectors (toProject event)

/-- A read of the mail tables. -/
def reading {α : Type} (read : MailTables → α) : StoreTx α := do
  let db ← get
  return read db.mail

def assertForwardEnvelope (held : DeliveredMail) (envelope : MailEnvelope) :
    Except String Unit := do
  refuse (held.type ≠ .escalation ∧ held.type ≠ .clarifyRequest)
    s!"mail forward: cannot forward '{held.type}' items"
  refuse (envelope.type ≠ .escalation)
    s!"mail forward: forwarded mail must be '{MailType.escalation}'"
  refuse (envelope.from ≠ held.recipient)
    "mail forward: forwarded mail sender must be the held item recipient"
  refuse (envelope.causationId ≠ some (toString held.seq))
    "mail forward: forwarded mail causationId must reference the held item"
  refuse (envelope.correlationId ≠ some held.threadId)
    "mail forward: forwarded mail must stay in the held item thread"

def assertResolutionEnvelope (held : DeliveredMail) (envelope : MailEnvelope) :
    Except String Unit := do
  refuse (held.type ≠ .escalation) s!"mail resolve: cannot resolve '{held.type}' items"
  refuse (envelope.type = .escalation) "mail resolve: use forward for escalations"
  refuse (envelope.from ≠ held.recipient)
    "mail resolve: response sender must be the held item recipient"
  refuse (envelope.to ≠ held.sender)
    "mail resolve: response must go back to the held item sender"
  refuse (envelope.causationId ≠ some (toString held.seq))
    "mail resolve: response causationId must reference the held item"
  refuse (envelope.correlationId ≠ some held.threadId)
    "mail resolve: response must stay in the held item thread"

/-- The columns by which a stored mail is recognised as the delivery of an envelope. -/
def matchesEnvelope (mail : DeliveredMail) (envelope : MailEnvelope) : Bool :=
  mail.sender == envelope.from && mail.type == envelope.type &&
    mail.subject == envelope.subject && mail.body == envelope.body &&
    mail.causationId == envelope.causationId && mail.correlationId == envelope.correlationId &&
    mail.idempotencyKey == envelope.idempotencyKey

def deliveredMatchesEnvelope (mail : DeliveredMail) (envelope : MailEnvelope) : Bool :=
  mail.recipient == envelope.to && matchesEnvelope mail envelope

/-- The earliest visible mail that matches the envelope. -/
def selectMailMatchingEnvelope (t : MailTables) (envelope : MailEnvelope) :
    Option DeliveredMail :=
  (inboxForRecipient t envelope.to).find? (matchesEnvelope · envelope)

structure DeliveryResult where
  mail : DeliveredMail
  created : Bool
deriving DecidableEq, Repr

/-- The mail that carries the envelope's idempotency key already. -/
def existingForKey (t : MailTables) (envelope : MailEnvelope) : Option DeliveredMail :=
  envelope.idempotencyKey.bind fun key =>
    selectMailByIdempotencyKey t key
      { recipient := envelope.to, sender := envelope.from, type := envelope.type }

namespace InProcessDelivery

/-- Deliver an envelope, or find the mail that carries its key already. -/
def deliverWithStatus (envelope : MailEnvelope) : StoreTx DeliveryResult := do
  match ← reading (existingForKey · envelope) with
  | some existing => return { mail := existing, created := false }
  | none =>
    let stored ← recordMail (makeMailEvent envelope)
    match ← reading (selectMailBySeq · stored.seq) with
    | some delivered => return { mail := delivered, created := true }
    | none =>
      -- the fold collapsed our duplicate onto the row another process committed first
      match ← reading (existingForKey · envelope) with
      | some existing => return { mail := existing, created := false }
      | none =>
        throw s!"InProcessDelivery: inbox row missing after projection (seq={stored.seq})"

def deliver (envelope : MailEnvelope) : StoreTx DeliveredMail := do
  let result ← deliverWithStatus envelope
  return result.mail

/-- Deliver an upward escalation and discharge the held item by its receipt. -/
def forward (held : DeliveredMail) (envelope : MailEnvelope) : StoreTx DeliveredMail := do
  let notHeld := s!"InProcessDelivery.forward: no unresolved actionable mail seq={held.seq} " ++
    s!"(or it was retracted) for holder '{held.recipient}'"
  let currentHeld ← reading (selectMailBySeq · held.seq)
  let currentHeld ← orThrow currentHeld notHeld
  refuse (currentHeld.recipient ≠ held.recipient ∨ currentHeld.kind ≠ .actionable ∨
    currentHeld.resolved ∨ currentHeld.retracted) notHeld
  assertForwardEnvelope currentHeld envelope
  let storedForward ← recordMail (makeMailEvent envelope)
  let _ ← recordMail (makeMailForwardEvent held.recipient held.seq envelope.to)
  let delivered ← reading (selectMailBySeq · storedForward.seq)
  orThrow delivered
    ("InProcessDelivery.forward: inbox row missing after projection " ++
      s!"(seq={storedForward.seq})")

/-- Deliver one relay of a resolution. -/
def deliverRelay (relay : MailEnvelope) : StoreTx DeliveredMail := do
  let storedRelay ← recordMail (makeMailEvent relay)
  let relayRow ← reading (selectMailBySeq · storedRelay.seq)
  orThrow relayRow
    ("InProcessDelivery.resolveWithRelays: relay row missing after projection " ++
      s!"(seq={storedRelay.seq})")

/-- Deliver a response and its relays. -/
def resolveWithRelays (held : DeliveredMail) (envelope : MailEnvelope)
    (relays : List MailEnvelope) : StoreTx (DeliveredMail × List DeliveredMail) := do
  let notHeld := s!"InProcessDelivery.resolveWithRelays: no unresolved escalation " ++
    s!"seq={held.seq} (or it was retracted) for holder '{held.recipient}'"
  let currentHeld ← reading (selectMailBySeq · held.seq)
  let currentHeld ← orThrow currentHeld notHeld
  refuse (currentHeld.recipient ≠ held.recipient ∨ currentHeld.type ≠ .escalation ∨
    currentHeld.kind ≠ .actionable ∨ currentHeld.resolved ∨ currentHeld.retracted) notHeld
  assertResolutionEnvelope currentHeld envelope
  let storedResponse ← recordMail (makeMailEvent envelope)
  let relayRows ← relays.mapM deliverRelay
  let response ← reading (selectMailBySeq · storedResponse.seq)
  let response ← orThrow response
    ("InProcessDelivery.resolveWithRelays: inbox row missing after projection " ++
      s!"(seq={storedResponse.seq})")
  return (response, relayRows)

/-- Record that `recipient` has read the mail at `seq`. -/
def markRead (recipient : String) (seq : ℕ) : StoreTx DeliveredMail := do
  let notFound :=
    s!"InProcessDelivery.markRead: no mail seq={seq} for recipient '{recipient}'"
  let existing ← reading (selectMailBySeq · seq)
  let existing ← orThrow existing notFound
  refuse (existing.recipient ≠ recipient) notFound
  let _ ← recordMail (makeMailReadEvent recipient seq)
  let updated ← reading (selectMailBySeq · seq)
  orThrow updated
    s!"InProcessDelivery.markRead: inbox row missing after projection (seq={seq})"

/-- Withdraw a mail of `sender`'s own; review mail and items that went up are not withdrawn. -/
def retract (sender : String) (seq : ℕ) : StoreTx DeliveredMail := do
  let notSent := s!"InProcessDelivery.retract: no mail seq={seq} sent by '{sender}'"
  let existing ← reading (selectMailBySeq · seq)
  let existing ← orThrow existing notSent
  refuse (existing.sender ≠ sender) notSent
  refuse (existing.type = .reviewRequest ∨ existing.type = .reviewResponse)
    (s!"InProcessDelivery.retract: cannot retract review mail '{existing.type}' seq={seq}; " ++
      "review request/response mail is tied to review-store side effects.")
  let forwarded ← reading (forwardedMailForHeld · seq)
  refuse forwarded.isSome
    (s!"InProcessDelivery.retract: cannot retract seq={seq}; it has already been forwarded " ++
      "onward and is no longer the sender's to withdraw. Let the escalation chain resolve.")
  let _ ← recordMail (makeMailRetractEvent sender seq)
  let updated ← reading (selectMailBySeq · seq)
  orThrow updated
    s!"InProcessDelivery.retract: inbox row missing after projection (seq={seq})"

/-- Tombstone every actionable mail to `recipient` that is not review mail. -/
def clearOutstanding (recipient : String) : StoreTx ℕ := do
  let event ← makeMailRecipientClearedEvent recipient
  let actionable ← reading (nonReviewActionableForRecipient · recipient)
  if actionable.length = 0 then return 0
  else
    let _ ← recordMail (pure event)
    return actionable.length

/-- Tombstone every actionable mail from `sender` to `recipient` that is not review mail. -/
def clearOutstandingFromSenderToRecipient (sender recipient : String) : StoreTx ℕ := do
  let event ← makeMailRecipientSenderClearedEvent recipient sender
  let actionable ← reading (nonReviewActionableForRecipientFromSender · recipient sender)
  if actionable.length = 0 then return 0
  else
    let _ ← recordMail (pure event)
    return actionable.length

end InProcessDelivery

namespace LiveDelivery

/-- Forward, or recover the mail as which the held item went up before. -/
def forwardOrRecover (held : DeliveredMail) (envelope : MailEnvelope) :
    StoreProc DeliveredMail :=
  tryCatch (transaction (InProcessDelivery.forward held envelope)) fun error => do
    let recovered ← transaction (reading (forwardedMailForHeld · held.seq))
    match recovered.filter (deliveredMatchesEnvelope · envelope) with
    | some recovered => return recovered
    | none => throw error

/-- The response and the relays of a resolution that was delivered before. -/
def recoverResolution (held : DeliveredMail) (envelope : MailEnvelope)
    (relays : List MailEnvelope) : StoreTx (Option (DeliveredMail × List DeliveredMail)) := do
  match (← reading (selectMailBySeq · held.seq)).filter fun currentHeld =>
      currentHeld.recipient == held.recipient && currentHeld.type == .escalation &&
        currentHeld.kind == .actionable && currentHeld.resolved && !currentHeld.retracted with
  | none => return none
  | some currentHeld =>
    assertResolutionEnvelope currentHeld envelope
    reading fun t => do
      let response ← selectMailMatchingEnvelope t envelope
      if response.causationId ≠ some (toString held.seq) then none
      else
        let relayRows ← relays.mapM (selectMailMatchingEnvelope t ·)
        return (response, relayRows)

/-- Resolve, or recover the response and the relays that were delivered before. -/
def resolveOrRecover (held : DeliveredMail) (envelope : MailEnvelope)
    (relays : List MailEnvelope) : StoreProc (DeliveredMail × List DeliveredMail) :=
  tryCatch (transaction (InProcessDelivery.resolveWithRelays held envelope relays)) fun error => do
    match ← transaction (recoverResolution held envelope relays) with
    | some recovered => return recovered
    | none => throw error

/-- Acknowledge a wake or an injection that succeeded. -/
def persistEffect (effect : MailLiveEffect) : StoreTx LiveEffectRow := do
  let _ ← recordMail (makeMailLiveEffectEvent effect)
  let updated ← reading (selectLiveDeliveryEffect · effect.seq)
  orThrow updated
    s!"LiveDelivery: live-effect row missing after projection (seq={effect.seq})"

end LiveDelivery

/-- The delivery a mail store is opened with. -/
inductive Delivery where
  | inProcess
  | live
deriving DecidableEq, Repr

namespace Delivery

def deliver (_ : Delivery) (envelope : MailEnvelope) : StoreProc DeliveredMail :=
  transaction (InProcessDelivery.deliver envelope)

def forward (delivery : Delivery) (held : DeliveredMail) (envelope : MailEnvelope) :
    StoreProc DeliveredMail :=
  match delivery with
  | .inProcess => transaction (InProcessDelivery.forward held envelope)
  | .live => LiveDelivery.forwardOrRecover held envelope

def resolve (delivery : Delivery) (held : DeliveredMail) (envelope : MailEnvelope)
    (relays : List MailEnvelope) : StoreProc DeliveredMail := do
  let (response, _) ← match delivery with
    | .inProcess => transaction (InProcessDelivery.resolveWithRelays held envelope relays)
    | .live => LiveDelivery.resolveOrRecover held envelope relays
  return response

def markRead (_ : Delivery) (recipient : String) (seq : ℕ) : StoreProc DeliveredMail :=
  transaction (InProcessDelivery.markRead recipient seq)

def retract (_ : Delivery) (sender : String) (seq : ℕ) : StoreProc DeliveredMail :=
  transaction (InProcessDelivery.retract sender seq)

def clearOutstanding (_ : Delivery) (recipient : String) : StoreProc ℕ :=
  transaction (InProcessDelivery.clearOutstanding recipient)

def clearOutstandingFromSenderToRecipient (_ : Delivery) (sender recipient : String) :
    StoreProc ℕ :=
  transaction (InProcessDelivery.clearOutstandingFromSenderToRecipient sender recipient)

end Delivery

end Orchestration.Mail
