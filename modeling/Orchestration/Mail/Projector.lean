import Orchestration.Js.Number
import Orchestration.Library.Fallible
import Orchestration.Library.Table
import Orchestration.Mail.Events

/-!
# The inbox read model

The tables the mail projector owns and the fold of one mail event into them.
The tables carry their keys as fields: a mail is identified by its `seq`, at
most one mail is kept for an idempotency key within one recipient, sender and
type, and a forwarded item has one link.
-/

namespace Orchestration.Mail

open Fallible

/-- A row of `inbox_forward_links`: the item at `heldSeq` went up as the item at
`forwardedSeq`. -/
structure ForwardLink where
  forwardedSeq : ℕ
  heldSeq : ℕ
  holder : String
  forwardedTo : String
deriving DecidableEq, Repr

/-- A row of `live_delivery_effects`. -/
structure LiveEffectRow where
  mailSeq : ℕ
  wakeSucceeded : Bool
  injectSucceeded : Bool
deriving DecidableEq, Repr

/-- Two rows that the partial unique index on the idempotency scope keeps apart. -/
def DeliveredMail.sameKey (a b : DeliveredMail) : Bool :=
  a.idempotencyKey.isSome && a.idempotencyKey == b.idempotencyKey && a.recipient == b.recipient &&
    a.sender == b.sender && a.type == b.type

/-- The read model of the mail store. Rows stand in the order of their `seq`. -/
structure MailTables where
  inbox : List DeliveredMail := []
  forwardLinks : Table ForwardLink.forwardedSeq := {}
  liveEffects : Table LiveEffectRow.mailSeq := {}
  inbox_sorted : inbox.Pairwise fun a b => a.seq < b.seq := by simp
  idempotency_unique : ∀ a ∈ inbox, ∀ b ∈ inbox, a.sameKey b = true → a.seq = b.seq := by simp

theorem DeliveredMail.sameKey_comm (a b : DeliveredMail) : a.sameKey b = b.sameKey a := by
  rw [Bool.eq_iff_iff]
  simp only [sameKey, Bool.and_eq_true, beq_iff_eq]
  constructor <;> rintro ⟨⟨⟨⟨h₁, h₂⟩, h₃⟩, h₄⟩, h₅⟩ <;>
    exact ⟨⟨⟨⟨by simpa [h₂] using h₁, h₂.symm⟩, h₃.symm⟩, h₄.symm⟩, h₅.symm⟩

theorem DeliveredMail.sameKey_congr {a b a' b' : DeliveredMail} (ha : a'.fixed = a.fixed)
    (hb : b'.fixed = b.fixed) : a'.sameKey b' = a.sameKey b := by
  change a'.fixed.sameKey b'.fixed = a.fixed.sameKey b.fixed
  rw [ha, hb]

/-- An update that keeps every fixed column. -/
structure RowUpdate where
  run : DeliveredMail → DeliveredMail
  fixed_run : ∀ mail, (run mail).fixed = mail.fixed

namespace RowUpdate

def setRead : RowUpdate := ⟨fun mail => { mail with read := true }, fun _ => rfl⟩

def setResolved (resolved : Bool) : RowUpdate :=
  ⟨fun mail => { mail with resolved }, fun _ => rfl⟩

def setRetracted : RowUpdate := ⟨fun mail => { mail with retracted := true }, fun _ => rfl⟩

/-- The update restricted to the rows that satisfy `p`. -/
def onlyWhere (update : RowUpdate) (p : DeliveredMail → Bool) : RowUpdate where
  run mail := if p mail then update.run mail else mail
  fixed_run mail := by
    split
    · exact update.fixed_run mail
    · rfl

theorem seq_run (update : RowUpdate) (mail : DeliveredMail) :
    (update.run mail).seq = mail.seq := by
  have h := congrArg DeliveredMail.seq (update.fixed_run mail)
  exact h

end RowUpdate

namespace MailTables

/-- `UPDATE inbox SET … WHERE p`. -/
def updateWhere (t : MailTables) (update : RowUpdate) (p : DeliveredMail → Bool) : MailTables :=
  { t with
    inbox := t.inbox.map (update.onlyWhere p).run
    inbox_sorted := by
      refine List.Pairwise.map _ (fun a b h => ?_) t.inbox_sorted
      simpa only [RowUpdate.seq_run] using h
    idempotency_unique := by
      simp only [List.forall_mem_map, RowUpdate.seq_run]
      intro a ha b hb h
      rw [DeliveredMail.sameKey_congr (RowUpdate.fixed_run _ a) (RowUpdate.fixed_run _ b)] at h
      exact t.idempotency_unique a ha b hb h }

/-- `INSERT INTO inbox`, the row taking its place in `seq` order. A row that collides on the
idempotency scope is not inserted, and one whose `seq` is taken violates the primary key. The
flag says whether a row was added. -/
def insertOrIgnore (t : MailTables) (row : DeliveredMail) : Except String (MailTables × Bool) :=
  if hkey : ∃ r ∈ t.inbox, r.sameKey row = true then pure (t, false)
  else if t.inbox.any (·.seq == row.seq) then throw "UNIQUE constraint failed: inbox.seq"
  else
    pure ({ t with
      inbox := t.inbox.filter (·.seq < row.seq) ++ row :: t.inbox.filter (row.seq < ·.seq)
      inbox_sorted := by
        refine List.pairwise_append.2 ⟨t.inbox_sorted.filter _, ?_, ?_⟩
        · exact List.pairwise_cons.2 ⟨by simp, t.inbox_sorted.filter _⟩
        · simp only [List.mem_filter, List.mem_cons, decide_eq_true_eq]
          rintro a ⟨_, ha⟩ b (rfl | ⟨_, hb⟩)
          · exact ha
          · exact ha.trans hb
      idempotency_unique := by
        have hmem : ∀ a, a ∈ t.inbox.filter (·.seq < row.seq) ++
            row :: t.inbox.filter (row.seq < ·.seq) → a = row ∨ a ∈ t.inbox := by
          simp only [List.mem_append, List.mem_cons, List.mem_filter]
          tauto
        intro a ha b hb h
        rcases hmem a ha with rfl | ha' <;> rcases hmem b hb with rfl | hb'
        · rfl
        · exact absurd ⟨b, hb', by rwa [DeliveredMail.sameKey_comm]⟩ hkey
        · exact absurd ⟨a, ha', h⟩ hkey
        · exact t.idempotency_unique a ha' b hb' h }, true)

/-- `INSERT INTO inbox_forward_links`. -/
def insertLink (t : MailTables) (link : ForwardLink) : Except String MailTables := do
  let forwardLinks ← orThrow (t.forwardLinks.insert? link)
    "UNIQUE constraint failed: inbox_forward_links.forwarded_seq"
  return { t with forwardLinks }

/-- `DELETE FROM inbox_forward_links WHERE forwarded_seq = ?`. -/
def deleteLink (t : MailTables) (forwardedSeq : ℕ) : MailTables :=
  { t with forwardLinks := t.forwardLinks.filter (·.forwardedSeq != forwardedSeq) }

/-- Whether a link discharges the item at `heldSeq`. -/
def isHeld (t : MailTables) (heldSeq : ℕ) : Bool :=
  t.forwardLinks.rows.any (·.heldSeq == heldSeq)

end MailTables

/-! ## Reads -/

/-- The mail at `seq`. -/
def selectMailBySeq (t : MailTables) (seq : ℕ) : Option DeliveredMail :=
  t.inbox.find? (·.seq == seq)

/-- A recipient's chronological inbox, without what its senders withdrew. -/
def inboxForRecipient (t : MailTables) (recipient : String) : List DeliveredMail :=
  t.inbox.filter fun mail => mail.recipient == recipient && !mail.retracted

/-- The operation boundary of an idempotent send. -/
structure IdempotencyScope where
  recipient : String
  sender : String
  type : MailType
deriving DecidableEq, Repr

/-- The earliest mail with the idempotency key in the scope. -/
def selectMailByIdempotencyKey (t : MailTables) (idempotencyKey : String)
    (scope : IdempotencyScope) : Option DeliveredMail :=
  t.inbox.find? fun mail =>
    mail.idempotencyKey == some idempotencyKey && mail.recipient == scope.recipient &&
      mail.sender == scope.sender && mail.type == scope.type

/-- The actionable items addressed to `recipient` that nothing has discharged. -/
def outstandingForRecipient (t : MailTables) (recipient : String) : List DeliveredMail :=
  t.inbox.filter fun mail =>
    mail.recipient == recipient && mail.kind == .actionable && !mail.resolved && !mail.retracted

def isReviewMail (mail : DeliveredMail) : Bool :=
  mail.type == .reviewRequest || mail.type == .reviewResponse

/-- The actionable mail addressed to `recipient` that is not review mail. -/
def nonReviewActionableForRecipient (t : MailTables) (recipient : String) : List DeliveredMail :=
  t.inbox.filter fun mail =>
    mail.recipient == recipient && mail.kind == .actionable && !mail.retracted &&
      !isReviewMail mail

/-- The actionable mail from `sender` to `recipient` that is not review mail. -/
def nonReviewActionableForRecipientFromSender (t : MailTables) (recipient sender : String) :
    List DeliveredMail :=
  t.inbox.filter fun mail =>
    mail.recipient == recipient && mail.sender == sender && mail.kind == .actionable &&
      !mail.retracted && !isReviewMail mail

/-- Every mail `sender` sent, retracted ones included. -/
def sentByForSender (t : MailTables) (sender : String) : List DeliveredMail :=
  t.inbox.filter (·.sender == sender)

/-- The held item that went up as the mail at `forwardedSeq`. -/
def forwardSourceForSeq (t : MailTables) (forwardedSeq : ℕ) : Option DeliveredMail :=
  (t.forwardLinks.find? forwardedSeq).bind fun link =>
    selectMailBySeq t link.heldSeq

/-- The mail as which the held item at `heldSeq` went up. -/
def forwardedMailForHeld (t : MailTables) (heldSeq : ℕ) : Option DeliveredMail :=
  (t.forwardLinks.rows.find? (·.heldSeq == heldSeq)).bind fun link =>
    selectMailBySeq t link.forwardedSeq

def selectLiveDeliveryEffect (t : MailTables) (seq : ℕ) : Option LiveEffectRow :=
  t.liveEffects.find? seq

/-! ## The fold -/

/-- An optional text as error messages print it. -/
def orNone (text : Option String) : String := text.getD "<none>"

/-- The row of a mail event. -/
def mailRow (event : StoredEvent MailEvent) (recipient sender : String) (type : MailType)
    (payload : MailPayload) : DeliveredMail where
  seq := event.seq
  recipient
  sender
  type
  subject := payload.subject
  body := payload.body
  correlationId := event.correlationId
  causationId := event.causationId
  idempotencyKey := event.idempotencyKey
  ts := event.ts
  decision := if type = .approvalResponse then payload.decision else none
  reviewVerdict := if type = .reviewResponse then payload.reviewVerdict else none

/-- An open actionable item of `threadId` other than the mail at `excludeSeq`. -/
def isOpenActionableInThread (threadId : String) (excludeSeq : ℕ) (item : DeliveredMail) : Bool :=
  item.threadId == threadId && item.kind == .actionable && !item.resolved &&
    item.seq != excludeSeq && !item.retracted

/-- Insert a mail row, then resolve every open item of its thread that it answers. -/
def applyMail (t : MailTables) (event : StoredEvent MailEvent) (type : MailType)
    (payload : MailPayload) : Except String MailTables := do
  let actor ← orThrow event.actor s!"mail projector: event seq={event.seq} has no actor (sender)"
  let recipient ← mailRecipientForScope event.scope
  let closer := mailRow event recipient actor type payload
  let (t, changed) ← t.insertOrIgnore closer
  -- a duplicate key collapsed onto its earlier mail, which has done its resolving already
  if changed then
    return t.updateWhere (.setResolved true) fun item =>
      isOpenActionableInThread closer.threadId event.seq item && closes item closer
  else return t

/-- Fold a read receipt. -/
def applyReadReceipt (t : MailTables) (event : StoredEvent MailEvent) (seq : ℕ) :
    Except String MailTables := do
  let recipient ← mailRecipientForScope event.scope
  return t.updateWhere .setRead fun mail => mail.seq == seq && mail.recipient == recipient

/-- After `closer` was retracted: drop the link by which it discharged the item it answers,
and decide anew whether that item is resolved. -/
def recomputeResolvedAfterRetractingCloser (t : MailTables) (closer : DeliveredMail) :
    MailTables :=
  let t := t.deleteLink closer.seq
  match closer.causationId.bind Js.safeInteger? with
  | none => t
  | some itemSeq =>
    match t.inbox.find? fun mail => (mail.seq : ℤ) == itemSeq with
    | none => t
    | some item =>
      if item.kind ≠ .actionable ∨ item.retracted then t
      else if t.isHeld item.seq then
        t.updateWhere (.setResolved true) (·.seq == item.seq)
      else
        match completionPredicate item.type with
        | none => t
        | some predicate =>
          let stillResolved := t.inbox.any fun candidate =>
            candidate.threadId == item.threadId && candidate.seq != item.seq &&
              !candidate.retracted && predicate item candidate
          t.updateWhere (.setResolved stillResolved) (·.seq == item.seq)

/-- Fold a retract receipt: only the original sender's own mail, and no review mail. -/
def applyRetractReceipt (t : MailTables) (event : StoredEvent MailEvent) (seq : ℕ) :
    Except String MailTables := do
  let sender ← mailRecipientForScope event.scope
  refuse (event.actor ≠ some sender)
    (s!"mail projector: retract receipt seq={event.seq} actor '{orNone event.actor}' " ++
      s!"does not match sender '{sender}'")
  let notOwn := s!"mail projector: cannot retract mail seq={seq}; original sender is not '{sender}'"
  let retracted ← orThrow (selectMailBySeq t seq) notOwn
  refuse (retracted.sender ≠ sender) notOwn
  refuse (isReviewMail retracted)
    (s!"mail projector: cannot retract review mail '{retracted.type}' seq={seq}; review mail " ++
      "is tied to review-store side effects.")
  let t := t.updateWhere .setRetracted fun mail => mail.seq == seq && mail.sender == sender
  return recomputeResolvedAfterRetractingCloser t retracted

/-- Fold a recipient clean-up: tombstone every actionable mail to the recipient. -/
def applyRecipientClearedReceipt (t : MailTables) (event : StoredEvent MailEvent) :
    Except String MailTables := do
  let recipient ← mailRecipientForScope event.scope
  refuse (event.actor ≠ some OPERATOR)
    (s!"mail projector: recipient cleanup seq={event.seq} actor " ++
      s!"'{orNone event.actor}' must be '{OPERATOR}'")
  return t.updateWhere .setRetracted fun mail =>
    mail.recipient == recipient && mail.kind == .actionable && !mail.retracted &&
      !isReviewMail mail

/-- Fold a clean-up of the actionable mail from one sender to the recipient. -/
def applyRecipientSenderClearedReceipt (t : MailTables) (event : StoredEvent MailEvent)
    (sender : String) : Except String MailTables := do
  let recipient ← mailRecipientForScope event.scope
  refuse (event.actor ≠ some OPERATOR)
    (s!"mail projector: recipient/sender cleanup seq={event.seq} actor " ++
      s!"'{orNone event.actor}' must be '{OPERATOR}'")
  return t.updateWhere .setRetracted fun mail =>
    mail.recipient == recipient && mail.sender == sender && mail.kind == .actionable &&
      !mail.retracted && !isReviewMail mail

/-- Fold a forward receipt: find the escalation by which the holder sent the item up, then
discharge the item and link the two. -/
def applyForwardReceipt (t : MailTables) (event : StoredEvent MailEvent) (seq : ℕ)
    (forwardedTo : String) : Except String MailTables := do
  let holder ← mailRecipientForScope event.scope
  refuse (event.actor ≠ some holder)
    (s!"mail projector: forward receipt seq={event.seq} actor '{orNone event.actor}' " ++
      s!"does not match holder '{holder}'")
  let notHeld := s!"mail projector: forward receipt seq={event.seq} names non-actionable, " ++
    s!"retracted, or missing item {seq} for holder '{holder}'"
  let item ← orThrow (selectMailBySeq t seq) notHeld
  refuse (item.recipient ≠ holder ∨ item.kind ≠ .actionable ∨ item.retracted) notHeld
  refuse (item.type ≠ .escalation ∧ item.type ≠ .clarifyRequest)
    s!"mail projector: forward receipt seq={event.seq} cannot forward '{item.type}' items"
  let forwarded ← orThrow
    ((t.inbox.filter fun mail =>
      mail.sender == holder && mail.recipient == forwardedTo && mail.type == .escalation &&
        mail.causationId == some (toString seq) &&
        mail.correlationId == some (threadOf item.correlationId seq)).getLast?)
    (s!"mail projector: forward receipt seq={event.seq} has no matching escalation " ++
      s!"from '{holder}' to '{forwardedTo}' caused by {seq}")
  refuse (t.isHeld seq)
    s!"mail projector: item {seq} already has a forward receipt"
  let t := t.updateWhere (.setResolved true) fun mail =>
    mail.seq == seq && mail.recipient == holder && mail.kind == .actionable
  t.insertLink { forwardedSeq := forwarded.seq, heldSeq := seq, holder, forwardedTo }

/-- Fold the acknowledgement of a live side effect. -/
def applyLiveEffectReceipt (t : MailTables) (event : StoredEvent MailEvent)
    (effect : MailLiveEffect) : Except String MailTables := do
  refuse (event.scope ≠ s!"mail-effect:{effect.seq}")
    (s!"mail projector: live-effect receipt seq={event.seq} has scope '{event.scope}', " ++
      s!"expected 'mail-effect:{effect.seq}'")
  let _ ← orThrow (selectMailBySeq t effect.seq)
    s!"mail projector: live-effect receipt seq={event.seq} names missing mail {effect.seq}"
  let existing := (selectLiveDeliveryEffect t effect.seq).getD ⟨effect.seq, false, false⟩
  let next : LiveEffectRow := {
    mailSeq := effect.seq
    wakeSucceeded := effect.wakeSucceeded || existing.wakeSucceeded
    injectSucceeded := effect.injectSucceeded || existing.injectSucceeded }
  return { t with
    liveEffects := t.liveEffects.upsert next
      { run := fun row =>
          { row with
            wakeSucceeded := next.wakeSucceeded
            injectSucceeded := next.injectSucceeded } } }

/-- The mail projector: fold one decoded mail event into its tables. -/
def MailProjector.apply (t : MailTables) (event : StoredEvent MailEvent) :
    Except String MailTables :=
  match event.payload with
  | .mail type payload => applyMail t event type payload
  | .read seq => applyReadReceipt t event seq
  | .forwarded seq forwardedTo => applyForwardReceipt t event seq forwardedTo
  | .retracted seq => applyRetractReceipt t event seq
  | .recipientCleared => applyRecipientClearedReceipt t event
  | .recipientSenderCleared sender => applyRecipientSenderClearedReceipt t event sender
  | .liveEffect effect => applyLiveEffectReceipt t event effect

end Orchestration.Mail
