import Orchestration.Mail.Store

/-!
# Escalation

A holder forwards a held item up to its parent or resolves it down to its asker.
A resolution answers the whole chain at once: the response goes to the sender of
the item that is resolved, and one relay to the sender of every item that was
forwarded on the way up.
-/

namespace Orchestration.Mail

open Fallible Transaction

/-- One step up the escalation chain from an agent, or a failure at the top. -/
abbrev ParentResolver := String → Except String String

/-- Forward a held item one step up, in its thread. -/
def forwardEscalation (delivery : Delivery) (parentOf : ParentResolver) (held : DeliveredMail) :
    StoreProc DeliveredMail := do
  let holder := held.recipient
  let parent ← parentOf holder
  MailStore.forward delivery held {
    type := .escalation
    «to» := parent
    «from» := holder
    subject := held.subject
    body := held.body
    correlationId := some held.threadId
    causationId := some (toString held.seq) }

/-- The parent of an agent by its role and its place in the roster: a coordinator's is the operator,
who has none. -/
def roleParentResolver (roster : Roles.RosterTables) : ParentResolver := fun agentId => do
  refuse (agentId = OPERATOR)
    s!"role parent-resolver: '{OPERATOR}' is the top of the escalation chain (no parent)"
  let record ← orThrow (Roles.selectAgent roster agentId)
    s!"role parent-resolver: no agent record for '{agentId}' — unknown agent (Principle 9)"
  return if record.role = .coordinator then OPERATOR else record.parent

/-- Pass an item on to its holder's parent because nobody answered it in time. -/
def forwardOnTimeout (delivery : Delivery) (unanswered : DeliveredMail) :
    StoreProc DeliveredMail := fun db =>
  forwardEscalation delivery (roleParentResolver db.roster) unanswered db

/-- How a holder answers a held escalation. -/
structure EscalationResolution where
  type : Option MailType := none
  subject : String
  body : String
  idempotencyKey : Option String := none
deriving DecidableEq, Repr

/-- The links the walk down a chain has not followed yet. -/
def unseenLinks (t : MailTables) (seen : List ℕ) : List ForwardLink :=
  t.forwardLinks.rows.filter (·.forwardedSeq ∉ seen)

theorem unseenLinks_cons_lt {t : MailTables} {seen : List ℕ} {seq : ℕ} {parent : DeliveredMail}
    (hseen : seq ∉ seen) (h : forwardSourceForSeq t seq = some parent) :
    (unseenLinks t (seq :: seen)).length < (unseenLinks t seen).length := by
  obtain ⟨link, hlink, -⟩ := Option.bind_eq_some_iff.1 h
  obtain ⟨hmem, hkey⟩ := Table.find?_eq_some.1 hlink
  have hsub : unseenLinks t (seq :: seen) =
      (unseenLinks t seen).filter (·.forwardedSeq != seq) := by
    rw [unseenLinks, unseenLinks, List.filter_filter]
    refine List.filter_congr fun link _ => ?_
    rw [Bool.eq_iff_iff]
    simp [not_or]
  rw [hsub]
  refine List.length_filter_lt_length_iff_exists.2 ⟨link, ?_, by simp [hkey]⟩
  exact List.mem_filter.2 ⟨hmem, by simpa [hkey] using hseen⟩

/-- Walk down from `cursor` along the forward links, collecting the held items. -/
def forwardedSourcesFrom (t : MailTables) (heldSeq : ℕ) (cursor : DeliveredMail)
    (sources : List DeliveredMail) (seen : List ℕ) : Except String (List DeliveredMail) :=
  if cursor.type = .escalation then
    if hseen : cursor.seq ∈ seen then
      throw s!"resolveEscalation: causation cycle while tracing seq={heldSeq}"
    else
      match hparent : forwardSourceForSeq t cursor.seq with
      | none => pure sources
      | some parent =>
        have := unseenLinks_cons_lt hseen hparent
        forwardedSourcesFrom t heldSeq parent (sources ++ [parent]) (cursor.seq :: seen)
  else pure sources
termination_by (unseenLinks t seen).length

/-- The held items below `held`, nearest first. -/
def forwardedSources (t : MailTables) (held : DeliveredMail) :
    Except String (List DeliveredMail) :=
  forwardedSourcesFrom t held.seq held [] []

/-- The answer that a source of the chain receives. -/
def relayEnvelope (resolution : EscalationResolution) (source : DeliveredMail) : MailEnvelope where
  type := if source.type = .clarifyRequest then .clarifyResponse else resolution.type.getD .chat
  «to» := source.sender
  «from» := source.recipient
  subject := resolution.subject
  body := resolution.body
  correlationId := some source.threadId
  causationId := some (toString source.seq)

/-- The answer that the asker of the resolved item receives. -/
def responseEnvelope (resolution : EscalationResolution) (held : DeliveredMail) :
    MailEnvelope where
  type := resolution.type.getD .chat
  «to» := held.sender
  «from» := held.recipient
  subject := resolution.subject
  body := resolution.body
  correlationId := some held.threadId
  causationId := some (toString held.seq)
  idempotencyKey := resolution.idempotencyKey

/-- Whether every envelope has its visible mail. -/
def alreadyDelivered (t : MailTables) (envelopes : List MailEnvelope) : Bool :=
  envelopes.all fun envelope =>
    (inboxForRecipient t envelope.to).any (matchesEnvelope · envelope)

/-- Resolve a held escalation down to its asker, and the chain below it with it. The reads
of one call see one state of the tables. -/
def resolveEscalation (delivery : Delivery) (held : DeliveredMail)
    (resolution : EscalationResolution) : StoreProc DeliveredMail := do
  let unresolved := "resolveEscalation: expected an unresolved persisted escalation"
  let t ← transaction (reading id)
  let currentHeld ← orThrow ((inboxForRecipient t held.recipient).find? (·.seq == held.seq))
    unresolved
  refuse (currentHeld.type ≠ .escalation ∨ currentHeld.kind ≠ .actionable) unresolved
  refuse (resolution.type = some .escalation)
    "resolveEscalation: use forwardEscalation to forward upward"
  let response := responseEnvelope resolution currentHeld
  let sources ← forwardedSources t currentHeld
  let relays := sources.map (relayEnvelope resolution)
  refuse (currentHeld.resolved ∧ !alreadyDelivered t (response :: relays)) unresolved
  MailStore.resolve delivery currentHeld response relays

/-- The unanswered, unretracted `clarify_request`s that `agent` raised. -/
def waitingItems (t : MailTables) (agent : String) : List DeliveredMail :=
  (sentByForSender t agent).filter fun m =>
    m.type == .clarifyRequest && !m.retracted &&
      !(inboxForRecipient t agent).any fun reply =>
        reply.type == .clarifyResponse && reply.sender == m.recipient &&
          reply.recipient == m.sender && reply.correlationId == some m.threadId &&
          reply.causationId == some (toString m.seq)

end Orchestration.Mail
