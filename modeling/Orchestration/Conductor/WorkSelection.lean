import Orchestration.Conductor.ClarifyTimeouts
import Orchestration.Session.StartCoordinator

/-!
# What the next turn is about

A turn is driven for the first candidate that holds an eligible mail: an outstanding
actionable one, or an unread one of the types that wake an agent. When the turn is over
the engine consumes what the turn has settled, and keeps a provider that is overloaded
from being asked again at once.
-/

namespace Orchestration.Conductor

open Transaction
open Dispatch (Provider)
open Mail (DeliveredMail MailTables MailEnvelope outstandingForRecipient
  inboxForRecipient)
open Session (isTurnKickoffMail)

/-! ## Selection -/

def isUnreadTurnWakeMail (mail : DeliveredMail) : Bool :=
  !mail.read && !mail.retracted &&
    (mail.type == .approvalResponse || mail.type == .clarifyResponse ||
      mail.type == .workerDone || mail.type == .reviewResponse)

def firstUnreadTurnWakeMail (t : MailTables) (agent : String) : Option DeliveredMail :=
  (inboxForRecipient t agent).find? isUnreadTurnWakeMail

def firstEligibleMail (t : MailTables) (agent : String) : Option DeliveredMail :=
  (outstandingForRecipient t agent).head?.or (firstUnreadTurnWakeMail t agent)

/-- The first candidate with an eligible mail, and the mail. -/
def selectEligible (candidates : List HostedIdentity) (openMail : String → MailTables) :
    Option (HostedIdentity × DeliveredMail) :=
  candidates.findSome? fun identity =>
    (firstEligibleMail (openMail identity.projectId) identity.agent).map (identity, ·)

/-! ## What the engine keeps -/

structure OverloadBackoff where
  nextRewakeAt : ℚ
  attempt : ℕ
deriving DecidableEq, Repr

/-- `ConductorEngine`, as far as the choice of turns depends on it. -/
structure ConductorEngine extends Engine where
  hosted : List HostedIdentity := []
  releasePending : List HostedIdentity := []
  overloadBackoff : String → Option OverloadBackoff := fun _ => none
  kickoffInjectAttempts : String → ℕ := fun _ => 0

def agentKey (identity : HostedIdentity) : String := identity.projectId ++ ":" ++ identity.agent

def kickoffAttemptKey (agentKey : String) (mail : DeliveredMail) : String :=
  agentKey ++ "::" ++ mail.sender ++ "#" ++ toString mail.seq

def OVERLOAD_BACKOFF_BASE_MS : ℚ := 1000

def OVERLOAD_BACKOFF_CAP_MS : ℚ := 60000

def KICKOFF_INJECT_ATTEMPT_CAP : ℕ := 3

namespace ConductorEngine

def isHosted (e : ConductorEngine) (identity : HostedIdentity) : Bool := e.hosted.contains identity

def openMail (e : ConductorEngine) (projectId : String) : MailTables := (e.stores projectId).mail

def inOverloadBackoff (e : ConductorEngine) (now : ℚ) (agentKey : String) : Bool :=
  match e.overloadBackoff agentKey with
  | some b => decide (now < b.nextRewakeAt)
  | none => false

def recordOverloadBackoff (now : ℚ) (agentKey : String) (e : ConductorEngine) : ConductorEngine :=
  let attempt := ((e.overloadBackoff agentKey).map (·.attempt)).getD 0 + 1
  let delay := min OVERLOAD_BACKOFF_CAP_MS (OVERLOAD_BACKOFF_BASE_MS * 2 ^ (attempt - 1))
  { e with
    overloadBackoff :=
      Function.update e.overloadBackoff agentKey (some { nextRewakeAt := now + delay, attempt }) }

def clearOverloadBackoff (agentKey : String) (e : ConductorEngine) : ConductorEngine :=
  { e with overloadBackoff := Function.update e.overloadBackoff agentKey none }

/-- Forget the failed injections of every kickoff of the agent. -/
def clearKickoffInjectAttempts (agentKey : String) (e : ConductorEngine) : ConductorEngine :=
  { e with
    kickoffInjectAttempts := fun key =>
      if (agentKey ++ "::").toList.isPrefixOf key.toList then 0 else e.kickoffInjectAttempts key }

def dropExitTracking (identity : HostedIdentity) (e : ConductorEngine) : ConductorEngine :=
  (e.clearOverloadBackoff (agentKey identity)).clearKickoffInjectAttempts (agentKey identity)

/-- A launch has succeeded. -/
def host (identity : HostedIdentity) (e : ConductorEngine) : ConductorEngine :=
  if e.isHosted identity then e else { e with hosted := e.hosted ++ [identity] }

/-- `release`, which a turn of the agent puts off to its end. -/
def release (identity : HostedIdentity) (turnInFlight : Bool) (e : ConductorEngine) :
    ConductorEngine :=
  if e.isHosted identity then
    let e := { e with hosted := e.hosted.filter (· ≠ identity) }
    if turnInFlight then { e with releasePending := identity :: e.releasePending }
    else e.dropExitTracking identity
  else e

/-- The candidates that a cycle may choose from. -/
def eligible (e : ConductorEngine) (now : ℚ) (candidates : List HostedIdentity) :
    List HostedIdentity :=
  candidates.filter fun identity => !e.inOverloadBackoff now (agentKey identity)

end ConductorEngine

/-! ## The end of a turn -/

/-- What a turn came to. -/
structure TurnEnd where
  /-- What rendering, injecting or observing threw. -/
  error : Option String := none
  sawMcpActivity : Bool := false
  sawOverload : Bool := false
  /-- The pane lives and has written something since the turn began. -/
  kickoffPaneLive : Bool := false
  provider : Provider := .claude
deriving DecidableEq, Repr

section

variable (deps : ConductorEngineDeps) (identity : HostedIdentity) (mail : DeliveredMail)

def consumeOneShotKickoff : EngineProc Unit := do
  if isTurnKickoffMail mail then
    let _ ← onProject identity.projectId (Mail.MailStore.retract deps.delivery mail.sender mail.seq)

def consumeUnreadTurnWakeMail : EngineProc Unit := do
  if isUnreadTurnWakeMail mail then
    let inbox ← onProject identity.projectId (Mail.MailStore.inbox mail.recipient)
    if (inbox.find? (·.seq == mail.seq)).any isUnreadTurnWakeMail then
      let _ ← onProject identity.projectId (Mail.MailStore.markRead deps.delivery mail.recipient mail.seq)

/-- What a turn that ran to its end consumes. -/
def consume (sawMcpActivity : Bool) : EngineProc Unit := do
  consumeOneShotKickoff deps identity mail
  if sawMcpActivity then consumeUnreadTurnWakeMail deps identity mail

/-- The notice to the sender of a kickoff that was given up. -/
def cappedKickoffNotice (attempts : ℕ) (error : String) (seen : TurnEnd) : MailEnvelope where
  type := .clarifyRequest
  «from» := identity.agent
  «to» := mail.sender
  subject :=
    if seen.kickoffPaneLive then
      s!"Kickoff delivery uncertain for {identity.agent} (agent is live)"
    else s!"Kickoff injection failed for {identity.agent}"
  body :=
    (if seen.kickoffPaneLive then
      s!"{identity.agent}'s pane is LIVE and producing fresh output, but its one-shot kickoff " ++
      s!"did not echo-verify after {attempts} injection attempt(s), so it was retracted to free " ++
      "the warm pane from re-pasting it every tick. The agent may already be acting on the " ++
      "kickoff (it was likely delivered, only the composer echo could not be confirmed) — do NOT " ++
      "assume it is stranded. If the agent appears IDLE and never picked the kickoff up, resend " ++
      "it via mail. "
    else
      s!"The one-shot kickoff for {identity.agent} was retracted after {attempts} failed " ++
      "injection attempt(s), so the warm pane is no longer stuck re-pasting it every tick. The " ++
      "pane is NOT producing fresh output (exited or byte-silent), so the agent is likely " ++
      "genuinely stuck and the kickoff was probably never delivered — re-kick or recover it. ") ++
    "\n\n" ++
    s!"Provider: {seen.provider}. Original kickoff seq: {mail.seq}. " ++
    s!"Last inject error: {error}\n\nOriginal kickoff subject:\n{mail.subject}\n\n" ++
    s!"Original kickoff body:\n{mail.body}"
  causationId := some (toString mail.seq)
  idempotencyKey := some (s!"kickoff-injection-failed:{identity.projectId}:" ++
    s!"{identity.agent}:{mail.sender}:{mail.seq}")

/-- Give a kickoff up whose injection has failed too often. -/
def retireKickoff (attempts : ℕ) (error : String) (seen : TurnEnd) : EngineProc Unit := do
  consumeOneShotKickoff deps identity mail
  let _ ← onProject identity.projectId
    (Mail.MailStore.send deps.delivery (cappedKickoffNotice identity mail attempts error seen))

/-- A turn that threw leaves its mail outstanding, except for a kickoff that keeps failing. -/
def turnErrored (error : String) (seen : TurnEnd) (e : ConductorEngine) : ConductorEngine :=
  if isTurnKickoffMail mail then
    let key := kickoffAttemptKey (agentKey identity) mail
    let attempts := e.kickoffInjectAttempts key + 1
    if KICKOFF_INJECT_ATTEMPT_CAP ≤ attempts then
      { e with
        toEngine := (retireKickoff deps identity mail attempts error seen).exec e.toEngine
        kickoffInjectAttempts := Function.update e.kickoffInjectAttempts key 0 }
    else
      { e with
        kickoffInjectAttempts := Function.update e.kickoffInjectAttempts key attempts }
  else e

/-- A turn that reached its idle boundary. -/
def turnYielded (now : ℚ) (seen : TurnEnd) (e : ConductorEngine) : ConductorEngine :=
  let key := agentKey identity
  if seen.sawOverload && !seen.sawMcpActivity then
    (e.recordOverloadBackoff now key).clearKickoffInjectAttempts key
  else
    let e := e.clearOverloadBackoff key
    let consumed := consume deps identity mail seen.sawMcpActivity e.toEngine
    let e := { e with toEngine := consumed.2 }
    match consumed.1 with
    | .ok () => e.clearKickoffInjectAttempts key
    | .error error => turnErrored deps identity mail error seen e

/-- `runOneTurn`, from the end of its observation on. -/
def runOneTurn (now : ℚ) (seen : TurnEnd) (e : ConductorEngine) : ConductorEngine :=
  let e :=
    match seen.error with
    | some error => turnErrored deps identity mail error seen e
    | none => turnYielded deps identity mail now seen e
  if e.releasePending.contains identity then
    { (e.dropExitTracking identity) with
      releasePending := e.releasePending.filter (· ≠ identity) }
  else e

end

end Orchestration.Conductor
