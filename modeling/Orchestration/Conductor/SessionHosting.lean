import Orchestration.Conductor.Daemon
import Orchestration.Js.Number
import Orchestration.Roles.Subtree

/-!
# Hosting a session, and its undoing

A session is hosted with one transaction for its session row and another for its roster row,
and it is undone along four paths: the catch block of `hostSession`, the close of the session,
the rollback of a failed launch, and the teardown of a subtree. Between two awaits a thread runs
alone, but each of its transactions is committed for itself, and the process may be killed
between any two.
-/

namespace Orchestration.Conductor

open Fallible Transaction
open Dispatch (Provider)
open Mail (DeliveredMail inboxForRecipient sentByForSender)
open Replay (StoreCall)
open Roles (AgentRecord AgentRegistered Role RosterTables descendantsLeafFirst recordAgent
  removeAgent selectAgent selectAllAgents)
open Session (SessionCreated endSession recordSession selectSession)

/-- What the Conductor supplies when it hosts a session. -/
structure LaunchIdentity where
  agent : String
  role : Role
  subRole : Option String
  parent : String
  pane : String
  cwd : String
  provider : Provider
  resume : Session.ResumeHandle
deriving DecidableEq, Repr

/-- How far a call of `hostSession` has come, and the handle that it returned. The first four
phases and `registered` run on without an await. -/
inductive HostingPhase where
  | called
  | opened
  | sessionRecorded
  | contextOpened
  | registered (rosterClaimed : Bool)
  | connecting (rosterClaimed : Bool)
  | hosted (rosterClaimed : Bool)
  | unwinding (activeClaimed sessionClaimed rosterClaimed : Bool)
  | rolledBack (rosterClaimed : Bool)
  | failed
  | closing (rosterClaimed : Bool)
  | closed (rosterClaimed : Bool)
deriving DecidableEq, Repr

/-- A call of `hostSession`, its agent, parent and pane trimmed. -/
structure Hosting where
  identity : LaunchIdentity
  phase : HostingPhase
deriving DecidableEq, Repr

namespace Hosting

def agent (h : Hosting) : String := h.identity.agent

def sessionCreated (h : Hosting) : SessionCreated where
  agentId := h.identity.agent
  pane := h.identity.pane
  cwd := h.identity.cwd
  provider := h.identity.provider
  resume := h.identity.resume

def agentRegistered (h : Hosting) : AgentRegistered where
  agentId := h.identity.agent
  role := h.identity.role
  subRole := h.identity.subRole
  parent := h.identity.parent

end Hosting

/-- What `deleteAgentSubtree` does to an agent, in order. -/
inductive TeardownPhase where
  | sandbox
  | session
  | mail
  | slots
  | roster
deriving DecidableEq, Repr

/-- The thread that is between two of its transactions: one call of `hostSession`, or a teardown
with the agents it has yet to come to the end of. -/
inductive Running where
  | hosting (i : ℕ)
  | deleting (order : List String) (phase : TeardownPhase)
deriving DecidableEq, Repr

/-- The log of a project and the process that hosts its sessions. -/
structure SessionHost where
  db : Db
  activeHostedAgents : List String
  activeHostedPanes : List String
  hostings : List Hosting
  running : Option Running

namespace SessionHost

/-- A process without sessions, on the log that another one left. -/
def onLog (db : Db) : SessionHost where
  db
  activeHostedAgents := []
  activeHostedPanes := []
  hostings := []
  running := none

def setPhase (i : ℕ) (phase : HostingPhase) (s : SessionHost) : SessionHost :=
  { s with hostings := s.hostings.modify i fun h => { h with phase } }

/-- The call goes on to its next statement. -/
def goOn (i : ℕ) (phase : HostingPhase) (s : SessionHost) : SessionHost :=
  { s.setPhase i phase with running := some (.hosting i) }

/-- The call awaits, or it is over. -/
def rest (i : ℕ) (phase : HostingPhase) (s : SessionHost) : SessionHost :=
  { s.setPhase i phase with running := none }

def claimActive (h : Hosting) (s : SessionHost) : SessionHost :=
  { s with
    activeHostedAgents := h.agent :: s.activeHostedAgents
    activeHostedPanes := h.identity.pane :: s.activeHostedPanes }

def releaseActive (h : Hosting) (s : SessionHost) : SessionHost :=
  { s with
    activeHostedAgents := s.activeHostedAgents.filter (· ≠ h.agent)
    activeHostedPanes := s.activeHostedPanes.filter (· ≠ h.identity.pane) }

/-- Run one transaction: what it committed, and whether it returned. A fault of the store, like
a refusal, rolls it back. -/
def commits {α : Type} (body : StoreTx α) (fault : Bool) (s : SessionHost) :
    Bool × SessionHost :=
  if fault then (false, s)
  else ((transaction body s.db).1.toOption.isSome, { s with db := (transaction body).exec s.db })

/-! ## Hosting -/

/-- A call of `hostSession` up to the opening of the session store. -/
def hostSession (identity : LaunchIdentity) (s : SessionHost) : SessionHost :=
  let agent := Js.trimString identity.agent
  let parent := Js.trimString identity.parent
  let pane := Js.trimString identity.pane
  if agent = "" ∨ parent = "" ∨ pane = "" ∨ agent ∈ s.activeHostedAgents ∨
      pane ∈ s.activeHostedPanes then s
  else
    { s with
      hostings := s.hostings ++ [{ identity := { identity with agent, parent, pane },
                                   phase := .called }]
      running := some (.hosting s.hostings.length) }

/-- The catch block after its await: the session goes first, and the roster row only when the
session is gone. -/
def unwinds (i : ℕ) (h : Hosting) (activeClaimed sessionClaimed rosterClaimed fault : Bool)
    (s : SessionHost) : SessionHost :=
  let s := if activeClaimed then s.releaseActive h else s
  if sessionClaimed then
    match s.commits (endSession h.agent h.identity.pane) fault with
    | (true, s) => s.goOn i (.rolledBack rosterClaimed)
    | (false, s) => s.rest i .failed
  else s.goOn i (.rolledBack rosterClaimed)

/-- The next step of a call of `hostSession`, or of the close of its session. `fault` says that
what the step calls throws for a reason of its own. -/
def resumes (i : ℕ) (h : Hosting) (fault : Bool) (s : SessionHost) : SessionHost :=
  match h.phase with
  | .called =>
    -- `openSessions`, before anything is claimed
    if fault then s.rest i (.unwinding false false false) else (s.claimActive h).goOn i .opened
  | .opened =>
    match s.commits (recordSession h.sessionCreated) fault with
    | (true, s) => s.goOn i .sessionRecorded
    | (false, s) => s.rest i (.unwinding true false false)
  | .sessionRecorded =>
    -- `openContextStores`
    if fault then s.rest i (.unwinding true true false) else s.goOn i .contextOpened
  | .contextOpened =>
    let existingRosterAgent := selectAgent s.db.roster h.agent
    match s.commits (recordAgent h.agentRegistered) fault with
    | (true, s) => s.goOn i (.registered existingRosterAgent.isNone)
    | (false, s) => s.rest i (.unwinding true true false)
  | .registered rosterClaimed =>
    -- `createCoMcpServer`; the connection is awaited
    if fault then s.rest i (.unwinding true true rosterClaimed)
    else s.rest i (.connecting rosterClaimed)
  | .connecting rosterClaimed =>
    if fault then s.rest i (.unwinding true true rosterClaimed)
    else s.rest i (.hosted rosterClaimed)
  | .unwinding activeClaimed sessionClaimed rosterClaimed =>
    s.unwinds i h activeClaimed sessionClaimed rosterClaimed fault
  | .rolledBack rosterClaimed =>
    if rosterClaimed then ((s.commits (removeAgent h.agent) fault).2).rest i .failed
    else s.rest i .failed
  | .closing rosterClaimed =>
    ((s.commits (endSession h.agent h.identity.pane) fault).2.releaseActive h).rest i
      (.closed rosterClaimed)
  | .hosted _ | .failed | .closed _ => s

/-- `close` on the handle, up to the close of the MCP server; a second one returns at once. -/
def close (i : ℕ) (s : SessionHost) : SessionHost :=
  match s.hostings[i]?.map Hosting.phase with
  | some (.hosted rosterClaimed) => s.rest i (.closing rosterClaimed)
  | _ => s

/-- Take the roster row of an agent without a session. -/
def removeUnlessActive (agent : String) (s : SessionHost) : SessionHost :=
  match selectSession s.db.sessions agent, selectAgent s.db.roster agent with
  | none, some _ => (s.commits (removeAgent agent) false).2
  | _, _ => s

def rollbackRegistration (i : ℕ) (s : SessionHost) : SessionHost :=
  match s.hostings[i]? with
  | none => s
  | some h =>
    match h.phase with
    | .hosted true | .closing true | .closed true => s.removeUnlessActive h.agent
    | _ => s

/-! ## Teardown -/

def isReviewMail (mail : DeliveredMail) : Bool :=
  mail.type == .reviewRequest || mail.type == .reviewResponse

def isUnresolvedActionable (mail : DeliveredMail) : Bool :=
  mail.kind == .actionable && !mail.retracted && !mail.resolved

/-- The review mail that keeps an agent from being deleted. -/
def reviewCleanupBlockers (db : Db) (agentId : String) : List DeliveredMail :=
  (inboxForRecipient db.mail agentId ++ sentByForSender db.mail agentId).filter fun mail =>
    isUnresolvedActionable mail && isReviewMail mail

def teardownOrder (js : Js.Runtime) (roster : RosterTables) (rootId : String) :
    Except String (List AgentRecord) := do
  let rootAgent ← orThrow (selectAgent roster rootId)
    s!"deleteAgentSubtree: root agent '{rootId}' not found in roster"
  let descendants ← descendantsLeafFirst js (selectAllAgents roster) rootId
  return descendants ++ [rootAgent]

def tearing (order : List String) (phase : TeardownPhase) (s : SessionHost) : SessionHost :=
  { s with running := some (.deleting order phase) }

/-- The teardown goes on to the next agent. -/
def nextAgent (order : List String) (s : SessionHost) : SessionHost :=
  match order with
  | [] | [_] => { s with running := none }
  | _ :: order => s.tearing order .sandbox

def deleteAgentSubtree (js : Js.Runtime) (rootId : String) (s : SessionHost) : SessionHost :=
  match teardownOrder js s.db.roster rootId with
  | .error _ => s
  | .ok order =>
    if order.all fun agent => (reviewCleanupBlockers s.db agent.agentId).isEmpty then
      s.tearing (order.map AgentRecord.agentId) .sandbox
    else s

/-- The next statement of a teardown. What it does to the sandbox, to the mail and to the review
slot of an agent it does to other stores; where one of these throws, the agent is passed over. -/
def tears (order : List String) (phase : TeardownPhase) (fault : Bool) (s : SessionHost) :
    SessionHost :=
  match order with
  | [] => { s with running := none }
  | agentId :: _ =>
    match phase with
    | .sandbox => if fault then s.nextAgent order else s.tearing order .session
    | .session =>
      match selectSession s.db.sessions agentId with
      | none => if fault then s.nextAgent order else s.tearing order .mail
      | some session =>
        match s.commits (endSession agentId session.pane) fault with
        | (true, s) => s.tearing order .mail
        | (false, s) => s.nextAgent order
    | .mail => if fault then s.nextAgent order else s.tearing order .slots
    | .slots => if fault then s.nextAgent order else s.tearing order .roster
    | .roster => ((s.commits (removeAgent agentId) fault).2).nextAgent order

/-! ## The project -/

/-- What happens on a project log. -/
inductive HostOp where
  | hostSession (identity : LaunchIdentity)
  | close (i : ℕ)
  | rollbackRegistration (i : ℕ)
  /-- What a spawn gate does after it has released the pane of the agent. -/
  | gateReleases (agent : String)
  | deleteAgentSubtree (rootId : String)
  | resumes (i : ℕ) (fault : Bool)
  | tears (fault : Bool)
  /-- A registration outside of `hostSession`. -/
  | recordAgent (rec : AgentRegistered)
  /-- A call of a store that holds neither sessions nor the roster. -/
  | calls (call : StoreCall)
  | crash

def step (js : Js.Runtime) (op : HostOp) (s : SessionHost) : SessionHost :=
  match op with
  | .crash => onLog s.db
  | .calls call =>
    if .session ∈ call.folders ∨ .roster ∈ call.folders then s else { s with db := call.exec s.db }
  | .resumes i fault =>
    match s.hostings[i]? with
    | none => s
    | some h => if s.running = none ∨ s.running = some (.hosting i) then s.resumes i h fault else s
  | .tears fault =>
    match s.running with
    | some (.deleting order phase) => s.tears order phase fault
    | _ => s
  | .hostSession identity => if s.running = none then s.hostSession identity else s
  | .close i => if s.running = none then s.close i else s
  | .rollbackRegistration i => if s.running = none then s.rollbackRegistration i else s
  | .gateReleases agent => if s.running = none then s.removeUnlessActive agent else s
  | .deleteAgentSubtree rootId => if s.running = none then s.deleteAgentSubtree js rootId else s
  | .recordAgent rec => if s.running = none then (s.commits (Roles.recordAgent rec) false).2 else s

end SessionHost

end Orchestration.Conductor
