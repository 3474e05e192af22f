import Mathlib.Data.List.Sort
import Orchestration.Conductor.WorkSelection
import Orchestration.Library.Turns
import Orchestration.Replay.Recovery

/-!
# The daemon's tick

A tick launches the roots and the woken agents that are cold, rebuilds its candidates from
the sessions, offers the cold ones a pane, drives one turn, and on every cadence sweeps the
clarify requests and the running agents. Whatever throws in it rejects the tick. At its
awaits other parties go on: agents and the operator call the stores, agents are hosted,
released and suppressed.
-/

namespace Orchestration.Conductor

open Fallible Transaction
open Dispatch (Provider)
open Mail (DeliveredMail OPERATOR)
open Replay (StoreCall storeRun)
open Roles (AgentRecord RosterTables selectAgent)
open Session (SessionRecord SessionTables)
open Turns (Turn)

structure ConductorDaemonDeps where
  projectId : String
  /-- Every which tick is a cadence; the constructor refuses anything but a positive integer. -/
  reconcileEvery : ℕ
  reconcileEvery_pos : 0 < reconcileEvery
  engine : ConductorEngineDeps
  /-- The isolated home of a cold-started codex agent. -/
  codexHomeFor : Option (String → String) := none

/-! ## Candidates -/

/-- The running sessions, by the time of their creation, then by agent. -/
def selectAllSessions (t : SessionTables) : List SessionRecord :=
  t.sessions.rows.insertionSort fun a b =>
    a.createdTs < b.createdTs ∨ a.createdTs = b.createdTs ∧ a.agentId ≤ b.agentId

section

variable (deps : ConductorDaemonDeps)

def toIdentity (roster : RosterTables) (session : SessionRecord) :
    Except String HostedIdentity := do
  let _ ← orThrow (selectAgent roster session.agentId)
    (s!"ConductorDaemon: running session for agent '{session.agentId}' has no roster record in " ++
      s!"project '{deps.projectId}' — corrupt/partial recovered state. Refusing to drop it " ++
      "(Principle 9 — fail loud, never silently drop a live agent).")
  return { projectId := deps.projectId, agent := session.agentId }

def buildCandidates (skipped : List String) (db : Db) : Except String (List HostedIdentity) := do
  let identities ← (selectAllSessions db.sessions).mapM (toIdentity deps db.roster)
  return identities.filter fun identity => !skipped.contains identity.agent

/-! ## Cold agents -/

def isRootAgent (agent : AgentRecord) : Bool :=
  agent.role == .coordinator && agent.parent == OPERATOR

/-- The provider of the latest placement that found one. -/
def providerForColdAgent (db : Db) (agentId : String) : Provider :=
  let placed := db.placement.placements.rows.filterMap fun placement =>
    match placement.decided with
    | .placed _ decided => if placement.agent == agentId then some decided.provider else none
    | .waiting _ _ => none
  placed.getLast?.getD .claude

def codexHomeForColdAgent (agentId : String) : Except String String := do
  let codexHome := (deps.codexHomeFor.map fun codexHomeFor => codexHomeFor agentId).getD ""
  refuse (codexHome = "")
    s!"ConductorDaemon: cold-started Codex agent '{agentId}' has no isolated CODEX_HOME seam."
  return codexHome

def toColdAgentIdentity (db : Db) (agent : AgentRecord) : Except String HostedIdentity := do
  match providerForColdAgent db agent.agentId with
  | .codex =>
    let _ ← codexHomeForColdAgent deps agent.agentId
    return { projectId := deps.projectId, agent := agent.agentId }
  | .claude => return { projectId := deps.projectId, agent := agent.agentId }

def hasLiveWorktree (db : Db) (agentId : String) : Bool :=
  db.worktrees.worktrees.rows.any fun w => !w.removed && w.agent == agentId

end

/-- The agent is registered, has no session and no pane, and nobody suppresses it. -/
def isCold (deps : ConductorDaemonDeps) (skipped : List String) (e : ConductorEngine)
    (agent : AgentRecord) : Bool :=
  let db := e.stores deps.projectId
  (Session.selectSession db.sessions agent.agentId).isNone &&
    !e.isHosted { projectId := deps.projectId, agent := agent.agentId } &&
    !skipped.contains agent.agentId

/-- The cold roots; in which order they are launched matters to no later step. -/
def discoverColdStartRoots (deps : ConductorDaemonDeps) (skipped : List String)
    (e : ConductorEngine) : Except String (List HostedIdentity) :=
  let db := e.stores deps.projectId
  let roots := db.roster.roster.rows.filter fun agent =>
    isRootAgent agent && isCold deps skipped e agent && hasLiveWorktree db agent.agentId
  roots.mapM (toColdAgentIdentity deps db)

def discoverColdRewakeAgents (deps : ConductorDaemonDeps) (skipped : List String)
    (e : ConductorEngine) : Except String (List HostedIdentity) :=
  let db := e.stores deps.projectId
  let agents := db.roster.roster.rows.filter fun agent =>
    !isRootAgent agent && isCold deps skipped e agent &&
      (firstEligibleMail db.mail agent.agentId).isSome && hasLiveWorktree db agent.agentId
  agents.mapM (toColdAgentIdentity deps db)

/-! ## The state of the daemon -/

/-- What a tick did. -/
structure TickRecord where
  tick : ℕ
  candidates : List String
  /-- Who was not suppressed or backing off and held an eligible mail, and who was driven. -/
  turn : Turn String
  clarifySwept : Bool
  reconciled : Bool
deriving DecidableEq, Repr

/-- What a tick awaits. -/
inductive TickPhase where
  | idle
  | coldStarting
  | rewaking
  | warming (candidates : List HostedIdentity)
  | driving (candidates drivable : List HostedIdentity) (turn : Turn String)
      (identity : HostedIdentity) (mail : DeliveredMail)
  | sweeping (candidates drivable : List HostedIdentity) (turn : Turn String)
deriving DecidableEq, Repr

structure ConductorDaemon where
  engine : ConductorEngine
  /-- The agents that are paused or stuck. -/
  skipped : List String := []
  recovered : Bool := false
  tickCount : ℕ := 0
  phase : TickPhase := .idle
  /-- The ticks that are over, rejected ones included. -/
  ticks : List TickRecord := []

/-- A daemon that has just started. -/
def ConductorDaemon.started (clock : String → ℕ → ℕ) : ConductorDaemon where
  engine := { toEngine := .started fun p => { Db.atRest with clock := clock p } }

/-- What a daemon does at a step, and what others do at its awaits. -/
inductive DaemonOp where
  | calls (projectId : String) (calls : List StoreCall)
  | suppress (agent : String)
  | unsuppress (agent : String)
  | hosts (identity : HostedIdentity)
  | releases (identity : HostedIdentity)
  | tickStarts (now : ℚ)
  | rewakes (now : ℚ)
  | builds (now : ℚ)
  | selects (now : ℚ)
  | turnEnds (now : ℚ) (seen : TurnEnd)
  | sweeps (now : ℚ)

/-- The agents among the candidates that a turn could be driven for. -/
def waitingAgents (e : ConductorEngine) (now : ℚ) (candidates : List HostedIdentity) :
    List HostedIdentity :=
  (e.eligible now candidates).filter fun identity =>
    (firstEligibleMail (e.openMail identity.projectId) identity.agent).isSome

namespace ConductorDaemon

variable (deps : ConductorDaemonDeps)

def mapEngine (f : ConductorEngine → ConductorEngine) (d : ConductorDaemon) : ConductorDaemon :=
  { d with engine := f d.engine }

def db (d : ConductorDaemon) : Db := d.engine.stores deps.projectId

/-- The tick is over. -/
def ended (candidates : List HostedIdentity) (turn : Turn String) (swept : Bool)
    (d : ConductorDaemon) : ConductorDaemon :=
  { d with
    phase := .idle
    ticks := d.ticks ++ [{
      tick := d.tickCount
      candidates := candidates.map HostedIdentity.agent
      turn
      clarifySwept := swept
      reconciled := swept }] }

/-- The warm agents with a session that are not suppressed. -/
def standing (d : ConductorDaemon) : List HostedIdentity :=
  let identities := (selectAllSessions (d.db deps).sessions).map fun session =>
    { projectId := deps.projectId, agent := session.agentId : HostedIdentity }
  identities.filter fun identity =>
    !d.skipped.contains identity.agent && d.engine.isHosted identity

/-- The tick throws before it has selected anybody. -/
def reject (now : ℚ) (d : ConductorDaemon) : ConductorDaemon :=
  let waiting := (waitingAgents d.engine now (d.standing deps)).map HostedIdentity.agent
  d.ended (d.standing deps) { waiting, chosen := none } false

/-- `recover` on the first tick, then the discovery of the cold roots. -/
def tickStarts (now : ℚ) (d : ConductorDaemon) : ConductorDaemon :=
  match d.phase with
  | .idle =>
    let recovery := if d.recovered then .ok [] else buildCandidates deps d.skipped (d.db deps)
    let d := { d with recovered := true }
    match recovery with
    | .error _ => d
    | .ok _ =>
      let d := { d with tickCount := d.tickCount + 1 }
      match discoverColdStartRoots deps d.skipped d.engine with
      | .error _ => d.reject deps now
      | .ok _ => { d with phase := .coldStarting }
  | _ => d

def rewakes (now : ℚ) (d : ConductorDaemon) : ConductorDaemon :=
  match d.phase with
  | .coldStarting =>
    match discoverColdRewakeAgents deps d.skipped d.engine with
    | .error _ => d.reject deps now
    | .ok _ => { d with phase := .rewaking }
  | _ => d

def builds (now : ℚ) (d : ConductorDaemon) : ConductorDaemon :=
  match d.phase with
  | .rewaking =>
    match buildCandidates deps d.skipped (d.db deps) with
    | .error _ => d.reject deps now
    | .ok candidates => { d with phase := .warming candidates }
  | _ => d

/-- `runCycle` up to the turn. -/
def selects (now : ℚ) (d : ConductorDaemon) : ConductorDaemon :=
  match d.phase with
  | .warming candidates =>
    let drivable := candidates.filter d.engine.isHosted
    let waiting := (waitingAgents d.engine now drivable).map HostedIdentity.agent
    match selectEligible (d.engine.eligible now drivable) d.engine.openMail with
    | none => { d with phase := .sweeping candidates drivable { waiting, chosen := none } }
    | some (identity, mail) =>
      { d with
        phase := .driving candidates drivable { waiting, chosen := some identity.agent } identity
          mail }
  | _ => d

def turnEnds (now : ℚ) (seen : TurnEnd) (d : ConductorDaemon) : ConductorDaemon :=
  match d.phase with
  | .driving candidates drivable turn identity mail =>
    { d.mapEngine (runOneTurn deps.engine identity mail now seen) with
      phase := .sweeping candidates drivable turn }
  | _ => d

/-- The end of a tick, with the two sweeps on a cadence. -/
def sweeps (now : ℚ) (d : ConductorDaemon) : ConductorDaemon :=
  match d.phase with
  | .sweeping candidates drivable turn =>
    if d.tickCount % deps.reconcileEvery = 0 then
      let swept := tickClarifyTimeouts deps.engine now candidates d.engine.toEngine
      (d.mapEngine fun e => { e with toEngine := swept.2 }).ended drivable turn
        swept.1.toOption.isSome
    else d.ended drivable turn false
  | _ => d

/-- Whether a turn of the agent is being driven. -/
def turnInFlight (d : ConductorDaemon) (identity : HostedIdentity) : Bool :=
  match d.phase with
  | .driving _ _ _ driven _ => driven == identity
  | _ => false

def step : DaemonOp → ConductorDaemon → ConductorDaemon
  | .calls p calls, d =>
    d.mapEngine fun e => { e with toEngine := e.toEngine.setStore p (storeRun calls (e.stores p)) }
  | .suppress agent, d => { d with skipped := agent :: d.skipped }
  | .unsuppress agent, d => { d with skipped := d.skipped.filter (· ≠ agent) }
  | .hosts identity, d => d.mapEngine (·.host identity)
  | .releases identity, d => d.mapEngine (·.release identity (d.turnInFlight identity))
  | .tickStarts now, d => d.tickStarts deps now
  | .rewakes now, d => d.rewakes deps now
  | .builds now, d => d.builds deps now
  | .selects now, d => d.selects now
  | .turnEnds now seen, d => d.turnEnds deps now seen
  | .sweeps now, d => d.sweeps deps now

end ConductorDaemon

end Orchestration.Conductor
