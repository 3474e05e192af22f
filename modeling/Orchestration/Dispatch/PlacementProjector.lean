import Orchestration.Dispatch.Events
import Orchestration.Library.Table

/-!
# The placement and tool-usage read models

One row for each placement decision and one for each tool call, both keyed by
their event, and a rollup of the tool calls of each agent.
-/

namespace Orchestration.Dispatch

open Fallible

/-! ## Placements -/

/-- A recorded placement decision. -/
structure PlacementRecord where
  seq : ℕ
  agent : String
  decided : PlacementDecided
  recordedTs : ℕ
deriving DecidableEq, Repr

structure PlacementTables where
  placements : Table PlacementRecord.seq := {}

def selectPlacementBySeq (t : PlacementTables) (seq : ℕ) : Option PlacementRecord :=
  t.placements.find? seq

/-- The agent whose stream a placement lives in. -/
def agentFromPlacementEvent (event : StoredEvent DispatchEvent) : Except String String := do
  let agent ← orThrow (afterPrefix? PLACEMENT_SCOPE_PREFIX event.scope)
    (s!"placement-projector: expected scope '{PLACEMENT_SCOPE_PREFIX}<agent>', got " ++
      s!"'{event.scope}'")
  refuse (agent = "") "placement-projector: placement scope is missing agent id"
  whenSome event.actor fun actor =>
    refuse (actor ≠ agent)
      s!"placement-projector: actor '{actor}' does not match placement scope agent '{agent}'"
  return agent

/-- A placed seat is stored with its account, or else its provider's. -/
def storedPlacement : PlacementDecided → PlacementDecided
  | .placed seat placed =>
    .placed seat
      { placed with account := some (placed.account.getD (accountForProvider placed.provider)) }
  | .waiting seat waiting => .waiting seat waiting

/-- The placement projector: fold one decoded decision, keyed by its event. -/
def PlacementProjector.apply (t : PlacementTables) (event : StoredEvent DispatchEvent)
    (payload : PlacementDecided) : Except String PlacementTables := do
  let agent ← agentFromPlacementEvent event
  let row : PlacementRecord := {
    seq := event.seq
    agent
    decided := storedPlacement payload
    recordedTs := event.ts }
  return { placements := t.placements.upsert row { run := fun old => { row with seq := old.seq } } }

/-- A folded decision has its row. -/
theorem mem_placements_of_apply {t t' : PlacementTables} {event : StoredEvent DispatchEvent}
    {payload : PlacementDecided} (h : PlacementProjector.apply t event payload = .ok t') :
    ∃ row ∈ t'.placements.rows, row.seq = event.seq ∧
      event.scope = PLACEMENT_SCOPE_PREFIX ++ row.agent ∧ row.decided = storedPlacement payload := by
  simp only [PlacementProjector.apply, bind_eq_ok, pure_eq_ok] at h
  obtain ⟨agent, hagent, rfl⟩ := h
  simp only [agentFromPlacementEvent, bind_eq_ok, orThrow_eq_ok, pure_eq_ok] at hagent
  obtain ⟨found, hfound, -, -, -, -, rfl⟩ := hagent
  let row : PlacementRecord := {
    seq := event.seq
    agent := found
    decided := storedPlacement payload
    recordedTs := event.ts }
  obtain ⟨r, hmem, hkey, hr⟩ := Table.exists_mem_upsert t.placements row
    { run := fun old => { row with seq := old.seq } }
  refine ⟨r, hmem, hkey, ?_⟩
  cases hr with
  | inl hnew =>
    subst hnew
    exact ⟨eq_append_of_afterPrefix? hfound, rfl⟩
  | inr hold =>
    obtain ⟨old, rfl⟩ := hold
    exact ⟨eq_append_of_afterPrefix? hfound, rfl⟩

/-! ## Tool usage -/

/-- A row of `tool_invocations`. -/
structure ToolInvocationRow where
  seq : ℕ
  agent : String
  task : String
  tool : String
  turn : ℕ
  ok : Bool
  redundantRead : Bool
  permissionAsk : Bool
  durationMs : Option Float
  ts : ℕ
deriving DecidableEq, Repr

/-- A row of `tool_usage_rollup`. -/
structure AgentToolUsage where
  agentId : String
  toolCalls : ℕ
  toolErrors : ℕ
  redundantReads : ℕ
  permissionAsks : ℕ
  turnsToFirstProductiveCoCall : Option ℕ
deriving DecidableEq, Repr

structure ToolUsageTables where
  invocations : Table ToolInvocationRow.seq := {}
  rollups : Table AgentToolUsage.agentId := {}

def selectAgentToolUsage (t : ToolUsageTables) (agent : String) : Option AgentToolUsage :=
  t.rollups.find? agent

/-- A call of the orchestration surface itself. -/
def isProductiveCoTool (tool : String) : Bool :=
  (afterPrefix? "co_" tool).isSome || (afterPrefix? "mcp__co__" tool).isSome

def validateToolInvokedEnvelope (event : StoredEvent DispatchEvent) (p : ToolInvoked) :
    Except String Unit := do
  refuse (event.scope ≠ toolScope p.agent)
    (s!"tool-usage-projector: tool scope '{event.scope}' does not match tool.invoked agent " ++
      s!"'{p.agent}'")
  whenSome event.actor fun actor =>
    refuse (actor ≠ p.agent)
      s!"tool-usage-projector: actor '{actor}' does not match tool.invoked agent '{p.agent}'"

/-- The earlier of two productive turns, if there are any. -/
def firstTurn : Option ℕ → Option ℕ → Option ℕ
  | first, none => first
  | none, some turn => some turn
  | some first, some turn => some (min first turn)

/-- The tool-usage projector: fold one decoded call into its agent's rollup, once. -/
def ToolUsageProjector.apply (t : ToolUsageTables) (event : StoredEvent DispatchEvent)
    (p : ToolInvoked) : Except String ToolUsageTables := do
  validateToolInvokedEnvelope event p
  let row : ToolInvocationRow := {
    seq := event.seq
    agent := p.agent
    task := p.task
    tool := p.tool
    turn := p.turn
    ok := p.ok
    redundantRead := p.redundantRead.getD false
    permissionAsk := p.permissionAsk.getD false
    durationMs := p.durationMs
    ts := event.ts }
  match t.invocations.insert? row with
  | none => return t
  | some invocations =>
    let usage : AgentToolUsage := {
      agentId := p.agent
      toolCalls := 1
      toolErrors := if p.ok then 0 else 1
      redundantReads := if row.redundantRead then 1 else 0
      permissionAsks := if row.permissionAsk then 1 else 0
      turnsToFirstProductiveCoCall := if p.ok && isProductiveCoTool p.tool then some p.turn else none }
    return {
      invocations
      rollups := t.rollups.upsert usage
        { run := fun old => {
            agentId := old.agentId
            toolCalls := old.toolCalls + 1
            toolErrors := old.toolErrors + usage.toolErrors
            redundantReads := old.redundantReads + usage.redundantReads
            permissionAsks := old.permissionAsks + usage.permissionAsks
            turnsToFirstProductiveCoCall :=
              firstTurn old.turnsToFirstProductiveCoCall usage.turnsToFirstProductiveCoCall } } }

end Orchestration.Dispatch
