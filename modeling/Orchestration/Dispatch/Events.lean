import Orchestration.Js.Number
import Orchestration.Library.Fallible
import Orchestration.Review.Events

/-!
# Dispatch events

What the dispatch store observes and decides: samples of a provider account's
usage, the cost of a turn and the crossing of a budget, tool calls, and where a
seat was placed. Dollars and percentages are doubles, as the source has them.
-/

namespace Orchestration.Dispatch

open Fallible

def usageScope (account : String) : String := "usage:" ++ account

def costScope (id : String) : String := "cost:" ++ id

def toolScope (agent : String) : String := "tool:" ++ agent

def PLACEMENT_SCOPE_PREFIX : String := "placement:"

def placementScope (agent : String) : String := PLACEMENT_SCOPE_PREFIX ++ agent

inductive Provider where
  | claude
  | codex
deriving DecidableEq, Repr

instance : ToString Provider where
  toString
    | .claude => "claude"
    | .codex => "codex"

/-- The account label of a provider that names none. -/
def accountForProvider : Provider → String
  | .claude => "claude:max"
  | .codex => "codex:pro"

/-- The `source` of a status row that no provider read has confirmed. -/
def ACCOUNT_STATUS_SEED_SOURCE : String := "seed"

structure UsageObservedAvailable where
  provider : Provider
  account : String
  windowKind : Option String := none
  usedPct : Option Float := none
  resetAt : Option String := none
  source : String
  sampledAt : String
deriving DecidableEq, Repr

structure UsageObservedUnavailable where
  provider : Provider
  account : String
  reason : String
  source : String
  sampledAt : String
deriving DecidableEq, Repr

/-- A sample of an account, or the reason why there is none. -/
inductive UsageObserved where
  | available (sample : UsageObservedAvailable)
  | unavailable (sample : UsageObservedUnavailable)
deriving DecidableEq, Repr

namespace UsageObserved

def provider : UsageObserved → Provider
  | available sample => sample.provider
  | unavailable sample => sample.provider

def account : UsageObserved → String
  | available sample => sample.account
  | unavailable sample => sample.account

def source : UsageObserved → String
  | available sample => sample.source
  | unavailable sample => sample.source

end UsageObserved

/-- The cost of one turn: whatever of dollars, tokens and percentage the provider reports. The
project measures dollars and percentages in doubles; a statement about exact costs measures them in
numbers of another type. -/
structure CostRecorded (α : Type := Float) where
  provider : Provider
  agent : String
  task : String
  turn : ℕ
  sourceId : Option String := none
  costUsd : Option α := none
  inputTokens : Option ℕ := none
  outputTokens : Option ℕ := none
  totalTokens : Option ℕ := none
  cacheReadInputTokens : Option ℕ := none
  cacheCreationInputTokens : Option ℕ := none
  usedPct : Option α := none
deriving DecidableEq, Repr

structure CostNearBudget where
  task : String
  agent : String
  provider : Provider
  totalCostUsd : Float
  capCents : Float
  thresholdPct : Float
deriving DecidableEq, Repr

structure ToolInvoked where
  agent : String
  task : String
  tool : String
  turn : ℕ
  ok : Bool
  redundantRead : Option Bool := none
  permissionAsk : Option Bool := none
  durationMs : Option Float := none
deriving DecidableEq, Repr

inductive WorkSize where
  | simple
  | average
  | technical
deriving DecidableEq, Repr

inductive ReasoningBudget where
  | economy
  | standard
  | deep
deriving DecidableEq, Repr

inductive Effort where
  | low
  | medium
  | high
  | xhigh
  | max
deriving DecidableEq, Repr

inductive ContextWindow where
  | standard
  | extended
deriving DecidableEq, Repr

/-- What both outcomes of a placement say about the seat. -/
structure PlacementSeat where
  role : String
  workSize : WorkSize
  reasoningBudget : ReasoningBudget
  reviewId : Option String := none
  reviewTarget : Option String := none
  reviewBranch : Option String := none
  reviewScope : Option Review.ReviewScope := none
deriving DecidableEq, Repr

structure PlacementDecidedPlaced where
  provider : Provider
  account : Option String := none
  model : String
  effort : Effort
  context : ContextWindow
deriving DecidableEq, Repr

structure PlacementDecidedWaiting where
  etaResetAt : Option String := none
  reason : String
  maxedProviders : List Provider
  maxedAccounts : List String := []
  unavailableProviders : List Provider := []
  unavailableAccounts : List String := []
deriving DecidableEq, Repr

/-- A seat is placed on a provider, or waits for one. -/
inductive PlacementDecided where
  | placed (seat : PlacementSeat) (placed : PlacementDecidedPlaced)
  | waiting (seat : PlacementSeat) (waiting : PlacementDecidedWaiting)
deriving DecidableEq, Repr

def PlacementDecided.seat : PlacementDecided → PlacementSeat
  | placed seat _ => seat
  | waiting seat _ => seat

def PlacementDecided.kind : PlacementDecided → String
  | placed _ _ => "placed"
  | waiting _ _ => "waiting"

/-- What a dispatch-store event carries. -/
inductive DispatchEvent where
  | usageObserved (obs : UsageObserved)
  | costRecorded (rec : CostRecorded)
  | costNearBudget (nb : CostNearBudget)
  | toolInvoked (inv : ToolInvoked)
  | placementDecided (payload : PlacementDecided)
deriving DecidableEq, Repr

def DispatchEvent.typeName : DispatchEvent → String
  | .usageObserved _ => "usage.observed"
  | .costRecorded _ => "cost.recorded"
  | .costNearBudget _ => "cost.near_budget"
  | .toolInvoked _ => "tool.invoked"
  | .placementDecided _ => "placement.decided"

/-! ## Schemas -/

/-- The schema check `z.number().min(0)` of the field `path`: a finite number, not below zero. -/
def nonnegative (path : String) (value : Float) : Except String Unit := do
  refuse (!value.isFinite) s!"{path}: Invalid input: expected number"
  refuse (value < 0) s!"{path}: Too small: expected number to be >=0"

/-- The schema check `z.number().int().nonnegative()` of the field `path`. -/
def safeInt (path : String) (value : ℕ) : Except String Unit :=
  refuse (Js.maxSafeInteger < value)
    s!"{path}: Too big: expected int to be <={Js.maxSafeInteger}"

/-- What the cost read model does with dollars and percentages. -/
class Amount (α : Type) extends Zero α, Add α, BEq α where
  /-- The schema check of the field `path`. -/
  nonnegative (path : String) (value : α) : Except String Unit

instance : Amount Float where
  nonnegative := nonnegative

/-- A cost observation that measures nothing says nothing. -/
def hasMeasuredCostField {α : Type} (p : CostRecorded α) : Bool :=
  p.costUsd.isSome || p.inputTokens.isSome || p.outputTokens.isSome || p.totalTokens.isSome ||
    p.cacheReadInputTokens.isSome || p.cacheCreationInputTokens.isSome || p.usedPct.isSome

def usageObservedSchema : UsageObserved → Except String Unit
  | .available obs => do
    minLength1 "account" obs.account
    whenSome obs.windowKind (minLength1 "window_kind")
    whenSome obs.usedPct (nonnegative "used_pct")
    whenSome obs.resetAt (minLength1 "reset_at")
    minLength1 "source" obs.source
    minLength1 "sampled_at" obs.sampledAt
  | .unavailable obs => do
    minLength1 "account" obs.account
    minLength1 "reason" obs.reason
    minLength1 "source" obs.source
    minLength1 "sampled_at" obs.sampledAt

def costRecordedSchema {α : Type} [Amount α] (p : CostRecorded α) : Except String Unit := do
  minLength1 "agent" p.agent
  minLength1 "task" p.task
  safeInt "turn" p.turn
  whenSome p.sourceId (minLength1 "source_id")
  whenSome p.costUsd (Amount.nonnegative "cost_usd")
  whenSome p.inputTokens (safeInt "input_tokens")
  whenSome p.outputTokens (safeInt "output_tokens")
  whenSome p.totalTokens (safeInt "total_tokens")
  whenSome p.cacheReadInputTokens (safeInt "cache_read_input_tokens")
  whenSome p.cacheCreationInputTokens (safeInt "cache_creation_input_tokens")
  whenSome p.usedPct (Amount.nonnegative "used_pct")
  refuse (!hasMeasuredCostField p) "cost.recorded requires at least one measured field"

def costNearBudgetSchema (nb : CostNearBudget) : Except String Unit := do
  minLength1 "task" nb.task
  minLength1 "agent" nb.agent
  nonnegative "total_cost_usd" nb.totalCostUsd
  nonnegative "cap_cents" nb.capCents
  nonnegative "threshold_pct" nb.thresholdPct
  refuse (100 < nb.thresholdPct) "threshold_pct: Too big: expected number to be <=100"

def toolInvokedSchema (inv : ToolInvoked) : Except String Unit := do
  minLength1 "agent" inv.agent
  minLength1 "task" inv.task
  minLength1 "tool" inv.tool
  safeInt "turn" inv.turn
  whenSome inv.durationMs (nonnegative "duration_ms")

def placementSeatSchema (seat : PlacementSeat) : Except String Unit := do
  minLength1 "role" seat.role
  whenSome seat.reviewId (minLength1 "review_id")
  whenSome seat.reviewTarget (minLength1 "review_target")
  whenSome seat.reviewBranch (minLength1 "review_branch")

def placementDecidedSchema : PlacementDecided → Except String Unit
  | .placed seat placed => do
    placementSeatSchema seat
    whenSome placed.account (minLength1 "account")
    minLength1 "model" placed.model
  | .waiting seat waiting => do
    placementSeatSchema seat
    minLength1 "reason" waiting.reason
    waiting.maxedAccounts.forM (minLength1 "maxed_accounts")
    waiting.unavailableAccounts.forM (minLength1 "unavailable_accounts")

/-- The payload schema of each dispatch event, checked on append and on every read. -/
def dispatchSchemas (event : DispatchEvent) : Except String DispatchEvent := do
  match event with
  | .usageObserved obs => usageObservedSchema obs
  | .costRecorded p => costRecordedSchema p
  | .costNearBudget nb => costNearBudgetSchema nb
  | .toolInvoked inv => toolInvokedSchema inv
  | .placementDecided payload => placementDecidedSchema payload
  return event

/-- A built event carries exactly what the schema accepted. -/
theorem dispatchSchemas_eq {event event' : DispatchEvent}
    (h : dispatchSchemas event = .ok event') : event' = event := by
  unfold dispatchSchemas at h
  cases event <;> simp only [bind_eq_ok, pure_eq_ok] at h <;>
    obtain ⟨-, -, rfl⟩ := h <;> rfl

/-! ## Building events -/

/-- A sample of a window is complete, or names none of the window's fields. -/
def makeUsageObservedEvent (obs : UsageObserved) : Except String (NewEvent DispatchEvent) := do
  let payload ← dispatchSchemas (.usageObserved obs)
  match obs with
  | .available sample =>
    let present :=
      [sample.windowKind.isSome, sample.usedPct.isSome, sample.resetAt.isSome].count true
    refuse (present ≠ 0 ∧ present ≠ 3)
      ("makeUsageObservedEvent: an available usage.observed must carry all of " ++
        "\x7bwindow_kind, used_pct, reset_at\x7d or none of them.")
  | .unavailable _ => pure ()
  return { scope := usageScope s!"{obs.provider}:{obs.account}", v := 1, payload }

def makeCostRecordedEvent (p : CostRecorded) : Except String (NewEvent DispatchEvent) := do
  let payload ← dispatchSchemas (.costRecorded p)
  return { scope := costScope p.agent, v := 1, payload, actor := p.agent }

def makeCostNearBudgetEvent (nb : CostNearBudget) : Except String (NewEvent DispatchEvent) := do
  let payload ← dispatchSchemas (.costNearBudget nb)
  return { scope := costScope nb.task, v := 1, payload, actor := nb.agent }

def makeToolInvokedEvent (inv : ToolInvoked) : Except String (NewEvent DispatchEvent) := do
  let payload ← dispatchSchemas (.toolInvoked inv)
  return { scope := toolScope inv.agent, v := 1, payload, actor := inv.agent }

/-- A placed seat names its account. -/
def makePlacementDecidedEvent (agent : String) (decided : PlacementDecided) :
    Except String (NewEvent DispatchEvent) := do
  let payload ← dispatchSchemas (.placementDecided decided)
  match decided with
  | .placed _ placed =>
    refuse placed.account.isNone
      "makePlacementDecidedEvent: placed placement.decided events must carry account"
  | .waiting _ _ => pure ()
  return { scope := placementScope agent, v := 1, payload, actor := agent }

end Orchestration.Dispatch
