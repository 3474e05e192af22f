import Orchestration.Dispatch.PlacementProjector
import Orchestration.Dispatch.Throttle
import Orchestration.Dispatch.UsageProjector
import Orchestration.Js.Runtime

/-!
# The dispatch policy

From the usage that the store has folded and the configuration of the project to where a
seat runs: the accounts become candidates, the balancer decides among them, and the throttle
turns the decision into a placement or a wait.
-/

namespace Orchestration.Dispatch

open Fallible

/-! ## Candidates -/

def USAGE_BUCKET_TTL_MS_DEFAULT : Float := 5 * 60 * 1000

section

variable (js : Js.Runtime)

/-- A sample is fresh for the time it is trusted, and not past the reset of its window. -/
def isStale (bucket : UsageBucketRow) (nowMs : Float) : Bool :=
  match js.dateParse bucket.sampledAt, js.dateParse bucket.resetAt with
  | some sampledMs, some resetMs =>
    Js.mathMin (sampledMs + USAGE_BUCKET_TTL_MS_DEFAULT) resetMs ≤ nowMs
  | _, _ => true

def deriveHeadroom (accountStatus : Option UsageAccountRow) (bucket : Option UsageBucketRow) :
    Headroom :=
  match accountStatus with
  | none => .unknown "no usage observed for this account"
  | some status =>
    if status.available then
      match bucket with
      | none => .unknown "no usage observed for this window"
      | some bucket => .known bucket.usedPct bucket.resetAt
    else .unknown (status.reason.getD "usage source unavailable")

/-- The tightest of the windows, the first by kind among equals. -/
def bindingBucket (buckets : List UsageBucketRow) : Option UsageBucketRow :=
  buckets.foldl
    (fun binding bucket =>
      match binding with
      | none => some bucket
      | some tightest =>
        if tightest.usedPct < bucket.usedPct || bucket.usedPct == tightest.usedPct &&
            !Js.unitsLe (Js.codeUnits tightest.windowKind) (Js.codeUnits bucket.windowKind) then
          some bucket
        else binding)
    none

/-- What one account has left, by its tightest window. -/
def bindingProviderHeadroom (provider : Provider) (accountStatus : Option UsageAccountRow)
    (buckets : List UsageBucketRow) (account : String) : ProviderHeadroom where
  provider
  account
  available := (accountStatus.map (·.available)).getD false
  headroom := deriveHeadroom accountStatus (bindingBucket buckets)
  resetAt := (bindingBucket buckets).map (·.resetAt)

def soonestFutureReset (buckets : List UsageBucketRow) (nowMs : Float) : Option String :=
  soonestOf js ((buckets.map (·.resetAt)).map fun resetAt =>
    if (js.dateParse resetAt).any (nowMs < ·) then some resetAt else none)

/-- The candidate of one account: a stale window leaves its usage unknown. -/
def candidateFromStore (t : UsageTables) (nowMs : Float) (account : Provider × String) :
    ProviderHeadroom :=
  let accountBuckets := t.buckets.rows.filter fun b =>
    b.provider == account.1 && b.account == account.2
  let usable := if accountBuckets.any (isStale js · nowMs) then [] else accountBuckets
  let candidate :=
    bindingProviderHeadroom account.1 (selectUsageAccount t account.1 account.2) usable account.2
  { candidate with resetAt := candidate.resetAt.or (soonestFutureReset js accountBuckets nowMs) }

def candidatesFromStore (t : UsageTables) (accounts : List (Provider × String)) (nowMs : Float) :
    List ProviderHeadroom :=
  accounts.map (candidateFromStore js t nowMs)

end

/-! ## The policy -/

/-- The dispatch configuration of a project, as the readers of the config store resolve it. -/
structure DispatchConfig where
  enabledProviders : Except String (List Provider)
  pins : Except String PinTable
  models : Except String ModelOverrides
  maxedThresholdPct : Except String Float

/-- The placements of an agent, in the order of their events. -/
def readPlacements (t : PlacementTables) (agent : Option String := none) : List PlacementRecord :=
  t.placements.rows.filter fun row => agent.all (row.agent == ·)

/-- Where the agent was placed last in the role. -/
def previousPlacement (t : PlacementTables) (role agent : String) : Option Placement :=
  ((readPlacements t agent).reverse.filterMap fun row =>
    match row.decided with
    | .placed seat placed =>
      if seat.role = role then some {
        role := seat.role
        provider := placed.provider
        account := placed.account.getD (accountForProvider placed.provider)
        model := placed.model
        effort := placed.effort
        context := placed.context }
      else none
    | .waiting _ _ => none).head?

/-- What a seat is dispatched for. -/
structure DispatchRequest where
  role : String
  workSize : WorkSize
  reasoningBudget : ReasoningBudget
  accounts : List (Provider × String)
  nowMs : Float
  agent : String

/-- Resolve where a seat runs. -/
def runDispatchPolicy (js : Js.Runtime) (config : DispatchConfig) (usage : UsageTables)
    (placements : PlacementTables) (req : DispatchRequest) : Except String DispatchResolution := do
  let enabled ← config.enabledProviders
  let enabledAccounts := req.accounts.filter fun a => enabled.contains a.1
  let offered := ", ".intercalate (req.accounts.map fun a => toString a.1)
  refuse (req.accounts ≠ [] ∧ enabledAccounts = [])
    ("co dispatch: no enabled provider to dispatch to — 'dispatch.enabledProviders' excludes " ++
      s!"every candidate account ({offered}).")
  let pins ← config.pins
  let modelOverrides ← config.models
  let maxedThresholdPct ← config.maxedThresholdPct
  let candidates := candidatesFromStore js usage enabledAccounts req.nowMs
  let decision := placeAgent js {
    role := req.role
    workSize := req.workSize
    reasoningBudget := req.reasoningBudget
    pins
    candidates
    nowMs := req.nowMs
    previous := previousPlacement placements req.role req.agent
    modelOverrides := some modelOverrides }
  return resolveDispatch js decision candidates { nowMs := req.nowMs, maxedThresholdPct }

end Orchestration.Dispatch
