import Mathlib.Data.List.Sort
import Orchestration.Dispatch.Events
import Orchestration.Js.Runtime

/-!
# Where a seat is placed

The tier a seat runs at, and the balancer that picks a provider account for it:
a pinned seat goes to its pin, and any other to the roomiest healthy candidate,
unless its last one is nearly as roomy. A candidate that is unavailable or whose
usage is unknown is excluded.
-/

namespace Orchestration.Dispatch

/-! ## Tiers -/

structure TierPlacement where
  provider : Provider
  model : String
  effort : Effort
  context : ContextWindow
deriving DecidableEq, Repr

/-- The operator's own models, by provider and size of work. -/
abbrev ModelOverrides := Provider → WorkSize → Option String

def CLAUDE_MODELS : WorkSize → String
  | .simple => "claude-haiku-4-5-20251001"
  | .average => "claude-sonnet-4-6"
  | .technical => "claude-opus-4-8"

def CODEX_MODELS : WorkSize → String
  | .simple => "gpt-5.4-mini"
  | .average => "gpt-5.4"
  | .technical => "gpt-5.5"

def resolveEffort : WorkSize → ReasoningBudget → Effort
  | .simple, .economy => .low
  | .simple, .standard => .high
  | .simple, .deep => .xhigh
  | .average, .economy => .medium
  | .average, .standard => .high
  | .average, .deep => .xhigh
  | .technical, .economy => .high
  | .technical, .standard => .xhigh
  | .technical, .deep => .max

def resolveContext (workSize : WorkSize) (reasoningBudget : ReasoningBudget) : ContextWindow :=
  if workSize = .technical ∨ reasoningBudget = .deep then .extended else .standard

/-- An override that is not empty wins over the built-in model. -/
def resolveModel (workSize : WorkSize) (provider : Provider) (overrides : Option ModelOverrides) :
    String :=
  match overrides.bind fun byProvider => byProvider provider workSize with
  | some override =>
    if override ≠ "" then override else builtIn
  | none => builtIn
where
  builtIn : String :=
    match provider with
    | .claude => CLAUDE_MODELS workSize
    | .codex => CODEX_MODELS workSize

def resolveTier (workSize : WorkSize) (reasoningBudget : ReasoningBudget) (provider : Provider)
    (modelOverrides : Option ModelOverrides) : TierPlacement where
  provider
  model := resolveModel workSize provider modelOverrides
  effort := resolveEffort workSize reasoningBudget
  context := resolveContext workSize reasoningBudget

/-! ## Candidates and decisions -/

/-- The headroom of an account's binding window. -/
inductive Headroom where
  | known (usedPct : Float) (resetAt : String)
  | unknown (reason : String)
deriving DecidableEq, Repr

/-- A provider account that may take a seat. -/
structure ProviderHeadroom where
  provider : Provider
  account : String
  available : Bool
  headroom : Headroom
  resetAt : Option String := none
deriving DecidableEq, Repr

/-- What the operator pinned a role to. -/
structure Pin where
  provider : Provider
  model : Option String := none
  effort : Option Effort := none
deriving DecidableEq, Repr

/-- The pins by role. -/
abbrev PinTable := List (String × Pin)

structure Placement where
  role : String
  provider : Provider
  account : String
  model : String
  effort : Effort
  context : ContextWindow
deriving DecidableEq, Repr

/-- A healthy candidate of a floating seat. -/
structure RankedCandidate where
  provider : Provider
  account : String
  score : Float
  usedPct : Float
  resetAt : String
  placement : Placement
deriving DecidableEq, Repr

structure ExcludedCandidate where
  provider : Provider
  account : Option String
  why : String
deriving DecidableEq, Repr

inductive PlacementDecision where
  | pinned (placement : Placement) (reason : String)
  | floating (placement : Placement) (reason : String) (ranked : List RankedCandidate)
  | noCandidate (reason : String) (excluded : List ExcludedCandidate)
      (soonestResetAt : Option String)
deriving DecidableEq, Repr

structure PlaceAgentInput where
  role : String
  workSize : WorkSize
  reasoningBudget : ReasoningBudget
  pins : PinTable
  candidates : List ProviderHeadroom
  nowMs : Float
  previous : Option Placement := none
  /-- How much roomier than the last placement another must be, if configured. -/
  marginPct : Option Float := none
  modelOverrides : Option ModelOverrides := none

def HYSTERESIS_MARGIN_DEFAULT : Float := 10

def RESET_HORIZON_MS_DEFAULT : Float := 5 * 60 * 60 * 1000

/-! ## The balancer -/

section

variable (js : Js.Runtime)

/-- The free share of a window, of which usage counts the less the sooner the window resets. -/
def headroomScore (usedPct : Float) (resetAt : String) (nowMs : Float) : Float :=
  match js.dateParse resetAt with
  | none => 100 - usedPct
  | some resetMs =>
    let msUntilReset := Js.mathMax 0 (resetMs - nowMs)
    let resetWeight := Js.mathMin 1 (msUntilReset / RESET_HORIZON_MS_DEFAULT)
    100 - usedPct * resetWeight

structure ScoredCandidate where
  provider : Provider
  account : String
  score : Float
  usedPct : Float
  resetAt : String

/-- A healthy candidate, scored; `none` for an unhealthy one. -/
def scoreCandidate (nowMs : Float) (candidate : ProviderHeadroom) : Option ScoredCandidate :=
  match candidate.available, candidate.headroom with
  | true, .known usedPct resetAt => some {
      provider := candidate.provider
      account := candidate.account
      score := headroomScore js usedPct resetAt nowMs
      usedPct
      resetAt }
  | _, _ => none

def compareProvider : Provider → Provider → Ordering
  | .claude, .codex => .lt
  | .codex, .claude => .gt
  | _, _ => .eq

/-- Roomiest first; a difference that is no number counts as none. -/
def compareScored (a b : ScoredCandidate) : Ordering :=
  let byScore := b.score - a.score
  let order : Ordering := if byScore < 0 then .lt else if 0 < byScore then .gt else .eq
  (order.then (compareProvider a.provider b.provider)).then (js.localeCompare a.account b.account)

/-- Keep the last placement unless the roomiest candidate beats it by more than the margin. -/
def applyHysteresis (top : ScoredCandidate) (scored : List ScoredCandidate)
    (previous : Option Placement) (marginPct : Option Float) : ScoredCandidate :=
  match previous with
  | none => top
  | some previous =>
    match scored.find? fun s => s.provider = previous.provider ∧ s.account = previous.account with
    | none => top
    | some incumbent =>
      if incumbent.provider = top.provider ∧ incumbent.account = top.account then top
      else if marginPct.getD HYSTERESIS_MARGIN_DEFAULT < top.score - incumbent.score then top
      else incumbent

/-- The pin of a role, or else of its base role before the first colon. -/
def lookupPin (pins : PinTable) (role : String) : Option Pin :=
  (pins.lookup role).or
    (let base := role.toList.takeWhile (· ≠ ':')
    if base ≠ [] ∧ base.length < role.toList.length then pins.lookup (String.ofList base)
    else none)

def placementFromPin (role : String) (pin : Pin) (workSize : WorkSize)
    (reasoningBudget : ReasoningBudget) (account : String)
    (modelOverrides : Option ModelOverrides) : Placement :=
  let tier := resolveTier workSize reasoningBudget pin.provider modelOverrides
  { role
    provider := pin.provider
    account
    model := pin.model.getD tier.model
    effort := pin.effort.getD tier.effort
    context := tier.context }

/-- The roomiest healthy account of the pinned provider, or else the first by name. -/
def accountForPinnedProvider (provider : Provider) (candidates : List ProviderHeadroom)
    (nowMs : Float) : String :=
  let providerCandidates := candidates.filter (·.provider = provider)
  let best := (providerCandidates.filterMap (scoreCandidate js nowMs)).foldl
    (fun (best : Option String × Float) c =>
      if best.2 < c.score || c.score == best.2 && best.1.all fun account =>
          js.localeCompare c.account account == .lt then (some c.account, c.score)
      else best)
    (none, -1 / 0)
  match best.1 with
  | some account => account
  | none =>
    match providerCandidates.mergeSort fun a b => js.localeCompare a.account b.account != .gt with
    | [] => accountForProvider provider
    | first :: _ => first.account

/-- Why a candidate was excluded. -/
def exclusionReason (candidate : ProviderHeadroom) : String :=
  match candidate.headroom with
  | .known _ _ => "account unavailable"
  | .unknown reason =>
    if candidate.available then s!"headroom unknown: {reason}"
    else s!"account unavailable: {reason}"

/-- The first of the soonest of the dates, leaving out what is none. -/
def soonestOf (dates : List (Option String)) : Option String :=
  (dates.reduceOption.foldl
    (fun (best : Option (Float × String)) iso =>
      match js.dateParse iso with
      | none => best
      | some ms =>
        match best with
        | none => some (ms, iso)
        | some (bestMs, _) => if bestMs ≤ ms then best else some (ms, iso))
    none).map Prod.snd

/-- The soonest reset among the candidates. -/
def withSoonestReset (candidates : List ProviderHeadroom) : Option String :=
  soonestOf js (candidates.map fun candidate =>
    candidate.resetAt.or
      (match candidate.headroom with
      | .known _ resetAt => some resetAt
      | .unknown _ => none))

def floatingReason (role : String) (chosen top : ScoredCandidate) (previous : Option Placement) :
    String :=
  let base := s!"floating role '{role}' → '{chosen.provider}' (roomiest healthy provider; score " ++
    s!"{js.numberText chosen.score})"
  match previous with
  | none => base
  | some previous =>
    if chosen.provider ≠ top.provider ∨ chosen.account ≠ top.account then
      base ++ s!"; held on previous '{previous.provider}/{previous.account}' by hysteresis over " ++
        s!"'{top.provider}/{top.account}'"
    else base

/-- The placement of a floating seat on an account. -/
def floatingPlacement (input : PlaceAgentInput) (chosen : ScoredCandidate) : Placement :=
  let tier := resolveTier input.workSize input.reasoningBudget chosen.provider input.modelOverrides
  { role := input.role
    account := chosen.account
    provider := tier.provider
    model := tier.model
    effort := tier.effort
    context := tier.context }

/-- A scored candidate as the decision reports it. -/
def rankedCandidate (input : PlaceAgentInput) (s : ScoredCandidate) : RankedCandidate where
  provider := s.provider
  account := s.account
  score := s.score
  usedPct := s.usedPct
  resetAt := s.resetAt
  placement := floatingPlacement input s

/-- The healthy candidates, roomiest first. -/
def rankHealthy (nowMs : Float) (candidates : List ProviderHeadroom) : List ScoredCandidate :=
  (candidates.filterMap (scoreCandidate js nowMs)).mergeSort fun a b => compareScored js a b != .gt

/-- Decide where a seat should run. -/
def placeAgent (input : PlaceAgentInput) : PlacementDecision :=
  match lookupPin input.pins input.role with
  | some pin =>
    let account := accountForPinnedProvider js pin.provider input.candidates input.nowMs
    .pinned
      (placementFromPin input.role pin input.workSize input.reasoningBudget account
        input.modelOverrides)
      (s!"role '{input.role}' is pinned to provider '{pin.provider}' (pins are never overridden " ++
        "— AC1)")
  | none =>
    match rankHealthy js input.nowMs input.candidates with
    | [] =>
      .noCandidate
        (if input.candidates = [] then
          s!"no tier-capable candidate offered for role '{input.role}'"
        else
          s!"all {input.candidates.length} tier-capable provider(s) excluded as unhealthy for " ++
            s!"role '{input.role}'")
        (input.candidates.map fun c =>
          { provider := c.provider, account := some c.account, why := exclusionReason c })
        (withSoonestReset js input.candidates)
    | top :: others =>
      let scored := top :: others
      let chosen := applyHysteresis top scored input.previous input.marginPct
      .floating (floatingPlacement input chosen)
        (floatingReason js input.role chosen top input.previous)
        (scored.map (rankedCandidate input))

/-! ## What a decision is made of -/

/-- Ranking reorders the healthy candidates and loses none. -/
theorem mem_rankHealthy {nowMs : Float} {candidates : List ProviderHeadroom} {s : ScoredCandidate} :
    s ∈ rankHealthy js nowMs candidates ↔ ∃ c ∈ candidates, scoreCandidate js nowMs c = some s := by
  rw [rankHealthy, List.mem_mergeSort, List.mem_filterMap]

/-- Hysteresis picks among the ranked. -/
theorem applyHysteresis_mem (top : ScoredCandidate) (others : List ScoredCandidate)
    (previous : Option Placement) (marginPct : Option Float) :
    applyHysteresis top (top :: others) previous marginPct ∈ top :: others := by
  have htop : top ∈ top :: others := List.mem_cons_self
  unfold applyHysteresis
  split
  · exact htop
  · split
    · exact htop
    · next incumbent hincumbent =>
      split
      · exact htop
      · split
        · exact htop
        · exact List.mem_of_find?_eq_some hincumbent

/-- An unpinned seat is decided by the ranking of the healthy candidates. -/
theorem placeAgent_of_unpinned {input : PlaceAgentInput}
    (hunpinned : lookupPin input.pins input.role = none) :
    (rankHealthy js input.nowMs input.candidates = [] ∧
      ∃ reason excluded soonestResetAt,
        placeAgent js input = .noCandidate reason excluded soonestResetAt) ∨
    (∃ chosen ∈ rankHealthy js input.nowMs input.candidates, ∃ reason,
      placeAgent js input = .floating (floatingPlacement input chosen) reason
        ((rankHealthy js input.nowMs input.candidates).map (rankedCandidate input))) := by
  unfold placeAgent
  rw [hunpinned]
  cases rankHealthy js input.nowMs input.candidates with
  | nil => exact .inl ⟨rfl, _, _, _, rfl⟩
  | cons top others => exact .inr ⟨_, applyHysteresis_mem top others _ _, _, rfl⟩

end

end Orchestration.Dispatch
