import Orchestration.Dispatch.Balancer
import Orchestration.Dispatch.Keys

/-!
# Waiting for headroom

A decision becomes a placement only on an account below the threshold; otherwise
the seat waits, and a separate check says when it may be tried again. For a
floating seat the four passes over the candidates (ranking, hysteresis, the
throttle and the resume check) agree: the seat is placed just when some account
is free.
-/

namespace Orchestration.Dispatch

open Fallible

/-- The usage from which an account counts as full. -/
def MAXED_THRESHOLD_PCT_DEFAULT : Float := 95

structure DispatchDiagnostic where
  provider : Provider
  account : Option String
  code : String
  reason : String
deriving DecidableEq, Repr

/-- Either a placement, or the reason to wait and for whom. -/
inductive DispatchResolution where
  | placed (placement : Placement) (reason : String)
  | waiting (etaResetAt : Option String) (reason message : String)
      (maxedProviders : List Provider) (maxedAccounts : List String)
      (unavailableProviders : List Provider) (unavailableAccounts : List String)
      (diagnostics : List DispatchDiagnostic)
deriving DecidableEq, Repr

/-- Where the seat was placed, unless it waits. -/
def DispatchResolution.placement? : DispatchResolution → Option Placement
  | placed placement _ => some placement
  | waiting .. => none

structure ResolveOptions where
  nowMs : Float
  maxedThresholdPct : Option Float := none

def waitingEta : Option String → String
  | some etaResetAt => s!"delayed until {etaResetAt}"
  | none => "delayed — reset ETA unknown"

def waitingMessage (etaResetAt : Option String) (providers : List Provider) : String :=
  if providers = [] then waitingEta etaResetAt ++ " — no provider candidates available"
  else
    let who := ", ".intercalate (providers.map toString)
    waitingEta etaResetAt ++ s!" — all providers at capacity ({who})"

def unavailableMessage (etaResetAt : Option String) (diagnostics : List DispatchDiagnostic) :
    String :=
  let detail := "; ".intercalate (diagnostics.map fun d => s!"{d.provider}: {d.reason}")
  waitingEta etaResetAt ++ s!" — usage source unavailable ({detail})"

def waiting (maxedProviders : List Provider) (maxedAccounts : List String)
    (unavailableProviders : List Provider) (unavailableAccounts : List String)
    (etaResetAt : Option String) (reason : String) (diagnostics : List DispatchDiagnostic) :
    DispatchResolution :=
  .waiting etaResetAt reason
    (if diagnostics ≠ [] then unavailableMessage etaResetAt diagnostics
      else waitingMessage etaResetAt maxedProviders)
    maxedProviders maxedAccounts unavailableProviders unavailableAccounts diagnostics

def diagnosticForCandidate (candidate : ProviderHeadroom) : Option DispatchDiagnostic :=
  match candidate.available, candidate.headroom with
  | true, .known _ _ => none
  | _, headroom => some {
      provider := candidate.provider
      account := some candidate.account
      code := "usage_source_unavailable"
      reason :=
        match headroom with
        | .unknown reason => reason
        | .known _ _ => "usage source unavailable" }

def providerAccountKey (provider : Provider) (account : String) : String :=
  keyed (toString provider) account

def Headroom.isUnknown : Headroom → Bool
  | .unknown _ => true
  | .known _ _ => false

/-- The account is healthy and its usage below the threshold. -/
def ProviderHeadroom.below (candidate : ProviderHeadroom) (threshold : Float) : Bool :=
  candidate.available &&
    match candidate.headroom with
    | .known usedPct _ => decide (usedPct < threshold)
    | .unknown _ => false

section

variable (js : Js.Runtime)

/-- A floating seat goes to its account, or to the roomiest one that is below the threshold. -/
def resolveFloating (placement : Placement) (reason : String) (ranked : List RankedCandidate)
    (candidates : List ProviderHeadroom) (threshold : Float) : DispatchResolution :=
  let chosen := ranked.find? fun r =>
    r.provider = placement.provider ∧ r.account = placement.account
  let best := (chosen.filter fun r => r.usedPct < threshold).or
    (ranked.find? fun r => r.usedPct < threshold)
  match best with
  | none =>
    let maxedProviders := (ranked.map (·.provider)).eraseDups
    let rankedAccounts := ranked.map fun r => providerAccountKey r.provider r.account
    let unavailableCandidates := candidates.filter fun c =>
      !rankedAccounts.contains (providerAccountKey c.provider c.account) &&
        (!c.available || c.headroom.isUnknown)
    let names := ", ".intercalate (maxedProviders.map toString)
    waiting maxedProviders (ranked.map (·.account))
      (unavailableCandidates.map (·.provider)).eraseDups (unavailableCandidates.map (·.account))
      (soonestOf js (ranked.map (some ·.resetAt) ++ unavailableCandidates.map (·.resetAt)))
      (if maxedProviders = [] then "no healthy candidates available for floating placement"
        else s!"all {maxedProviders.length} suitable provider(s) maxed " ++
          s!"(≥{js.numberText threshold}% used): {names}")
      (unavailableCandidates.filterMap diagnosticForCandidate)
  | some best =>
    let skipped := ((chosen.or ranked.head?).map (·.account)).getD placement.account
    .placed best.placement
      (if best.provider = placement.provider ∧ best.account = placement.account then reason
        else s!"{reason}; selected account '{skipped}' was maxed, placed on next account below " ++
          s!"{js.numberText threshold}%")

/-- A pinned seat goes to its account or waits for it. -/
def resolvePinned (placement : Placement) (reason : String) (candidates : List ProviderHeadroom)
    (threshold : Float) : DispatchResolution :=
  let candidate := candidates.find? fun c =>
    c.provider = placement.provider ∧ c.account = placement.account
  if candidate.any (·.below threshold) then .placed placement reason
  else
    let diagnostics :=
      match candidate with
      | some candidate => (diagnosticForCandidate candidate).toList
      | none => [{
          provider := placement.provider
          account := some placement.account
          code := "usage_source_unavailable"
          reason := "not present in candidates" }]
    let whyMaxed :=
      match candidate with
      | none => "not present in candidates"
      | some candidate =>
        if !candidate.available then "account unavailable"
        else
          match candidate.headroom with
          | .unknown reason => s!"headroom unknown: {reason}"
          | .known usedPct _ =>
            s!"at capacity ({js.numberText usedPct}% ≥ {js.numberText threshold}%)"
    let isCapacity := candidate.any fun candidate =>
      candidate.available &&
        match candidate.headroom with
        | .known usedPct _ => decide (threshold ≤ usedPct)
        | .unknown _ => false
    waiting (if isCapacity then [placement.provider] else [])
      (if isCapacity then [placement.account] else [])
      (if isCapacity then [] else [placement.provider])
      (if isCapacity then [] else [placement.account])
      (candidate.bind (·.resetAt))
      (s!"pinned provider '{placement.provider}' is {whyMaxed} — waiting for its reset, never " ++
        "re-routes (P13)")
      diagnostics

/-- Turn a decision into a placement or a wait. -/
def resolveDispatch (decision : PlacementDecision) (candidates : List ProviderHeadroom)
    (opts : ResolveOptions) : DispatchResolution :=
  let threshold := opts.maxedThresholdPct.getD MAXED_THRESHOLD_PCT_DEFAULT
  match decision with
  | .floating placement reason ranked =>
    resolveFloating js placement reason ranked candidates threshold
  | .pinned placement reason => resolvePinned js placement reason candidates threshold
  | .noCandidate reason excluded soonestResetAt =>
    waiting [] [] (excluded.map (·.provider)) (excluded.filterMap (·.account)) soonestResetAt reason
      (excluded.map fun e =>
        { provider := e.provider
          account := e.account
          code := "usage_source_unavailable"
          reason := e.why })

end

/-! ## The resume check -/

structure ResumeOptions extends ResolveOptions where
  providerAccounts : Option (List (Provider × String)) := none
  providers : Option (List Provider) := none
  accounts : Option (List String) := none

/-- The pairs that the two separate filters stand for, where that is unambiguous. -/
def resumeFilterProviderAccounts (opts : ResumeOptions) : Except String (List (Provider × String)) :=
  match opts.providerAccounts, opts.providers, opts.accounts with
  | some pairs, _, _ => return pairs
  | none, some providers, some accounts =>
    match providers, accounts with
    | [], _ => return []
    | _, [] => return []
    | [provider], accounts => return accounts.map (provider, ·)
    | providers, [account] => return providers.map (·, account)
    | _, _ => throw ("canResume: providers/accounts filters are ambiguous for provider-account " ++
        "matching; pass providerAccounts")
  | none, _, _ => return []

def resumeAllowedPairs (opts : ResumeOptions) (filterPairs : List (Provider × String)) :
    Option (List String) :=
  match opts.providerAccounts with
  | some pairs => some (pairs.map fun (provider, account) => providerAccountKey provider account)
  | none =>
    if filterPairs ≠ [] then
      some (filterPairs.map fun (provider, account) => providerAccountKey provider account)
    else none

def matchesResumeFilter (candidate : ProviderHeadroom) (opts : ResumeOptions)
    (allowedPairs : Option (List String)) : Bool :=
  match allowedPairs with
  | some allowedPairs => allowedPairs.contains (providerAccountKey candidate.provider candidate.account)
  | none => opts.providers.all (·.contains candidate.provider) &&
      opts.accounts.all (·.contains candidate.account)

/-- Whether a waiting seat may be tried again. -/
def canResume (candidates : List ProviderHeadroom) (opts : ResumeOptions) : Except String Bool := do
  let threshold := opts.maxedThresholdPct.getD MAXED_THRESHOLD_PCT_DEFAULT
  let filterPairs ← resumeFilterProviderAccounts opts
  let allowedPairs := resumeAllowedPairs opts filterPairs
  return candidates.any fun c => matchesResumeFilter c opts allowedPairs && c.below threshold

/-! ## Ranking, throttle and resume check agree -/

section

variable (js : Js.Runtime)

/-- A scored candidate is below the threshold just when the candidate is. -/
theorem below_of_scored {nowMs threshold : Float} {c : ProviderHeadroom} {s : ScoredCandidate}
    (h : scoreCandidate js nowMs c = some s) :
    s.provider = c.provider ∧ s.account = c.account ∧
      (c.below threshold = true ↔ s.usedPct < threshold) := by
  unfold scoreCandidate at h
  split at h
  · next usedPct resetAt havailable hheadroom =>
    obtain rfl := Option.some.inj h
    simp [ProviderHeadroom.below, havailable, hheadroom]
  · cases h

/-- A candidate below the threshold is scored. -/
theorem scored_of_below {nowMs threshold : Float} {c : ProviderHeadroom}
    (h : c.below threshold = true) : ∃ s, scoreCandidate js nowMs c = some s := by
  simp only [ProviderHeadroom.below, Bool.and_eq_true] at h
  obtain ⟨havailable, hbelow⟩ := h
  cases hheadroom : c.headroom with
  | known usedPct resetAt => exact ⟨_, by rw [scoreCandidate, havailable, hheadroom]⟩
  | unknown reason => simp [hheadroom] at hbelow

/-- Some candidate is below the threshold just when some ranked one is. -/
theorem exists_below_iff {nowMs threshold : Float} {candidates : List ProviderHeadroom} :
    (∃ c ∈ candidates, c.below threshold = true) ↔
      ∃ s ∈ rankHealthy js nowMs candidates, s.usedPct < threshold := by
  constructor
  · rintro ⟨c, hc, hbelow⟩
    obtain ⟨s, hs⟩ : ∃ s, scoreCandidate js nowMs c = some s := scored_of_below js hbelow
    exact ⟨s, (mem_rankHealthy js).2 ⟨c, hc, hs⟩, (below_of_scored js hs).2.2.1 hbelow⟩
  · rintro ⟨s, hs, hbelow⟩
    obtain ⟨c, hc, hscored⟩ := (mem_rankHealthy js).1 hs
    exact ⟨c, hc, (below_of_scored js hscored).2.2.2 hbelow⟩

/-- The throttle places a floating seat on a ranked account below the threshold if there is one,
and otherwise has it wait. -/
theorem resolveFloating_spec (placement : Placement) (reason : String)
    (ranked : List RankedCandidate) (candidates : List ProviderHeadroom) (threshold : Float) :
    (∃ r ∈ ranked, r.usedPct < threshold ∧ ∃ why,
      resolveFloating js placement reason ranked candidates threshold = .placed r.placement why) ∨
    ((∀ r ∈ ranked, ¬ r.usedPct < threshold) ∧
      ∃ eta why message maxed maxedAccounts unavailable unavailableAccounts diagnostics,
        resolveFloating js placement reason ranked candidates threshold =
          .waiting eta why message maxed maxedAccounts unavailable unavailableAccounts
            diagnostics) := by
  simp only [resolveFloating]
  cases hbest : (((ranked.find? fun r =>
      r.provider = placement.provider ∧ r.account = placement.account).filter
        fun r => r.usedPct < threshold).or (ranked.find? fun r => r.usedPct < threshold)) with
  | some best =>
    refine .inl ⟨best, ?_, ?_, _, rfl⟩
    all_goals
      rcases Option.or_eq_some_iff.1 hbest with hchosen | ⟨-, hfirst⟩
    · exact List.mem_of_find?_eq_some (Option.filter_eq_some_iff.1 hchosen).1
    · exact List.mem_of_find?_eq_some hfirst
    · simpa using (Option.filter_eq_some_iff.1 hchosen).2
    · simpa using List.find?_some hfirst
  | none =>
    have hnone := (Option.or_eq_none_iff.1 hbest).2
    refine .inr ⟨fun r hr => by simpa using List.find?_eq_none.1 hnone r hr, ?_⟩
    exact ⟨_, _, _, _, _, _, _, _, rfl⟩

/-- Without a filter the resume check looks for any candidate below the threshold. -/
theorem canResume_unfiltered (candidates : List ProviderHeadroom) (opts : ResolveOptions) :
    canResume candidates { opts with } = .ok (candidates.any fun c =>
      c.below (opts.maxedThresholdPct.getD MAXED_THRESHOLD_PCT_DEFAULT)) := by
  simp [canResume, resumeFilterProviderAccounts, resumeAllowedPairs, matchesResumeFilter]

/-- The account is available and its usage known to be below the threshold. -/
def ProviderHeadroom.Free (candidate : ProviderHeadroom) (threshold : Float) : Prop :=
  candidate.available = true ∧
    ∃ usedPct resetAt, candidate.headroom = .known usedPct resetAt ∧ usedPct < threshold

omit js in
theorem below_eq_true {candidate : ProviderHeadroom} {threshold : Float} :
    candidate.below threshold = true ↔ candidate.Free threshold := by
  unfold ProviderHeadroom.below ProviderHeadroom.Free
  cases candidate.headroom <;> simp

/-- A placed floating seat is on a free account. -/
theorem free_of_ranked {input : PlaceAgentInput} {threshold : Float} {r : RankedCandidate}
    (hranked : r ∈ (rankHealthy js input.nowMs input.candidates).map (rankedCandidate input))
    (hbelow : r.usedPct < threshold) :
    r.placement.role = input.role ∧ ∃ c ∈ input.candidates,
      c.provider = r.placement.provider ∧ c.account = r.placement.account ∧ c.Free threshold := by
  obtain ⟨s, hs, rfl⟩ := List.mem_map.1 hranked
  obtain ⟨c, hc, hscored⟩ := (mem_rankHealthy js).1 hs
  obtain ⟨hprovider, haccount, hfree⟩ := below_of_scored js hscored
  exact ⟨rfl, c, hc, hprovider.symm, haccount.symm, below_eq_true.1 (hfree.2 hbelow)⟩

/-- What becomes of an unpinned seat: a placement that the balancer ranked, or a wait with no ranked
account below the threshold. -/
theorem resolveDispatch_of_unpinned {input : PlaceAgentInput} (opts : ResolveOptions)
    (hunpinned : lookupPin input.pins input.role = none) :
    (∃ r ∈ (rankHealthy js input.nowMs input.candidates).map (rankedCandidate input),
      r.usedPct < opts.maxedThresholdPct.getD MAXED_THRESHOLD_PCT_DEFAULT ∧ ∃ why,
        resolveDispatch js (placeAgent js input) input.candidates opts =
          .placed r.placement why) ∨
    ((∀ s ∈ rankHealthy js input.nowMs input.candidates,
        ¬ s.usedPct < opts.maxedThresholdPct.getD MAXED_THRESHOLD_PCT_DEFAULT) ∧
      ∃ eta why message maxed maxedAccounts unavailable unavailableAccounts diagnostics,
        resolveDispatch js (placeAgent js input) input.candidates opts =
          .waiting eta why message maxed maxedAccounts unavailable unavailableAccounts
            diagnostics) := by
  rcases placeAgent_of_unpinned js hunpinned with
    ⟨hnone, reason, excluded, soonest, hdecision⟩ | ⟨chosen, -, reason, hdecision⟩
  · rw [hdecision, hnone]
    refine .inr ⟨fun s hs => absurd hs List.not_mem_nil, ?_⟩
    simp only [resolveDispatch, waiting]
    exact ⟨_, _, _, _, _, _, _, _, rfl⟩
  · rw [hdecision]
    rcases resolveFloating_spec js (floatingPlacement input chosen) reason
      ((rankHealthy js input.nowMs input.candidates).map (rankedCandidate input))
      input.candidates (opts.maxedThresholdPct.getD MAXED_THRESHOLD_PCT_DEFAULT) with
      hplaced | ⟨hmaxed, hwaits⟩
    · exact .inl hplaced
    · refine .inr ⟨fun s hs => ?_, hwaits⟩
      exact hmaxed (rankedCandidate input s) (List.mem_map_of_mem hs)

/-- An unpinned seat is placed just when some candidate is free, which is when the resume check
says so; it is placed on a free candidate, and waits otherwise. -/
theorem floating_dispatch_iff_free (input : PlaceAgentInput) (opts : ResolveOptions)
    (hunpinned : lookupPin input.pins input.role = none) :
    let threshold := opts.maxedThresholdPct.getD MAXED_THRESHOLD_PCT_DEFAULT
    let resolution := resolveDispatch js (placeAgent js input) input.candidates opts
    (resolution.placement?.isSome = true ↔ ∃ c ∈ input.candidates, c.Free threshold) ∧
    (∀ resumeOpts : ResolveOptions, resumeOpts.maxedThresholdPct = opts.maxedThresholdPct →
      (canResume input.candidates { resumeOpts with } = .ok true ↔
        ∃ c ∈ input.candidates, c.Free threshold) ∧
      (canResume input.candidates { resumeOpts with } = .ok false ↔
        ¬ ∃ c ∈ input.candidates, c.Free threshold)) ∧
    (∀ placement, resolution.placement? = some placement →
      placement.role = input.role ∧ ∃ c ∈ input.candidates, c.provider = placement.provider ∧
        c.account = placement.account ∧ c.Free threshold) ∧
    ((¬ ∃ c ∈ input.candidates, c.Free threshold) →
      ∃ eta reason message maxed maxedAccounts unavailable unavailableAccounts diagnostics,
        resolution = .waiting eta reason message maxed maxedAccounts unavailable
          unavailableAccounts diagnostics) := by
  intro threshold resolution
  have hexists : (∃ c ∈ input.candidates, c.Free threshold) ↔
      ∃ s ∈ rankHealthy js input.nowMs input.candidates, s.usedPct < threshold := by
    simp only [← below_eq_true]
    exact exists_below_iff js
  have hresume : ∀ resumeOpts : ResolveOptions,
      resumeOpts.maxedThresholdPct = opts.maxedThresholdPct →
      (canResume input.candidates { resumeOpts with } = .ok true ↔
        ∃ c ∈ input.candidates, c.Free threshold) ∧
      (canResume input.candidates { resumeOpts with } = .ok false ↔
        ¬ ∃ c ∈ input.candidates, c.Free threshold) := by
    intro resumeOpts hsame
    rw [canResume_unfiltered, hsame, Except.ok.injEq, Except.ok.injEq, ← Bool.not_eq_true,
      List.any_eq_true]
    simp only [below_eq_true, threshold, iff_self, and_self]
  rcases resolveDispatch_of_unpinned js opts hunpinned with
    ⟨r, hr, hbelow, why, hplaced⟩ | ⟨hmaxed, eta, why, message, m, ma, u, ua, d, hwaits⟩
  · have hresolution : resolution = .placed r.placement why := hplaced
    obtain ⟨hrole, c, hc, hprovider, haccount, hfree⟩ := free_of_ranked js hr hbelow
    rw [hresolution]
    refine ⟨⟨fun _ => ⟨c, hc, hfree⟩, fun _ => rfl⟩, hresume, ?_, ?_⟩
    · intro placement hplacement
      obtain rfl := Option.some.inj hplacement
      exact ⟨hrole, c, hc, hprovider, haccount, hfree⟩
    · exact fun hnone => absurd ⟨c, hc, hfree⟩ hnone
  · have hresolution : resolution = .waiting eta why message m ma u ua d := hwaits
    have hnone : ¬ ∃ c ∈ input.candidates, c.Free threshold := by
      rw [hexists]
      exact fun ⟨s, hs, hbelow⟩ => hmaxed s hs hbelow
    rw [hresolution]
    refine ⟨⟨fun hplaced => ?_, fun hfree => absurd hfree hnone⟩, hresume, fun placement hplaced => ?_,
      fun _ => ⟨_, _, _, _, _, _, _, _, rfl⟩⟩
    · cases hplaced
    · cases hplaced

end

/-- A runtime that reads no dates, compares by code points and prints numbers as Lean does. -/
def plainRuntime : Js.Runtime where
  dateParse _ := none
  localeCompare a b := compare a b
  numberText := toString

/-- A seat for which one account is logged out and another half used. -/
def twoAccounts : PlaceAgentInput where
  role := "implementer"
  workSize := .average
  reasoningBudget := .standard
  pins := [("reviewer", { provider := .claude })]
  candidates := [
    { provider := .codex, account := "codex:pro", available := false,
      headroom := .unknown "logged out" },
    { provider := .claude, account := "claude:max", available := true,
      headroom := .known 50 "2026-01-01T00:00:00Z" }]
  nowMs := 0

theorem floating_dispatch_iff_free_of_twoAccounts :
    (resolveDispatch plainRuntime (placeAgent plainRuntime twoAccounts) twoAccounts.candidates
        { nowMs := 0 }).placement?.isSome = true ↔
      ∃ c ∈ twoAccounts.candidates, c.Free MAXED_THRESHOLD_PCT_DEFAULT :=
  (floating_dispatch_iff_free plainRuntime twoAccounts { nowMs := 0 } (by decide +kernel)).1

end Orchestration.Dispatch
