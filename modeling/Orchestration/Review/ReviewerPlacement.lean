import Orchestration.Dispatch.Policy
import Orchestration.Js.Number
import Orchestration.Roles.Events

/-!
# The seat of a reviewer

An agent review is put to a seat of its own, named by a role and the review. The placement of
the seat names the review it is for, so that a repeated trigger finds it again.
-/

namespace Orchestration.Review

open Fallible
open Dispatch (DispatchConfig DispatchResolution PlacementDecided PlacementRecord PlacementTables
  Provider UsageTables readPlacements)

/-! ## Profiles -/

def REVIEWER_PROFILES_CONFIG_KEY : String := "reviewer_profiles"

def DEFAULT_REVIEWER_PROFILES : ReviewScope → String
  | .workerMerge => "reviewer"
  | .phaseMerge => "reviewer"
  | .prMerge => "reviewer:pr"

def malformedProfiles (detail : String) : String :=
  s!"co review: malformed '{REVIEWER_PROFILES_CONFIG_KEY}' config: " ++ detail

/-- A profile names the reviewer, or a sub-role of it that is shipped. -/
def assertValidReviewerProfileRole (scope : ReviewScope) (role : String) : Except String Unit := do
  let trimmed := Js.trimString role
  refuse (trimmed ≠ role ∨ trimmed = "")
    (malformedProfiles (s!"scope '{scope}' must map to a non-empty reviewer role without " ++
      "surrounding whitespace."))
  let parsed := Roles.parseSubRoleId trimmed
  refuse (parsed.1 ≠ "reviewer")
    (malformedProfiles (s!"scope '{scope}' maps to '{role}', but reviewer profiles must use the " ++
      "'reviewer' role."))
  whenSome parsed.2 fun name =>
    refuse ((Roles.findSubRole .reviewer name).isNone = true)
      (malformedProfiles s!"unknown reviewer sub-role '{role}' for scope '{scope}'.")

def REVIEW_SCOPES : List ReviewScope := [.workerMerge, .phaseMerge, .prMerge]

/-- The role that each scope is reviewed by: what the project configures, over the defaults. -/
def resolveReviewerProfiles (raw : Except String (Option (List (String × String)))) :
    Except String (ReviewScope → String) := do
  match ← raw with
  | none => return DEFAULT_REVIEWER_PROFILES
  | some parsed =>
    parsed.forM fun entry =>
      refuse (REVIEW_SCOPES.all fun scope => toString scope != entry.1)
        (malformedProfiles (s!"unknown reviewer_profiles scope '{entry.1}'. Expected one of: " ++
          ", ".intercalate (REVIEW_SCOPES.map toString) ++ "."))
    let profiles (scope : ReviewScope) : String :=
      (parsed.lookup (toString scope)).getD (DEFAULT_REVIEWER_PROFILES scope)
    REVIEW_SCOPES.forM fun scope => assertValidReviewerProfileRole scope (profiles scope)
    return profiles

/-! ## Seats -/

def reviewerSeat (role reviewId : String) : String := s!"{role}@{reviewId}"

def isReviewerRole (role : String) : Bool := role == "reviewer" || "reviewer:".isPrefixOf role

def isReviewerPlacementForReview (agent role reviewId : String) : Bool :=
  agent == reviewerSeat role reviewId && isReviewerRole role

/-- What a review is triggered with. -/
structure ReviewTriggerRequest where
  reviewId : String
  target : String
  branch : String
  requestedBy : String
  scope : Option ReviewScope := none
  projectId : Option String := none
  specRef : Option String := none
deriving DecidableEq, Repr

/-- The placement is for the review, as far as it says. -/
def placementMatchesReview (placement : PlacementRecord) (req : ReviewTriggerRequest)
    (scope : ReviewScope) : Bool :=
  let seat := placement.decided.seat
  seat.reviewId.all (· == req.reviewId) && seat.reviewTarget.all (· == req.target) &&
    seat.reviewBranch.all (· == req.branch) && seat.reviewScope.all (· == scope)

def isPlaced (placement : PlacementRecord) : Bool := placement.decided.kind == "placed"

def isWaiting (placement : PlacementRecord) : Bool := placement.decided.kind == "waiting"

/-- The placements of the review's own seats. -/
def compatibleReviewerPlacements (t : PlacementTables) (req : ReviewTriggerRequest)
    (scope : ReviewScope) : List PlacementRecord :=
  ((readPlacements t).filter fun placement =>
    isReviewerPlacementForReview placement.agent placement.decided.seat.role req.reviewId).filter
      (placementMatchesReview · req scope)

def REVIEWER_WORK_SIZE : Dispatch.WorkSize := .technical

def REVIEWER_REASONING_BUDGET : Dispatch.ReasoningBudget := .standard

/-- The placement of a seat, with the review that it is for. -/
def toReviewerPlacementDecided (role : String) (resolution : DispatchResolution)
    (req : ReviewTriggerRequest) (scope : ReviewScope) : PlacementDecided :=
  let seat : Dispatch.PlacementSeat := {
    role
    workSize := REVIEWER_WORK_SIZE
    reasoningBudget := REVIEWER_REASONING_BUDGET
    reviewId := some req.reviewId
    reviewTarget := some req.target
    reviewBranch := some req.branch
    reviewScope := some scope }
  match resolution with
  | .placed placement _ => .placed seat {
      provider := placement.provider
      account := some placement.account
      model := placement.model
      effort := placement.effort
      context := placement.context }
  | .waiting etaResetAt reason _ maxedProviders maxedAccounts unavailableProviders
      unavailableAccounts _ => .waiting seat {
      etaResetAt
      reason
      maxedProviders
      maxedAccounts
      unavailableProviders
      unavailableAccounts }

/-! ## The decision -/

/-- The configuration that a reviewer is placed by. -/
structure ReviewerConfig where
  dispatch : DispatchConfig
  profiles : Except String (Option (List (String × String)))

/-- What is given to the placement of a reviewer. -/
structure ReviewerPlacer where
  js : Js.Runtime
  config : String → ReviewerConfig
  accounts : List (Provider × String)
  nowMs : Float

/-- What is to be done about the seat of a review. -/
inductive SeatDecision where
  /-- A seat is placed already; its launch is repeated. -/
  | resume (placement : PlacementRecord)
  /-- The seat waits already, and must go on waiting. -/
  | stay
  /-- A new decision about the seat is to be recorded. -/
  | record (seat : String) (placement : PlacementDecided)
deriving DecidableEq, Repr

/-- The role of the seat: the one that waits already, or the one that reviews the scope. -/
def seatRole (config : ReviewerConfig) (scope : ReviewScope)
    (existingWaiting : Option PlacementRecord) : Except String String :=
  match existingWaiting with
  | some placement => return placement.decided.seat.role
  | none => do
    let profiles ← resolveReviewerProfiles config.profiles
    return profiles scope

/-- Decide about the seat of a review: find it, or place it. -/
def decideReviewerSeat (placer : ReviewerPlacer) (usage : UsageTables) (t : PlacementTables)
    (req : ReviewTriggerRequest) (scope : ReviewScope) (projectId : String) :
    Except String SeatDecision := do
  let config := placer.config projectId
  let compatible := compatibleReviewerPlacements t req scope
  match (compatible.filter isPlaced).getLast? with
  | some placed => return .resume placed
  | none =>
    let role ← seatRole config scope (compatible.filter isWaiting).getLast?
    let seat := reviewerSeat role req.reviewId
    let seatPlacements := (readPlacements t seat).filter (placementMatchesReview · req scope)
    match (seatPlacements.filter isPlaced).getLast? with
    | some placed => return .resume placed
    | none =>
      let resolution ← Dispatch.runDispatchPolicy placer.js config.dispatch usage t {
        role
        workSize := REVIEWER_WORK_SIZE
        reasoningBudget := REVIEWER_REASONING_BUDGET
        accounts := placer.accounts
        nowMs := placer.nowMs
        agent := seat }
      let placement := toReviewerPlacementDecided role resolution req scope
      if placement.kind = "waiting" ∧ compatible.any isWaiting = true then return .stay
      else return .record seat placement

/-! ## What a decision says -/

section

variable {placer : ReviewerPlacer} {usage : UsageTables} {t : PlacementTables}
  {req : ReviewTriggerRequest} {scope : ReviewScope} {projectId : String}

/-- What a decision that records a seat has seen. -/
structure Seats (placer : ReviewerPlacer) (t : PlacementTables) (req : ReviewTriggerRequest)
    (scope : ReviewScope) (projectId seat : String) (placement : PlacementDecided) : Prop where
  role : ∃ role resolution, seatRole (placer.config projectId) scope
      ((compatibleReviewerPlacements t req scope).filter isWaiting).getLast? = .ok role ∧
    seat = reviewerSeat role req.reviewId ∧
    placement = toReviewerPlacementDecided role resolution req scope
  unplaced : ∀ p ∈ compatibleReviewerPlacements t req scope, isPlaced p = false
  waiting : placement.kind = "waiting" →
    (compatibleReviewerPlacements t req scope).any isWaiting = false

theorem seats_of_record {seat : String} {placement : PlacementDecided}
    (h : decideReviewerSeat placer usage t req scope projectId = .ok (.record seat placement)) :
    Seats placer t req scope projectId seat placement := by
  simp only [decideReviewerSeat] at h
  split at h
  · cases h
  · next hnone =>
    have hunplaced : ∀ p ∈ compatibleReviewerPlacements t req scope, isPlaced p = false := by
      intro p hp
      rw [List.getLast?_eq_none_iff, List.filter_eq_nil_iff] at hnone
      exact Bool.eq_false_iff.2 (hnone p hp)
    obtain ⟨role, hrole, h⟩ := bind_eq_ok.1 h
    split at h
    · cases h
    · obtain ⟨resolution, -, h⟩ := bind_eq_ok.1 h
      split at h
      · cases h
      · next hstay =>
        cases h
        refine ⟨⟨role, resolution, hrole, rfl, rfl⟩, hunplaced, fun hkind => ?_⟩
        exact Bool.eq_false_iff.2 fun hany => hstay ⟨hkind, hany⟩

/-- A seat has a name. -/
theorem reviewerSeat_ne_empty (role reviewId : String) : reviewerSeat role reviewId ≠ "" := by
  intro h
  have hlist := congrArg String.toList h
  simp [reviewerSeat] at hlist
  exact absurd hlist.2.1 (by decide)

/-- A role whose base is the reviewer's is a reviewer's role. -/
theorem isReviewerRole_of_parse {role : String} (h : (Roles.parseSubRoleId role).1 = "reviewer") :
    isReviewerRole role = true := by
  rw [Roles.parseSubRoleId, List.span_eq_takeWhile_dropWhile] at h
  have hsplit := List.takeWhile_append_dropWhile (p := (· != ':')) (l := role.toList)
  cases hrest : role.toList.dropWhile (· != ':') with
  | nil =>
    rw [hrest] at h
    rw [isReviewerRole, show role = "reviewer" from h]
    rfl
  | cons c rest =>
    -- what stands before the first colon is the base, and the colon follows it
    rw [hrest] at h hsplit
    have hcolon : c = ':' := by
      have hhead := List.head?_dropWhile_not (· != ':') role.toList
      rw [hrest] at hhead
      simpa using hhead
    have hbase : String.ofList (role.toList.takeWhile (· != ':')) = "reviewer" := h
    have hrole : role = "reviewer:" ++ String.ofList rest := by
      apply String.ext
      have hletters : role.toList.takeWhile (· != ':') = "reviewer".toList := by
        rw [← hbase, String.toList_ofList]
      rw [← hsplit, hcolon, hletters]
      simp
    have hprefix : "reviewer:".isPrefixOf ("reviewer:" ++ String.ofList rest) = true := by
      rw [String.isPrefixOf]
      simp
    rw [isReviewerRole, hrole, hprefix, Bool.or_true]

/-- The role that reviews a scope is a reviewer's. -/
theorem isReviewerRole_of_profiles {raw : Except String (Option (List (String × String)))}
    {profiles : ReviewScope → String} (h : resolveReviewerProfiles raw = .ok profiles)
    (scope : ReviewScope) : isReviewerRole (profiles scope) = true := by
  obtain ⟨configured, -, h⟩ := bind_eq_ok.1 h
  cases configured with
  | none =>
    obtain rfl := pure_eq_ok.1 h
    cases scope <;> decide +kernel
  | some parsed =>
    obtain ⟨_, -, h⟩ := bind_eq_ok.1 h
    obtain ⟨_, hvalid, h⟩ := bind_eq_ok.1 h
    obtain rfl := pure_eq_ok.1 h
    have hscope : assertValidReviewerProfileRole scope
        ((parsed.lookup (toString scope)).getD (DEFAULT_REVIEWER_PROFILES scope)) = .ok () := by
      simp only [REVIEW_SCOPES, List.forM_eq_forM, List.forM_cons, List.forM_nil, bind_eq_ok]
        at hvalid
      obtain ⟨_, hworker, _, hphase, _, hpr, -⟩ := hvalid
      cases scope with
      | workerMerge => exact hworker
      | phaseMerge => exact hphase
      | prMerge => exact hpr
    simp only [assertValidReviewerProfileRole, bind_eq_ok, refuse_eq_ok, not_or, not_not] at hscope
    obtain ⟨_, ⟨htrimmed, -⟩, _, hbase, -⟩ := hscope
    rw [htrimmed] at hbase
    exact isReviewerRole_of_parse hbase

/-- A seat that is recorded is a reviewer's, and the review's own. -/
theorem reviewer_of_record {seat : String} {placement : PlacementDecided}
    (h : decideReviewerSeat placer usage t req scope projectId = .ok (.record seat placement)) :
    isReviewerPlacementForReview seat placement.seat.role req.reviewId = true := by
  obtain ⟨role, resolution, hrole, rfl, rfl⟩ := (seats_of_record h).role
  have hseat : (toReviewerPlacementDecided role resolution req scope).seat.role = role := by
    cases resolution <;> rfl
  rw [isReviewerPlacementForReview, hseat, beq_self_eq_true, Bool.true_and]
  unfold seatRole at hrole
  split at hrole
  · next waiting hwaiting =>
    obtain rfl := pure_eq_ok.1 hrole
    have hmem := List.mem_of_mem_filter (List.mem_of_getLast? hwaiting)
    have hseats := List.of_mem_filter (List.mem_of_mem_filter hmem)
    exact (Bool.and_eq_true_iff.1 hseats).2
  · obtain ⟨profiles, hprofiles, hpure⟩ := bind_eq_ok.1 hrole
    obtain rfl := pure_eq_ok.1 hpure
    exact isReviewerRole_of_profiles hprofiles scope

end

end Orchestration.Review
