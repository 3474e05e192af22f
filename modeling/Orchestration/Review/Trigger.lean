import Orchestration.Dispatch.Store
import Orchestration.Library.Cleanup
import Orchestration.Mail.Store
import Orchestration.Review.ReviewerPlacement
import Orchestration.Session.StartCoordinator

/-!
# Triggering a review

A trigger opens the review of a branch: under the merge slot of the target it finds or places
the seat of the reviewer, records the request, mails the kickoff and launches the seat. A
review that waits for a seat is driven again later. Of a failed trigger the slot is given back,
unless the request is recorded already.
-/

namespace Orchestration.Review

open Fallible Transaction
open Transaction.Proc (onError unlessFault when)
open Mail (Delivery MailEnvelope OPERATOR)
open Dispatch (PlacementDecided PlacementRecord readPlacements recordPlacement
  recordPlacementWithReviewRequest)

/-! ## What a trigger is given -/

structure ReviewTriggerDeps where
  mail : Option Delivery := none
  /-- A dispatch store is wired. -/
  dispatch : Bool
  /-- A gate is wired that launches a placed reviewer. -/
  reviewerSpawnGate : Bool
  placer : ReviewerPlacer
  /-- Who reviews a scope of a project, as the config store resolves it. -/
  reviewerKind : String → ReviewScope → Except String ReviewerKind
  /-- Whether the spec of a task is locked, where a spec store is wired. -/
  lockedSpec : Option (String → Bool) := none

/-- The faults that strike a trigger from outside of the program. -/
structure TriggerFaults where
  checks : Option String := none
  acquire : Option String := none
  openConfig : Option String := none
  record : Option String := none
  kickoff : Option String := none
  closeConfig : Option String := none
  recheck : Option String := none
  release : Option String := none
deriving DecidableEq, Repr

/-- The launch of a placed seat, and the project at the moment. -/
structure Launch where
  projectId : String
  placement : PlacementRecord
  reviewId : String
  db : Db

/-- The project, and all that was launched in it. -/
structure Reviewing where
  db : Db
  launches : List Launch := []

abbrev TriggerProc (α : Type) := Proc Reviewing String α

namespace TriggerProc

/-- A procedure of the stores. -/
def onStores {α : Type} (p : StoreProc α) : TriggerProc α :=
  p.on Reviewing.db fun db s => { s with db }

end TriggerProc

open TriggerProc (onStores)

/-- The project as the checks read it. A call waits for nobody, so its reads see one state. -/
def snapshot : StoreProc Db :=
  transaction do
    ensureReviewTables
    get

structure ReviewTriggerResult where
  reviewId : String
  target : String
  branch : String
  requestedTs : ℕ
deriving DecidableEq, Repr

def reviewTriggerResultFromRecord (rec : ReviewRequestRecord) : ReviewTriggerResult where
  reviewId := rec.reviewId
  target := rec.target
  branch := rec.branch
  requestedTs := rec.requestedTs

/-! ## Spec references -/

def resolveReviewSpecRef (specRef : Option String) : ReviewSpecRef :=
  match specRef.map Js.trimString with
  | none | some "" => .noLockedSpec
  | some ref => .criteria ref

/-- The task of `spec:<taskId>#locked`. -/
def taskIdFromLockedSpecRef (specRef : String) : Option String := do
  let rest ← afterPrefix? "spec:" (Js.trimString specRef)
  let suffix := "#locked".toList
  let taskId := rest.toList.take (rest.toList.length - suffix.length)
  if suffix.isSuffixOf rest.toList ∧ taskId ≠ [] ∧ '#' ∉ taskId then some (String.ofList taskId)
  else none

/-- Only a locked spec gives criteria that can be shown. -/
def resolveReviewSpecRefFromStore (lockedSpec : String → Bool) (specRef : Option String) :
    ReviewSpecRef :=
  match specRef.bind taskIdFromLockedSpecRef with
  | some taskId => if lockedSpec taskId then .criteria s!"spec:{taskId}#locked" else .noLockedSpec
  | none => .noLockedSpec

/-! ## The checks -/

section

variable (deps : ReviewTriggerDeps) (req : ReviewTriggerRequest)

def ReviewTriggerRequest.reviewScope : ReviewScope := req.scope.getD .workerMerge

def requestSpecRef (reviewerKind : ReviewerKind) : ReviewSpecRef :=
  match reviewerKind, deps.lockedSpec with
  | .agent, _ => resolveReviewSpecRef req.specRef
  | .human, some lockedSpec => resolveReviewSpecRefFromStore lockedSpec req.specRef
  | .human, none => .noLockedSpec

def assertHumanReviewHasCriteria (reviewerKind : ReviewerKind) (specRef : ReviewSpecRef) :
    Except String Unit :=
  refuse (reviewerKind = .human ∧ specRef.kind ≠ .criteria)
    (s!"co review: refused — human review of '{req.branch}' into '{req.target}' requires locked " ++
      "acceptance criteria. Pass spec_ref as `spec:<taskId>#locked` so the Review view can " ++
      "display evidence before PASS or ISSUES.")

def assertLiveAgentReviewCanDispatch (reviewerKind : ReviewerKind) : Except String Unit :=
  refuse (req.projectId.isSome = true ∧ reviewerKind = .agent ∧ deps.reviewerSpawnGate = true ∧
      deps.dispatch = false)
    (s!"co review: refused — dispatch store is required for live agent review " ++
      s!"'{req.reviewId}' of '{req.branch}' into '{req.target}'. Without a dispatch placement, " ++
      "co cannot launch an actionable reviewer turn (Principle 9 — no silent drop).")

/-- A human is asked by mail. -/
def assertMailForHuman : Except String Unit :=
  refuse (deps.mail.isNone = true)
    (s!"co review: refused — a human review of '{req.branch}' into '{req.target}' was " ++
      "requested but no mail store is wired. The human path delivers an actionable " ++
      "review_request to @operator; without mail it cannot be requested (Principle 9 — " ++
      "no silent drop).")

/-- The request as it is recorded. -/
def reviewRequested (reviewerKind : ReviewerKind) (specRef : ReviewSpecRef) : ReviewRequested where
  reviewId := req.reviewId
  target := req.target
  branch := req.branch
  scope := some req.reviewScope
  reviewerKind := some reviewerKind
  requestedBy := req.requestedBy
  specRefKind := some specRef.kind
  specRefRef := specRef.ref

/-- How a trigger that passed its checks goes on. -/
inductive TriggerPath where
  /-- The review is there already, and nothing is left to do for it. -/
  | settled (existing : ReviewRequestRecord)
  /-- A human is asked, or reminded. -/
  | human (requested : ReviewRequested)
  /-- The review is there already, and its seat is looked after. -/
  | seat (existing : ReviewRequestRecord) (projectId : String)
  /-- The review is opened under the slot. -/
  | fresh (requested : ReviewRequested)
deriving DecidableEq, Repr

/-- A repeated trigger agrees with the review that is there. -/
def assertSameTrigger (existing : ReviewRequestRecord) : Except String Unit := do
  let conflict (field stored incoming : String) : String :=
    s!"co review: duplicate reviewId '{req.reviewId}' for '{req.branch}' into '{req.target}' " ++
      s!"conflicts on {field}: stored '{stored}', requested '{incoming}'."
  refuse (existing.scope ≠ req.reviewScope)
    (conflict "scope" (toString existing.scope) (toString req.reviewScope))
  refuse (existing.requestedBy ≠ req.requestedBy)
    (conflict "requestedBy" existing.requestedBy req.requestedBy)
  let specRef := requestSpecRef deps req existing.reviewerKind
  refuse (existing.specRef ≠ specRef)
    (conflict "specRef" (specRefText existing.specRef.kind existing.specRef.ref)
      (specRefText specRef.kind specRef.ref))
  assertHumanReviewHasCriteria req existing.reviewerKind existing.specRef

/-- A trigger of the review that is there. -/
def repeatedTrigger (db : Db) (existing : ReviewRequestRecord) : Except String TriggerPath := do
  assertSameTrigger deps req existing
  let existingVerdict := selectVerdict db.review req.target req.branch existing.scope
  if existingVerdict.any (·.reviewId == existing.reviewId) = true then return .settled existing
  else
    assertLiveAgentReviewCanDispatch deps req existing.reviewerKind
    match req.projectId, existing.reviewerKind with
    | some _, .human =>
      assertMailForHuman deps req
      return .human (reviewRequested req .human (requestSpecRef deps req .human))
    | some projectId, .agent =>
      let active := activeSerializedFromEvents db req.target
      let holder := active.getD "<none>"
      refuse (active ≠ some req.branch)
        (s!"co review: refused — existing review request '{existing.reviewId}' for " ++
          s!"'{req.branch}' into '{req.target}' is stale; active reviewer/merge is '{holder}'.")
      return .seat existing projectId
    | none, _ => return .settled existing

/-- The branch has no other review that is still open. -/
def assertNoPendingReview (db : Db) (existing : Option ReviewRequestRecord) : Except String Unit :=
  whenSome existing fun existing =>
    let existingVerdict := selectVerdict db.review req.target req.branch existing.scope
    refuse (existingVerdict.all (·.reviewId != existing.reviewId) = true)
      (s!"co review: refused — '{req.branch}' into '{req.target}' already has pending active " ++
        s!"review request '{existing.reviewId}'. Resolve it before requesting new reviewId " ++
        s!"'{req.reviewId}'.")

/-- Who reviews; without a project an agent does. -/
def resolveKind : Except String ReviewerKind :=
  match req.projectId with
  | none => return .agent
  | some projectId => deps.reviewerKind projectId req.reviewScope

/-- The check of the store that the id of the review is not taken. -/
def assertReviewIdAvailable (db : Db) : Except String Unit :=
  (assertReviewIdAvailableInDb req.reviewId req.target req.branch db).map fun _ => ()

/-- A trigger of a new review. -/
def freshTrigger (db : Db) (existing : Option ReviewRequestRecord) : Except String TriggerPath := do
  assertNoPendingReview req db existing
  let reviewerKind ← resolveKind deps req
  let specRef := requestSpecRef deps req reviewerKind
  assertHumanReviewHasCriteria req reviewerKind specRef
  assertLiveAgentReviewCanDispatch deps req reviewerKind
  let requested := reviewRequested req reviewerKind specRef
  match reviewerKind with
  | .human => do
    assertMailForHuman deps req
    assertReviewIdAvailable req db
    return .human requested
  | .agent => do
    assertReviewIdAvailable req db
    return .fresh requested

/-- All that a trigger checks before it writes anything. -/
def triggerChecks (db : Db) : Except String TriggerPath :=
  let existing := selectReviewRequest db.review req.target req.branch
  match existing.filter (·.reviewId == req.reviewId) with
  | some existing => repeatedTrigger deps req db existing
  | none => freshTrigger deps req db existing

end

/-! ## The seat -/

section

variable (deps : ReviewTriggerDeps) (faults : TriggerFaults) (req : ReviewTriggerRequest)

/-- The kickoff of a reviewer. -/
def reviewerKickoff (agentId : String) (scope : ReviewScope) : MailEnvelope where
  type := .clarifyRequest
  «to» := agentId
  «from» := req.requestedBy
  subject := s!"Review requested: '{req.branch}' into '{req.target}'"
  body := s!"Review '{req.reviewId}' is assigned to you. Inspect branch '{req.branch}' for " ++
    s!"target '{req.target}' under scope '{scope}', then record your verdict with " ++
    s!"co_review_finalize using review_id '{req.reviewId}', target '{req.target}', branch " ++
    s!"'{req.branch}', and scope '{scope}'. PASS requires a verification marker; ISSUES " ++
    "requires at least one named blocker. A mailed PASS is not a recorded verdict."
  correlationId := some (Session.turnKickoffCorrelationId agentId)
  idempotencyKey := some s!"reviewer-kickoff:{req.reviewId}"

def seedReviewerKickoff (agentId : String) (scope : ReviewScope) : TriggerProc Unit :=
  match deps.mail with
  | none => return
  | some delivery => onStores (unlessFault faults.kickoff do
      let _ ← Mail.MailStore.send delivery (reviewerKickoff req agentId scope))

/-- A launch that fails does so later. -/
def fireSpawn (projectId : String) (placement : PlacementRecord) : TriggerProc Unit := fun s =>
  (.ok (), { s with launches := s.launches ++ [⟨projectId, placement, req.reviewId, s.db⟩] })

/-- Mail the kickoff of a placed seat and launch it, where something is wired to launch it. -/
def launchSeat (scope : ReviewScope) (projectId : String) (placement : PlacementRecord) :
    TriggerProc Unit :=
  when deps.reviewerSpawnGate do
    seedReviewerKickoff deps faults req placement.agent scope
    fireSpawn req projectId placement

/-- Record a decision about the seat, with the request that it opens. -/
def recordSeat (scope : ReviewScope) (projectId seat : String) (placement : PlacementDecided)
    (request : Option ReviewRequested) : TriggerProc (Option ReviewRequestRecord) :=
  match request with
  | some requested => do
    let (record, opened) ← onStores (unlessFault faults.record
      (transaction (recordPlacementWithReviewRequest seat placement requested)))
    when (placement.kind == "placed") (launchSeat deps faults req scope projectId record)
    return some opened
  | none => do
    let record ← onStores (unlessFault faults.record (transaction (recordPlacement seat placement)))
    when (placement.kind == "placed") (launchSeat deps faults req scope projectId record)
    return none

/-- What a decision about the seat leads to. -/
def followSeat (scope : ReviewScope) (projectId : String) (request : Option ReviewRequested)
    (decision : SeatDecision) : TriggerProc (Option ReviewRequestRecord) :=
  match decision with
  | .resume placement => do
    launchSeat deps faults req scope projectId placement
    return none
  | .stay => return none
  | .record seat placement => recordSeat deps faults req scope projectId seat placement request

/-- Find or place the seat of an agent review. -/
def recordReviewerPlacement (scope : ReviewScope) (projectId : String)
    (request : Option ReviewRequested) : TriggerProc (Option ReviewRequestRecord) :=
  if deps.dispatch then do
    let db ← onStores (transaction get)
    let decision ← decideReviewerSeat deps.placer db.usage db.placement req scope projectId
    followSeat deps faults req scope projectId request decision
  else return none

/-- Run with the config store open; it is closed in any case. -/
def withConfig {α : Type} (p : TriggerProc α) : TriggerProc α := do
  unlessFault faults.openConfig (pure ())
  let a ← onError p (unlessFault faults.closeConfig (pure ()))
  unlessFault faults.closeConfig (pure ())
  return a

end

/-! ## The trigger -/

section

variable (deps : ReviewTriggerDeps) (faults : TriggerFaults) (req : ReviewTriggerRequest)

/-- The mail that asks a human for a review. -/
def reviewRequestEnvelope : MailEnvelope where
  type := .reviewRequest
  «to» := OPERATOR
  «from» := req.requestedBy
  subject := s!"review requested: '{req.branch}' into '{req.target}'"
  body := s!"A human review has been requested for '{req.branch}' into '{req.target}' " ++
    s!"(scope: {req.reviewScope}, reviewId: {req.reviewId}). Open the Reviews view to inspect " ++
    "the diff and locked acceptance criteria, then submit PASS or ISSUES to re-enter the gate."
  idempotencyKey := some (Mail.reviewRequestIdempotencyKey req.reviewId)

/-- The slot of the target, for the branch. -/
def ReviewTriggerRequest.slot : MergeSerialized where
  target := req.target
  branch := req.branch

def recordRequest (requested : ReviewRequested) : TriggerProc ReviewTriggerResult := do
  let rec_ ← onStores (unlessFault faults.record (transaction (recordReviewRequested requested)))
  return reviewTriggerResultFromRecord rec_

/-- What is done under the slot. -/
def openUnderSlot (requested : ReviewRequested) : TriggerProc ReviewTriggerResult :=
  match req.projectId with
  | none => recordRequest faults requested
  | some projectId => do
    let recorded ← withConfig faults
      (recordReviewerPlacement deps faults req req.reviewScope projectId (some requested))
    match recorded with
    | some opened => return reviewTriggerResultFromRecord opened
    | none => recordRequest faults requested

/-- The request of the review is recorded. -/
def requestPersisted (db : Db) : Bool :=
  (selectReviewRequest db.review req.target req.branch).any (·.reviewId == req.reviewId)

/-- Give back the slot that the call took for a review that it could not open. -/
def restoreSlot (slot : MergeSlotResult) : TriggerProc Unit := do
  let db ← onStores (unlessFault faults.recheck snapshot)
  when (slot.fresh && !requestPersisted req db &&
      activeSerializedFromEvents db req.target == some req.branch)
    (onStores (unlessFault faults.release (transaction (releaseSerialized req.slot))))

/-- Open a new review. -/
def openReview (requested : ReviewRequested) : TriggerProc ReviewTriggerResult := do
  let slot ← onStores (unlessFault faults.acquire (transaction (acquireSerialized req.slot)))
  refuse (slot.acquired = false)
    (s!"co review: refused — '{slot.active}' is the active reviewer/merge for '{req.target}'. " ++
      "Reviews into a target serialize (AC-L5-7) — wait for it to resolve, then re-review " ++
      "against the new target base.")
  onError (openUnderSlot deps faults req requested) (restoreSlot faults req slot)

/-- Follow the path that the checks found. -/
def followPath (path : TriggerPath) : TriggerProc ReviewTriggerResult :=
  match path with
  | .settled existing => return reviewTriggerResultFromRecord existing
  | .human requested => do
    let (_, asked) ← onStores (unlessFault faults.record
      (Mail.MailStore.requestHumanReview (reviewRequestEnvelope req) requested))
    return reviewTriggerResultFromRecord asked
  | .seat existing projectId => do
    let _ ← withConfig faults
      (recordReviewerPlacement deps faults req req.reviewScope projectId none)
    return reviewTriggerResultFromRecord existing
  | .fresh requested => openReview deps faults req requested

/-- Trigger a review. -/
def triggerReview : TriggerProc ReviewTriggerResult := do
  let db ← onStores (unlessFault faults.checks snapshot)
  let path ← triggerChecks deps req db
  followPath deps faults req path

end

/-! ## Driving a waiting review -/

inductive RedriveReviewerOutcome where
  | launched (agent : String) (reason : Option String)
  | stillWaiting (agent : Option String) (reason : String)
  | noOp (agent : Option String) (reason : String)
deriving DecidableEq, Repr

section

variable (deps : ReviewTriggerDeps) (faults : TriggerFaults) (reviewId projectId : String)
  (retryPlaced : Bool)

/-- The trigger that a recorded review stands for. -/
def redriveRequest (request : ReviewRequestRecord) : ReviewTriggerRequest where
  reviewId := request.reviewId
  target := request.target
  branch := request.branch
  requestedBy := request.requestedBy
  scope := some request.scope
  projectId := some projectId
  specRef :=
    match request.specRef with
    | .criteria ref => some s!"criteria:{ref}"
    | .noLockedSpec => none

/-- The placed seats of a review. -/
def placedSeats (db : Db) : List PlacementRecord :=
  (readPlacements db.placement).filter fun placement =>
    isReviewerPlacementForReview placement.agent placement.decided.seat.role reviewId &&
      isPlaced placement

/-- What keeps a review from being driven, if anything does. -/
def redriveGuards (db : Db) : ReviewRequestRecord ⊕ String :=
  if deps.dispatch then
    match selectReviewRequestById db.review reviewId with
    | none => .inr s!"no review request recorded for reviewId '{reviewId}'"
    | some request =>
      if request.reviewerKind ≠ .agent then
        .inr s!"review '{reviewId}' is a human review (no reviewer seat)"
      else if (selectVerdict db.review request.target request.branch request.scope).any
          (·.reviewId == reviewId) then
        .inr s!"review '{reviewId}' already has a recorded verdict"
      else if activeSerializedFromEvents db request.target ≠ some request.branch then
        .inr (s!"'{request.branch}' is no longer the active-serialized branch for " ++
          s!"'{request.target}'")
      else .inl request
  else .inr "no dispatch store wired"

/-- Decide about the waiting seat once more, and say what came of it. -/
def redecide (db : Db) (request : ReviewRequestRecord) (seatPlacements : List PlacementRecord) :
    TriggerProc RedriveReviewerOutcome := do
  let _ ← withConfig faults
    (recordReviewerPlacement deps faults (redriveRequest projectId request) request.scope projectId
      none)
  let after ← onStores (transaction get)
  return match (placedSeats reviewId after).drop (placedSeats reviewId db).length |>.getLast? with
    | some placed => .launched placed.agent none
    | none => .stillWaiting (seatPlacements.head?.map (·.agent))
        (s!"reviewer placement for '{reviewId}' re-resolved to waiting (still at capacity)")

/-- Drive a review whose guards let it pass. -/
def driveSeat (db : Db) (request : ReviewRequestRecord) : TriggerProc RedriveReviewerOutcome :=
  let req := redriveRequest projectId request
  let seatPlacements :=
    ((readPlacements db.placement).filter fun placement =>
      isReviewerPlacementForReview placement.agent placement.decided.seat.role reviewId).filter
        (placementMatchesReview · req request.scope)
  match seatPlacements.find? isPlaced with
  | some alreadyPlaced =>
    if retryPlaced && deps.reviewerSpawnGate then do
      launchSeat deps faults req request.scope projectId alreadyPlaced
      return .launched alreadyPlaced.agent
        (some s!"reviewer seat '{alreadyPlaced.agent}' already placed; spawn retried")
    else
      return .noOp (some alreadyPlaced.agent)
        (s!"reviewer seat '{alreadyPlaced.agent}' already placed (already redriven)")
  | none =>
    if seatPlacements.any isWaiting then
      redecide deps faults reviewId projectId db request seatPlacements
    else return .noOp none (s!"no waiting reviewer seat recorded for review '{reviewId}'")

/-- Drive a review again that waits for its seat. -/
def redriveWaitingReviewer : TriggerProc RedriveReviewerOutcome := do
  let db ← onStores (unlessFault faults.checks snapshot)
  match redriveGuards deps reviewId db with
  | .inr reason => return .noOp none reason
  | .inl request => driveSeat deps faults reviewId projectId retryPlaced db request

end

end Orchestration.Review
