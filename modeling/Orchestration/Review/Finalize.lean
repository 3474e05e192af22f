import Orchestration.Issues.FileTool
import Orchestration.Library.Run
import Orchestration.Review.Trigger

/-!
# `co_review_finalize`

The assigned reviewer records its verdict, and the owner of the gate is woken by one mail
under a key that names the review. The mail is sent after the verdict is recorded: a call that
fails between the two leaves a verdict behind that no later call is let past.
-/

namespace Orchestration.Review

open Fallible Transaction
open Transaction.Proc (unlessFault)
open Dispatch (PlacementRecord PlacementTables readPlacements)
open Issues (assertToolCallerRole)
open Mail (Delivery MailEnvelope)

/-! ## The call -/

/-- What the mount gives the tool, and the profiles that the project configures. -/
structure FinalizeContext where
  agent : String
  reviews : Bool := true
  roster : Bool := true
  dispatch : Bool := true
  delivery : Delivery
  profiles : Except String (Option (List (String × String)))

structure ReviewFinalizeInput where
  target : String
  branch : String
  scope : Option ReviewScope := none
  reviewId : String
  verdict : Verdict
  blockers : List Blocker
  suggestions : List Suggestion
  verification : Option VerificationMarker := none
deriving DecidableEq, Repr

structure ReviewFinalizeOutput where
  reviewId : String
  verdict : Verdict
  recorded : Bool
deriving DecidableEq, Repr

/-- The faults that strike a call from outside of the program; a killed process is a fault after
which nothing runs. -/
structure FinalizeFaults where
  checks : Option String := none
  record : Option String := none
  readBack : Option String := none
  wake : Option String := none
deriving DecidableEq, Repr

/-! ## The checks -/

/-- The placement is for the request, as far as it says. -/
def placementMatchesRequest (placement : PlacementRecord) (request : ReviewRequestRecord) : Bool :=
  let seat := placement.decided.seat
  seat.reviewId.all (· == request.reviewId) && seat.reviewTarget.all (· == request.target) &&
    seat.reviewBranch.all (· == request.branch) && seat.reviewScope.all (· == request.scope)

/-- The seat that the review was placed in, where a dispatch store is wired. -/
def expectedReviewerFromPlacement (dispatch : Bool) (t : PlacementTables)
    (request : ReviewRequestRecord) : Except String (Option String) := do
  if !dispatch then return none
  let reviewId := request.reviewId
  let found := (readPlacements t).filter fun placement =>
    isReviewerPlacementForReview placement.agent placement.decided.seat.role reviewId
  refuse (found.isEmpty = true)
    (s!"co_review_finalize: refused — no recorded reviewer placement exists for review_id " ++
      s!"'{reviewId}'.")
  let compatible := found.filter (placementMatchesRequest · request)
  refuse (compatible.isEmpty = true)
    (s!"co_review_finalize: refused — recorded reviewer placement for review_id '{reviewId}' " ++
      "does not match the current review request target/branch/scope.")
  let placed ← orThrow (compatible.filter isPlaced).getLast?
    (s!"co_review_finalize: refused — reviewer placement for review_id '{reviewId}' is waiting " ++
      "and has not been placed yet.")
  return some placed.agent

/-- The reviewer that the verdict is expected of. -/
def expectedReviewer (ctx : FinalizeContext) (t : PlacementTables)
    (request : ReviewRequestRecord) : Except String String := do
  match ← expectedReviewerFromPlacement ctx.dispatch t request with
  | some reviewer => return reviewer
  | none =>
    let profiles ← resolveReviewerProfiles ctx.profiles
    return reviewerSeat (profiles request.scope) request.reviewId

/-- All that is checked before the verdict is recorded; the request that it answers. -/
def finalizeChecks (ctx : FinalizeContext) (input : ReviewFinalizeInput) (db : Db) :
    Except String ReviewRequestRecord := do
  refuse (ctx.reviews = false)
    "co_review_finalize: the mount did not inject a review store (ctx.reviews absent)."
  refuse (ctx.roster = false)
    "co_review_finalize: the mount did not inject a roster store (ctx.roster absent)."
  assertToolCallerRole "co_review_finalize" db.roster ctx.agent [.reviewer]
  let request ← orThrow (selectReviewRequest db.review input.target input.branch)
    (s!"co_review_finalize: refused — no matching review request exists for " ++
      s!"'{input.branch}' into '{input.target}' with review_id '{input.reviewId}'.")
  refuse (request.reviewId ≠ input.reviewId)
    (s!"co_review_finalize: refused — your review_id '{input.reviewId}' was superseded by a " ++
      s!"newer review request '{request.reviewId}' for '{input.branch}' into '{input.target}'; " ++
      "this reviewer seat is stale and its verdict cannot be recorded. The coordinator must " ++
      s!"re-place the reviewer under '{request.reviewId}'.")
  let scope := input.scope.getD request.scope
  refuse (scope ≠ request.scope)
    (s!"co_review_finalize: refused — verdict scope '{scope}' does not match requested " ++
      s!"scope '{request.scope}'.")
  refuse (request.reviewerKind = .human)
    (s!"co_review_finalize: refused — review_id '{request.reviewId}' is routed to human " ++
      "review; record the verdict through the operator Review view.")
  let expected ← expectedReviewer ctx db.placement request
  refuse (ctx.agent ≠ expected)
    (s!"co_review_finalize: refused — assigned reviewer for review_id '{request.reviewId}' is " ++
      s!"'{expected}', not '{ctx.agent}'.")
  assertValidVerdict input.verdict input.blockers
  refuse (input.verdict = .pass ∧ input.verification = none)
    ("co_review_finalize: a PASS verdict requires a verification marker (AC-L5-3 — " ++
      "PASS-without-marker rejected; the gate re-derives the truth from baseline/finish events).")
  return request

/-! ## The verdict and the wake -/

/-- The verdict as it is to be recorded. -/
def recordedVerdict (ctx : FinalizeContext) (input : ReviewFinalizeInput) (scope : ReviewScope) :
    ReviewVerdictRecorded where
  reviewId := input.reviewId
  target := input.target
  branch := input.branch
  scope := some scope
  reviewer := ctx.agent
  verdict := input.verdict
  blockers := input.blockers
  suggestions := input.suggestions
  verification := input.verification

/-- The recorded verdict as a read returns it. -/
def getVerdict (target branch : String) (scope : ReviewScope) :
    StoreProc (Option ReviewVerdictRecord) :=
  transaction do
    ensureReviewTables
    reading (selectVerdict · target branch (some scope))

def recordIssuesVerdictAndRelease (faults : FinalizeFaults) (v : ReviewVerdictRecorded)
    (scope : ReviewScope) : StoreProc ReviewVerdictRecord := do
  unlessFault faults.record (transaction (recordVerdictAndRelease v))
  let row ← unlessFault faults.readBack (getVerdict v.target v.branch scope)
  orThrow row
    (s!"co_review_finalize: verdict row missing after atomic ISSUES record for " ++
      s!"'{v.branch}' into '{v.target}'.")

/-- Record the verdict; one that found issues gives the merge slot back. -/
def recordFinal (faults : FinalizeFaults) (v : ReviewVerdictRecorded) (scope : ReviewScope) :
    StoreProc ReviewVerdictRecord :=
  match v.verdict with
  | .issues => recordIssuesVerdictAndRelease faults v scope
  | .pass => unlessFault faults.record (transaction (recordVerdict v))

/-- The key of the wake of a review. -/
def reviewVerdictWakeKey (reviewId : String) : String := "review-verdict-wake:" ++ reviewId

def verdictDirective (verdict : Verdict) (input : ReviewFinalizeInput) : String :=
  match verdict with
  | .pass =>
    s!"PASS recorded — re-call co_merge for '{input.branch}' into '{input.target}' to publish."
  | .issues =>
    s!"ISSUES recorded — address the named blockers (or kick back to the worker) for " ++
      s!"'{input.branch}' into '{input.target}'; the branch was released."

/-- The mail that wakes the owner of the gate. -/
def wakeEnvelope (ctx : FinalizeContext) (input : ReviewFinalizeInput)
    (request : ReviewRequestRecord) (record : ReviewVerdictRecord) (scope : ReviewScope) :
    MailEnvelope where
  type := .workerDone
  «to» := request.requestedBy
  «from» := ctx.agent
  subject := s!"review {record.verdict}: {input.branch} into {input.target}"
  body := s!"{verdictDirective record.verdict input} (review_id '{record.reviewId}', " ++
    s!"scope '{scope}', reviewer '{ctx.agent}')."
  idempotencyKey := some (reviewVerdictWakeKey record.reviewId)

def reviewFinalizeTool (ctx : FinalizeContext) (faults : FinalizeFaults)
    (input : ReviewFinalizeInput) : StoreProc ReviewFinalizeOutput := do
  let db ← unlessFault faults.checks snapshot
  let request ← finalizeChecks ctx input db
  let scope := input.scope.getD request.scope
  let record ← recordFinal faults (recordedVerdict ctx input scope) scope
  let _ ← unlessFault faults.wake
    (Mail.MailStore.send ctx.delivery (wakeEnvelope ctx input request record scope))
  return { reviewId := record.reviewId, verdict := record.verdict, recorded := true }

end Orchestration.Review
