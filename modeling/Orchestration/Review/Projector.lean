import Orchestration.Library.Table
import Orchestration.Review.Events

/-!
# The review read model

One row for each branch under review into a target, gathering the five kinds of
review event. Each event touches the columns it owns: a request clears the
verdict, a verdict that is not for the latest request is refused, and a `PASS`
resets the visible strikes.
-/

namespace Orchestration.Review

open Fallible

/-- A row of `reviews`. -/
structure ReviewRow where
  target : String
  branch : String
  scope : ReviewScope := .workerMerge
  reviewId : Option String := none
  verdict : Option Verdict := none
  blockers : Option (List Blocker) := none
  suggestions : Option (List Suggestion) := none
  verification : Option VerificationMarker := none
  reviewer : Option String := none
  verdictTs : Option ℕ := none
  verdictSeq : Option ℕ := none
  reviewerKind : Option ReviewerKind := none
  requestedBy : Option String := none
  requestedTs : Option ℕ := none
  strikes : ℕ := 0
  serialized : Bool := false
  overridden : Bool := false
  overrideReason : Option String := none
  overrideBy : Option String := none
  overrideVerificationFailures : Option (List String) := none
  specRefKind : Option SpecRefKind := none
  specRefRef : Option String := none
deriving DecidableEq, Repr

/-- The primary key of `reviews`. -/
def ReviewRow.key (row : ReviewRow) : String × String := (row.target, row.branch)

/-- A row of `review_strikes`: a review that has consumed its strike. -/
structure StrikeRow where
  target : String
  branch : String
  reviewId : String
deriving DecidableEq, Repr

/-- A row of `review_request_ids`: the pair a requested review belongs to. -/
structure RequestIdRow where
  reviewId : String
  target : String
  branch : String
deriving DecidableEq, Repr

structure ReviewTables where
  reviews : Table ReviewRow.key := {}
  reviewStrikes : Table (id : StrikeRow → StrikeRow) := {}
  reviewRequestIds : Table RequestIdRow.reviewId := {}

/-! ## Reads -/

/-- The verdict columns of a row, as a read maps them back. -/
def rowToReviewVerdictRecord (row : ReviewRow) (verdict : Verdict) : ReviewVerdictRecord where
  reviewId := row.reviewId.getD "null"
  target := row.target
  branch := row.branch
  scope := row.scope
  reviewer := row.reviewer.getD "null"
  verdict
  blockers := row.blockers.getD []
  suggestions := row.suggestions.getD []
  verification := row.verification
  recordedTs := row.verdictTs.getD 0
  recordedSeq := row.verdictSeq

def rowToSpecRef (row : ReviewRow) : ReviewSpecRef :=
  match row.specRefKind, row.specRefRef with
  | some .criteria, some ref => .criteria ref
  | _, _ => .noLockedSpec

/-- The request columns of a row, as a read maps them back. -/
def rowToReviewRequestRecord (row : ReviewRow) (requestedTs : ℕ) : ReviewRequestRecord where
  reviewId := row.reviewId.getD "null"
  target := row.target
  branch := row.branch
  scope := row.scope
  reviewerKind := row.reviewerKind.getD .agent
  requestedBy := row.requestedBy.getD "null"
  requestedTs
  specRef := rowToSpecRef row

/-- The latest recorded verdict for `branch` on `target`, in `scope` when one is given. -/
def selectVerdict (t : ReviewTables) (target branch : String) (scope : Option ReviewScope) :
    Option ReviewVerdictRecord := do
  let row ← t.reviews.find? (target, branch)
  let verdict ← row.verdict
  if scope = none ∨ scope = some row.scope then some (rowToReviewVerdictRecord row verdict)
  else none

/-- The latest review request for `branch` on `target`. -/
def selectReviewRequest (t : ReviewTables) (target branch : String) :
    Option ReviewRequestRecord := do
  let row ← t.reviews.find? (target, branch)
  let requestedTs ← row.requestedTs
  some (rowToReviewRequestRecord row requestedTs)

/-- Whether the review has consumed its strike. -/
def selectReviewStrike (t : ReviewTables) (target branch reviewId : String) : Bool :=
  (t.reviewStrikes.find? ⟨target, branch, reviewId⟩).isSome

def selectStrikeCount (t : ReviewTables) (target branch : String) : ℕ :=
  ((t.reviews.find? (target, branch)).map (·.strikes)).getD 0

/-! ## The fold -/

/-- The columns a request writes; the verdict it supersedes is cleared, `verdictSeq` is not. -/
def requestColumns (row : ReviewRow) (r : ReviewRequested) (ts : ℕ) : ReviewRow :=
  { row with
    reviewId := some r.reviewId
    scope := r.scope.getD .workerMerge
    reviewerKind := some (r.reviewerKind.getD .agent)
    verdict := none
    blockers := none
    suggestions := none
    verification := none
    reviewer := none
    verdictTs := none
    requestedBy := some r.requestedBy
    requestedTs := some ts
    specRefKind := r.specRefKind
    specRefRef := r.specRefRef }

/-- The request stored in `row` is the one `r` repeats. -/
def isSameRequest (row : ReviewRow) (r : ReviewRequested) : Bool :=
  row.requestedTs.isSome && row.reviewId == some r.reviewId &&
    row.scope == r.scope.getD .workerMerge &&
    row.reviewerKind.getD .agent == r.reviewerKind.getD .agent &&
    row.requestedBy == some r.requestedBy && row.specRefKind == r.specRefKind &&
    row.specRefRef == r.specRefRef

/-- Fold a request. A review id that was requested before is accepted only as an exact
repetition of the latest request of its own pair, and changes nothing. -/
def applyRequested (t : ReviewTables) (event : StoredEvent ReviewEvent) (r : ReviewRequested) :
    Except String ReviewTables :=
  match t.reviewRequestIds.find? r.reviewId with
  | some existing => do
    refuse (existing.target ≠ r.target ∨ existing.branch ≠ r.branch)
      (s!"duplicate reviewId '{r.reviewId}' already belongs to " ++
        s!"'{existing.branch}' into '{existing.target}'.")
    refuse (!(t.reviews.find? (r.target, r.branch)).any (isSameRequest · r))
      (s!"duplicate reviewId '{r.reviewId}' for '{r.branch}' into '{r.target}' conflicts " ++
        "with an earlier request event.")
    return t
  | none => do
    let reviewRequestIds ← orThrow (t.reviewRequestIds.insert? ⟨r.reviewId, r.target, r.branch⟩)
      "UNIQUE constraint failed: review_request_ids.review_id"
    return { t with
      reviewRequestIds
      reviews := t.reviews.upsert
        (requestColumns { target := r.target, branch := r.branch } r event.ts)
        { run := (requestColumns · r event.ts) } }

/-- The columns a verdict writes; a `PASS` ends the run of strikes. -/
def verdictColumns (row : ReviewRow) (v : ReviewVerdictRecorded) (scope : ReviewScope)
    (ts seq : ℕ) : ReviewRow :=
  { row with
    scope
    reviewId := some v.reviewId
    verdict := some v.verdict
    blockers := some v.blockers
    suggestions := some v.suggestions
    verification := v.verification
    reviewer := some v.reviewer
    verdictTs := some ts
    verdictSeq := some seq
    strikes := if v.verdict = .pass then 0 else row.strikes }

/-- Fold a verdict: it must answer the latest request, if there is one, in the scope that was
requested, and must not repeat the verdict that is recorded. -/
def applyVerdict (t : ReviewTables) (event : StoredEvent ReviewEvent)
    (v : ReviewVerdictRecorded) : Except String ReviewTables := do
  let request := selectReviewRequest t v.target v.branch
  whenSome request fun request => do
    refuse (request.reviewId ≠ v.reviewId)
      (s!"stale review verdict '{v.reviewId}' for '{v.branch}' into '{v.target}' — latest " ++
        s!"request is '{request.reviewId}'.")
    whenSome v.scope fun scope =>
      refuse (scope ≠ request.scope)
        (s!"review verdict scope '{scope}' for '{v.branch}' into " ++
          s!"'{v.target}' does not match requested scope '{request.scope}'.")
  let scope := v.scope.getD ((request.map (·.scope)).getD .workerMerge)
  whenSome (selectVerdict t v.target v.branch (some scope)) fun existing =>
    refuse (existing.reviewId = v.reviewId)
      (s!"review verdict '{v.reviewId}' for '{v.branch}' into '{v.target}' is already recorded; " ++
        "create a new review request before recording another verdict.")
  return { t with
    reviews := t.reviews.upsert
      (verdictColumns { target := v.target, branch := v.branch } v scope event.ts event.seq)
      { run := (verdictColumns · v scope event.ts event.seq) } }

/-- Fold a strike; a review that has consumed its strike already is not struck again. -/
def applyStrike (t : ReviewTables) (s : ReviewStrike) : Except String ReviewTables :=
  if selectReviewStrike t s.target s.branch s.reviewId then pure t
  else do
    let reviewStrikes ← orThrow (t.reviewStrikes.insert? ⟨s.target, s.branch, s.reviewId⟩)
      "UNIQUE constraint failed: review_strikes"
    return { t with
      reviewStrikes
      reviews := t.reviews.upsert
        { target := s.target, branch := s.branch, reviewId := s.reviewId, strikes := 1 }
        { run := fun row => { row with strikes := row.strikes + 1 } } }

/-- Fold a toggle of the merge slot: the row only remembers that there was one. -/
def applySerialized (t : ReviewTables) (m : MergeSerialized) : ReviewTables :=
  { t with
    reviews := t.reviews.upsert
      { target := m.target, branch := m.branch, serialized := true }
      { run := fun row => { row with serialized := true } } }

/-- Fold an override. -/
def applyOverride (t : ReviewTables) (o : ReviewOverride) : ReviewTables :=
  let overrideColumns (row : ReviewRow) : ReviewRow :=
    { row with
      overridden := true
      overrideReason := some o.reason
      overrideBy := some o.overriddenBy
      overrideVerificationFailures := o.verificationFailures }
  { t with
    reviews := t.reviews.upsert (overrideColumns { target := o.target, branch := o.branch })
      { run := overrideColumns } }

/-- The review projector: fold one decoded review event into its tables. -/
def ReviewProjector.apply (t : ReviewTables) (event : StoredEvent ReviewEvent) :
    Except String ReviewTables :=
  match event.payload with
  | .requested r => applyRequested t event r
  | .verdict v => applyVerdict t event v
  | .strike s => applyStrike t s
  | .serialized m => pure (applySerialized t m)
  | .override o => pure (applyOverride t o)

end Orchestration.Review
