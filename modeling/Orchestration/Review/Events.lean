import Orchestration.Library.Fallible
import Orchestration.Review.Verdict

/-!
# Review events

The five events of a review's life: a request, a verdict, a strike, a toggle of
the merge slot and an audited override. All of them live in the stream of their
target.
-/

namespace Orchestration.Review

open Fallible

/-- Scope prefix of every target stream. -/
def REVIEW_SCOPE_PREFIX : String := "review:"

/-- A target's stream scope. -/
def reviewScope (target : String) : String := REVIEW_SCOPE_PREFIX ++ target

@[simp] theorem reviewScope_inj {target target' : String} :
    reviewScope target = reviewScope target' ↔ target = target' := by
  constructor
  · intro h
    have hdrop := congrArg (afterPrefix? REVIEW_SCOPE_PREFIX) h
    simpa [reviewScope] using hdrop
  · exact congrArg reviewScope

/-- The strictness a review is held to. -/
inductive ReviewScope where
  | workerMerge
  | phaseMerge
  | prMerge
deriving DecidableEq, Repr

instance : ToString ReviewScope where
  toString
    | .workerMerge => "worker_merge"
    | .phaseMerge => "phase_merge"
    | .prMerge => "pr_merge"

inductive ReviewerKind where
  | agent
  | human
deriving DecidableEq, Repr

instance : ToString ReviewerKind where
  toString
    | .agent => "agent"
    | .human => "human"

inductive SpecRefKind where
  | criteria
  | noLockedSpec
deriving DecidableEq, Repr

instance : ToString SpecRefKind where
  toString
    | .criteria => "criteria"
    | .noLockedSpec => "no-locked-spec"

/-- The acceptance criteria a request was opened against, or the explicit lack of them. -/
inductive ReviewSpecRef where
  | criteria (ref : String)
  | noLockedSpec
deriving DecidableEq, Repr

def ReviewSpecRef.kind : ReviewSpecRef → SpecRefKind
  | .criteria _ => .criteria
  | .noLockedSpec => .noLockedSpec

structure ReviewRequested where
  reviewId : String
  target : String
  branch : String
  scope : Option ReviewScope := none
  reviewerKind : Option ReviewerKind := none
  requestedBy : String
  specRefKind : Option SpecRefKind := none
  specRefRef : Option String := none
deriving DecidableEq, Repr

structure ReviewVerdictRecorded where
  reviewId : String
  target : String
  branch : String
  scope : Option ReviewScope := none
  reviewer : String
  verdict : Verdict
  blockers : List Blocker := []
  suggestions : List Suggestion := []
  verification : Option VerificationMarker := none
deriving DecidableEq, Repr

structure ReviewStrike where
  reviewId : String
  target : String
  branch : String
  reason : String
deriving DecidableEq, Repr

structure MergeSerialized where
  target : String
  branch : String
deriving DecidableEq, Repr

structure ReviewOverride where
  target : String
  branch : String
  reason : String
  overriddenBy : String
  verificationFailures : Option (List String) := none
deriving DecidableEq, Repr

/-- What a review-store event carries. -/
inductive ReviewEvent where
  | requested (request : ReviewRequested)
  | verdict (verdict : ReviewVerdictRecorded)
  | strike (strike : ReviewStrike)
  | serialized (serialized : MergeSerialized)
  | override (override : ReviewOverride)
deriving DecidableEq, Repr

def ReviewEvent.typeName : ReviewEvent → String
  | .requested _ => "review.requested"
  | .verdict _ => "review.verdict"
  | .strike _ => "review.strike"
  | .serialized _ => "merge.serialized"
  | .override _ => "review.override"

/-- The target a review event is about. -/
def ReviewEvent.target : ReviewEvent → String
  | .requested r => r.target
  | .verdict v => v.target
  | .strike s => s.target
  | .serialized m => m.target
  | .override o => o.target

/-- The payload schema of each review event, checked on append and on every read. -/
def reviewSchemas (event : ReviewEvent) : Except String ReviewEvent := do
  match event with
  | .requested r =>
    minLength1 "reviewId" r.reviewId
    minLength1 "target" r.target
    minLength1 "branch" r.branch
    minLength1 "requestedBy" r.requestedBy
    whenSome r.specRefRef (minLength1 "specRefRef")
  | .verdict v =>
    minLength1 "reviewId" v.reviewId
    minLength1 "target" v.target
    minLength1 "branch" v.branch
    minLength1 "reviewer" v.reviewer
    v.blockers.forM fun blocker => minLength1 "blockers" blocker.summary
    v.suggestions.forM fun suggestion => minLength1 "suggestions" suggestion.summary
  | .strike s =>
    minLength1 "reviewId" s.reviewId
    minLength1 "target" s.target
    minLength1 "branch" s.branch
    minLength1 "reason" s.reason
  | .serialized m =>
    minLength1 "target" m.target
    minLength1 "branch" m.branch
  | .override o =>
    minLength1 "target" o.target
    minLength1 "branch" o.branch
    minLength1 "reason" o.reason
    minLength1 "overriddenBy" o.overriddenBy
  return event

def makeReviewRequestedEvent (r : ReviewRequested) : Except String (NewEvent ReviewEvent) := do
  let payload ← reviewSchemas (.requested r)
  return { scope := reviewScope r.target, v := 1, payload, actor := r.requestedBy }

def makeReviewVerdictEvent (v : ReviewVerdictRecorded) : Except String (NewEvent ReviewEvent) := do
  let payload ← reviewSchemas (.verdict v)
  assertValidVerdict v.verdict v.blockers
  return { scope := reviewScope v.target, v := 1, payload, actor := v.reviewer }

def makeReviewStrikeEvent (s : ReviewStrike) : Except String (NewEvent ReviewEvent) := do
  let payload ← reviewSchemas (.strike s)
  return { scope := reviewScope s.target, v := 1, payload }

def makeMergeSerializedEvent (m : MergeSerialized) : Except String (NewEvent ReviewEvent) := do
  let payload ← reviewSchemas (.serialized m)
  return { scope := reviewScope m.target, v := 1, payload }

def makeReviewOverrideEvent (o : ReviewOverride) : Except String (NewEvent ReviewEvent) := do
  let payload ← reviewSchemas (.override o)
  return { scope := reviewScope o.target, v := 1, payload, actor := o.overriddenBy }

/-- A recorded verdict as a read returns it. -/
structure ReviewVerdictRecord where
  reviewId : String
  target : String
  branch : String
  scope : ReviewScope
  reviewer : String
  verdict : Verdict
  blockers : List Blocker
  suggestions : List Suggestion
  verification : Option VerificationMarker
  recordedTs : ℕ
  recordedSeq : Option ℕ
deriving DecidableEq, Repr

/-- A recorded request as a read returns it. -/
structure ReviewRequestRecord where
  reviewId : String
  target : String
  branch : String
  scope : ReviewScope
  reviewerKind : ReviewerKind
  requestedBy : String
  requestedTs : ℕ
  specRef : ReviewSpecRef
deriving DecidableEq, Repr

/-- A built event carries exactly what the schema accepted. -/
theorem reviewSchemas_eq {event event' : ReviewEvent} (h : reviewSchemas event = .ok event') :
    event' = event := by
  unfold reviewSchemas at h
  cases event <;> simp only [bind_eq_ok, pure_eq_ok] at h <;> grind

/-- The schema accepts what it has accepted before. -/
theorem reviewSchemas_idem {event event' : ReviewEvent} (h : reviewSchemas event = .ok event') :
    reviewSchemas event' = .ok event' := by
  obtain rfl := reviewSchemas_eq h
  exact h

end Orchestration.Review
