import Orchestration.Library.Cleanup
import Orchestration.Review.HonestVerify
import Orchestration.Review.Store
import Orchestration.Review.Strikes
import Orchestration.Worktrees.Publishing
import Orchestration.Worktrees.Store

/-!
# The publish gate

Three calls publish reviewed work: a local merge, a push and a pull request. Each passes
the gate (a recorded `PASS` that honest verification bears out, or an operator's override),
takes the merge slot of its target, enacts, and gives the slot back.
-/

namespace Orchestration.Review

open Fallible Transaction
open Transaction.Proc (onError unlessFault when)
open Mail (Delivery ParentResolver OPERATOR)
open Worktrees

/-! ## What a gate is given -/

structure ReviewGateDeps where
  repoModeGate : RepoModeGate
  resolveMode : (projectId repoCwd : String) → Except String RepoMode
  mail : Option Delivery := none
  parentResolver : Option ParentResolver := none
  agentId : Option String := none
  teardown : Option (String → StoreProc Unit) := none
  /-- Redacts a text before it leaves; what it redacts the gate does not look at. -/
  scrubOutwardText : String → String := id

/-- What all three calls are asked for. -/
structure GateRequest where
  branch : String
  into : String
  projectId : String
  repoCwd : String
  operatorOverride : Bool := false
  reason : Option String := none
deriving DecidableEq, Repr

structure ReviewMergeRequest extends GateRequest where
  summary : String
  body : Option String := none
deriving DecidableEq, Repr

structure ReviewPushRequest extends GateRequest where
  remote : Option String := none
deriving DecidableEq, Repr

structure ReviewPrMergeRequest extends GateRequest where
  title : String
  intent : PrIntent
deriving DecidableEq, Repr

/-- The faults that strike a call from outside of the program: a read or an append that the
database refuses, a text that the runtime cannot hold. -/
structure GateFaults where
  checks : Option String := none
  render : Option String := none
  acquire : Option String := none
  override : Option String := none
  release : Option String := none
deriving DecidableEq, Repr

/-- What passed the gate, by a recorded `PASS` or by an override. -/
structure GateOutcome where
  mode : RepoMode
  reviewVerdict : String
  baselineFailures : Option (List String) := none
  verificationFailures : Option (List String) := none
  overridden : Bool := false
  overrideReason : Option String := none
  overrideBy : Option String := none
  pendingEscalation : Option EscalationRequest := none

/-! ## The state of a call -/

/-- An operation that reaches the repository. -/
inductive Enacted where
  | publish (req : PublishRequest)
  | push (req : EnactPushRequest)
  | prMerge (req : EnactPrMergeRequest)
deriving DecidableEq, Repr

/-- An enacted operation, and the project at the moment. -/
structure Enactment where
  operation : Enacted
  mode : RepoMode
  db : Db

/-- The project, and all that was enacted on its repository. -/
structure Publishing where
  db : Db
  enacted : List Enactment := []

abbrev GateProc (α : Type) := Proc Publishing String α

/-- A procedure of the stores. -/
def stores {α : Type} (p : StoreProc α) : GateProc α :=
  p.on Publishing.db fun db s => { s with db }

/-- An operation on the repository; it is enacted whether or not it succeeds. -/
def enact {α : Type} (operation : Enacted) (mode : RepoMode) (result : Except String α) :
    GateProc α := fun s =>
  (result, { s with enacted := s.enacted ++ [⟨operation, mode, s.db⟩] })

/-- The tables that the checks read. A call waits for nobody, so its reads see one state. -/
structure GateReads where
  review : ReviewTables
  worktrees : WorktreeTables

def readTables : StoreProc GateReads := do
  let review ← transaction (Review.reading id)
  let worktrees ← transaction (Worktrees.reading id)
  return { review, worktrees }

/-! ## The checks -/

def assertFinishNotNewerThanVerdict (toolName branch into : String) (finish : FinishRecord)
    (verdict : ReviewVerdictRecord) : Except String Unit :=
  let older : Bool :=
    match finish.recordedSeq, verdict.recordedSeq with
    | some finish, some verdict => finish < verdict
    | _, _ => finish.recordedTs < verdict.recordedTs
  refuse (older = false)
    (s!"{toolName}: refused — branch '{branch}' was finished after review " ++
      s!"'{verdict.reviewId}' for '{into}'. Re-run review on the latest finish before publishing.")

/-- The words in which a call refuses what has no sound `PASS`. -/
structure PassGateTexts where
  tool : String
  required : String
  scope : String
  again : String
  missing : String
  published : String

section

variable (deps : ReviewGateDeps) (t : GateReads) (req : GateRequest)

/-- The mail of a `PASS` over failures that the branch did not cause. -/
def baselineEscalation (texts : PassGateTexts) (verdict : ReviewVerdictRecord)
    (baselineFailures : List String) : EscalationRequest where
  «from» := deps.agentId.getD "co.review-gate"
  subject := s!"baseline failure(s) in PASS for '{req.branch}'"
  idempotencyKey := some s!"baseline-escalation:{req.into}:{req.branch}:{verdict.reviewId}"
  body := s!"The PASS for '{req.branch}' into '{req.into}' carries pre-existing baseline " ++
    "failure(s): " ++ ", ".intercalate baselineFailures ++
    s!". The {texts.published} was allowed but " ++
    "these failures require attention — they pre-existed the branch-off baseline."

/-- The recorded `PASS` of the branch, borne out by its finish and its baseline. -/
def passGate (texts : PassGateTexts) (mode : RepoMode) (requiredScope : Option ReviewScope) :
    Except String GateOutcome := do
  let tool := texts.tool
  let verdict ← orThrow (selectVerdict t.review req.into req.branch requiredScope)
    (s!"{tool}: refused — no review verdict is recorded for '{req.branch}' into '{req.into}'. " ++
      s!"{texts.required} (AC-L5-1); run co_review_finalize first.")
  refuse (verdict.verdict ≠ .pass)
    (s!"{tool}: refused — the recorded{texts.scope} verdict for '{req.branch}' into " ++
      s!"'{req.into}' is {verdict.verdict} ({verdict.blockers.length} blocker(s)), not PASS. " ++
      s!"Address the blockers and record a new PASS{texts.again} (AC-L5-1).")
  let missing (which : String) : String :=
    s!"{tool}: refused — a PASS verdict exists for '{req.branch}' but the {which} record is " ++
      s!"missing. Both are required for honest-verification ({texts.missing})."
  let baseline ← orThrow (selectBaseline t.worktrees req.branch) (missing "baseline")
  let finish ← orThrow (selectFinish t.worktrees req.branch) (missing "finish")
  assertFinishNotNewerThanVerdict tool req.branch req.into finish verdict
  let verifyOutcome := honestVerify baseline.tests finish.tests
  let classification := classifyPass verifyOutcome verdict.verification
  refuse (classification.allow = false)
    (s!"{tool}: refused — honest-verification rejected the PASS for '{req.branch}' into " ++
      s!"'{req.into}': " ++ classification.reason.getD "undefined")
  return {
    mode
    reviewVerdict := "PASS"
    baselineFailures :=
      if verifyOutcome.baselineFailures ≠ [] then some verifyOutcome.baselineFailures else none
    pendingEscalation :=
      if classification.mustEscalate && deps.mail.isSome && deps.parentResolver.isSome then
        some (baselineEscalation deps req texts verdict verifyOutcome.baselineFailures)
      else none }

/-- The gate of a push and of a pull request: they need the verdict of the strictest scope. -/
def gateOnPass (requiredScope : ReviewScope) : Except String GateOutcome := do
  let mode ← deps.resolveMode req.projectId req.repoCwd
  passGate deps t req {
    tool := "co"
    required := s!"A recorded {requiredScope} PASS is required"
    scope := s!" {requiredScope}"
    again := ""
    missing := "AC-L5-3, Principle 9"
    published := "publish" } mode (some requiredScope)

/-- The gate of a local merge. -/
def mergeOnPass (mode : RepoMode) : Except String GateOutcome :=
  passGate deps t req {
    tool := "co_merge"
    required := "A merge requires a recorded PASS"
    scope := ""
    again := " before merging"
    missing := "AC-L5-3, Principle 9 — never paper over a missing input"
    published := "merge" } mode none

/-- What an override publishes over, found for the record only. -/
def overrideFailures : Option (List String) × Option (List String) :=
  match selectBaseline t.worktrees req.branch, selectFinish t.worktrees req.branch with
  | some baseline, some finish =>
    let outcome := honestVerify baseline.tests finish.tests
    let failing := outcome.regressions ++ outcome.baselineFailures
    (if outcome.baselineFailures ≠ [] then some outcome.baselineFailures else none,
      if failing ≠ [] then some failing else none)
  | _, _ => (none, none)

/-- The mail of an override over failing tests. -/
def overrideEscalation (by_ trimmed : String) (failing : List String) : EscalationRequest where
  «from» := by_
  subject :=
    s!"operator override of '{req.branch}' into '{req.into}' over verification failure(s)"
  idempotencyKey := some s!"override-escalation:{req.into}:{req.branch}:{by_}:{trimmed}"
  body := s!"'{req.branch}' was published into '{req.into}' via an AUDITED operator override " ++
    s!"(reason: {trimmed}). honest-verification still found failing test(s): " ++
    ", ".intercalate failing ++ ". The override proceeded by explicit human decision; these " ++
    "failures are recorded for attention."

/-- The audited way around the recorded `PASS`: the operator's own, and with a reason. -/
def overrideGate (verb : String) : Except String GateOutcome := do
  let trimmed := Js.trimString (req.reason.getD "")
  refuse (trimmed = "")
    (s!"{verb}: refused — operator_override requires a non-empty reason (AC-L5-6, Principle 9 — " ++
      "an unexplained override is not an audited override).")
  refuse (deps.agentId ≠ some OPERATOR)
    (s!"{verb}: refused — operator_override is reserved for {OPERATOR}; caller " ++
      "'" ++ deps.agentId.getD "<unknown>" ++ "' must use the recorded-PASS gate.")
  let mode ← deps.resolveMode req.projectId req.repoCwd
  let (baselineFailures, verificationFailures) := overrideFailures t req
  return {
    mode
    reviewVerdict := s!"override — {trimmed}"
    overridden := true
    overrideReason := some trimmed
    overrideBy := some OPERATOR
    baselineFailures
    verificationFailures
    pendingEscalation :=
      if deps.mail.isSome && deps.parentResolver.isSome then
        verificationFailures.map (overrideEscalation req OPERATOR trimmed)
      else none }

/-- The parent that an escalation will go to must be known before anything is done. -/
def preflightPendingEscalation (gate : GateOutcome) : Except String Unit :=
  match gate.pendingEscalation, deps.parentResolver with
  | some escalation, some parentOf => do
    let _ ← parentOf escalation.from
  | _, _ => pure ()

def mergeGate (mode : RepoMode) : Except String GateOutcome :=
  if req.operatorOverride then overrideGate deps t req "co_merge" else mergeOnPass deps t req mode

def publishGate (verb : String) : Except String GateOutcome :=
  if req.operatorOverride then overrideGate deps t req verb else gateOnPass deps t req .prMerge

/-- All that a merge checks before it renders its message. -/
def mergeChecks : Except String (RepoMode × GateOutcome) := do
  let mode ← deps.resolveMode req.projectId req.repoCwd
  refuse (mode = .contributor)
    ("co_merge: contributor mode publishes via the gated co_push / co_pr_merge path. Cannot " ++
      s!"locally merge '{req.branch}' into '{req.into}' in contributor mode.")
  let gate ← mergeGate deps t req mode
  preflightPendingEscalation deps gate
  return (mode, gate)

/-- All that a push or a pull request checks. -/
def publishChecks (verb : String) : Except String GateOutcome := do
  let gate ← publishGate deps t req verb
  preflightPendingEscalation deps gate
  return gate

end

/-! ## The merge slot -/

section

variable (faults : GateFaults) (req : GateRequest)

/-- The slot of the target, for the branch. -/
def GateRequest.slot : MergeSerialized where
  target := req.into
  branch := req.branch

def acquireMergeSlot : GateProc MergeSlotResult :=
  stores (unlessFault faults.acquire (transaction (acquireSerialized req.slot)))

def releaseMergeSlot : GateProc Unit :=
  stores (unlessFault faults.release (transaction (releaseSerialized req.slot)))

/-- The refusal of a merge while another branch holds the slot. -/
def mergeBusy (slot : MergeSlotResult) : String :=
  s!"co_merge: refused — '{slot.active}' is the active reviewer/merge for '{req.into}'. Merges " ++
    "into a target serialize (AC-L5-7) — wait for it to land, then merge against the new " ++
    "(post-landing) base."

/-- The refusal of a push or a pull request. -/
def publishBusy (verb : String) (slot : MergeSlotResult) : String :=
  s!"{verb}: refused — '{slot.active}' is the active reviewer/merge for '{req.into}'. Reviews " ++
    "and publishes into a target serialize (AC-L5-7) — wait for it to resolve, then re-review " ++
    "against the new target base."

def acquirePublishSlot (verb : String) : GateProc MergeSlotResult := do
  let slot ← acquireMergeSlot faults req
  refuse (slot.acquired = false) (publishBusy req verb slot)
  return slot

/-- Give the slot back if the branch holds it. -/
def releaseOwnSlot : GateProc Unit := do
  let active ← stores (transaction (readingSlot req.into))
  when (active = some req.branch) (releaseMergeSlot faults req)

/-- The override that a gate stands for. -/
def GateOutcome.override? (gate : GateOutcome) : Option ReviewOverride :=
  match gate.overridden, gate.overrideReason, gate.overrideBy with
  | true, some reason, some overriddenBy => some {
      target := req.into
      branch := req.branch
      reason
      overriddenBy
      verificationFailures := gate.verificationFailures }
  | _, _, _ => none

def recordSuccessfulOverride (gate : GateOutcome) : GateProc Unit :=
  match gate.override? req with
  | some o => stores (unlessFault faults.override (transaction (recordOverride o)))
  | none => return

end

/-! ## The three calls -/

structure EscalationFired where
  escalated : Bool
  failed : Bool
deriving DecidableEq, Repr

/-- What all three results say about the gate. -/
structure PublishReport where
  mode : RepoMode
  baselineFailures : Option (List String)
  verificationFailures : Option (List String)
  escalated : Bool
  escalationFailed : Bool
  overridden : Bool
  overrideReason : Option String
deriving DecidableEq, Repr

structure ReviewMergeResult extends PublishReport where
  merged : Bool
  commitSha : String
  commitMessage : String
  toreDown : Option Bool
deriving DecidableEq, Repr

structure ReviewPushResult extends PublishReport where
  pushed : Bool
  remote : String
deriving DecidableEq, Repr

structure ReviewPrMergeResult extends PublishReport where
  prUrl : String
  prDescription : String
deriving DecidableEq, Repr

def publishReport (gate : GateOutcome) (mode : RepoMode) (fired : EscalationFired) :
    PublishReport where
  mode
  baselineFailures := gate.baselineFailures
  verificationFailures := gate.verificationFailures
  escalated := fired.escalated
  escalationFailed := fired.failed
  overridden := gate.overridden
  overrideReason := gate.overrideReason

section

variable (deps : ReviewGateDeps) (faults : GateFaults)

/-- Send the escalation of a published branch; it no longer fails the call. -/
def firePendingEscalation (gate : GateOutcome) : GateProc EscalationFired :=
  match gate.pendingEscalation, deps.mail, deps.parentResolver with
  | some escalation, some mail, some parentOf =>
    tryCatch (do
        let _ ← stores (escalate mail parentOf escalation)
        return { escalated := true, failed := false })
      fun _ => return { escalated := false, failed := true }
  | _, _, _ => return { escalated := false, failed := false }

/-- Tear the sandbox of a merged branch down; a failure does not fail the merge. -/
def tearDown (branch : String) : GateProc (Option Bool) :=
  match deps.teardown with
  | none => return none
  | some teardown =>
    tryCatch (do
        stores (teardown branch)
        return some true)
      fun _ => return some false

/-- The end of a merge, with the slot free again. -/
def afterMerge (req : ReviewMergeRequest) (gate : GateOutcome) (message : String)
    (result : PublishResult) : GateProc ReviewMergeResult := do
  let escalation ← firePendingEscalation deps gate
  let toreDown ← tearDown deps req.branch
  return { publishReport gate result.mode escalation with
    merged := result.merged
    commitSha := result.commitSha
    commitMessage := message
    toreDown }

def merge (req : ReviewMergeRequest) : GateProc ReviewMergeResult := do
  let t ← stores (unlessFault faults.checks readTables)
  let (mode, gate) ← mergeChecks deps t req.toGateRequest
  let message ← unlessFault faults.render (pure (renderMergeMessage {
    branch := req.branch
    summary := req.summary
    reviewVerdict := gate.reviewVerdict
    body := req.body }))
  let slot ← acquireMergeSlot faults req.toGateRequest
  refuse (slot.acquired = false) (mergeBusy req.toGateRequest slot)
  let publish : PublishRequest :=
    { branch := req.branch, into := req.into, message, repoCwd := req.repoCwd }
  let result ← onError (do
      recordSuccessfulOverride faults req.toGateRequest gate
      enact (.publish publish) mode (deps.repoModeGate.enactPublish publish mode))
    (when slot.fresh (releaseMergeSlot faults req.toGateRequest))
  releaseMergeSlot faults req.toGateRequest
  afterMerge deps req gate message result

/-- The end of a push. -/
def afterPush (gate : GateOutcome) (result : EnactPushResult) : GateProc ReviewPushResult := do
  let escalation ← firePendingEscalation deps gate
  return { publishReport gate result.mode escalation with
    pushed := result.pushed
    remote := result.remote }

def push (req : ReviewPushRequest) : GateProc ReviewPushResult := do
  let t ← stores (unlessFault faults.checks readTables)
  let gate ← publishChecks deps t req.toGateRequest "co_push"
  let slot ← acquirePublishSlot faults req.toGateRequest "co_push"
  let publish : EnactPushRequest :=
    { branch := req.branch, into := req.into, repoCwd := req.repoCwd, remote := req.remote }
  let result ← onError (do
      recordSuccessfulOverride faults req.toGateRequest gate
      enact (.push publish) gate.mode (deps.repoModeGate.enactPush publish gate.mode))
    (when slot.fresh (releaseOwnSlot faults req.toGateRequest))
  -- a contributor keeps the slot for the pull request that belongs to the push
  when (result.mode ≠ .contributor) (releaseOwnSlot faults req.toGateRequest)
  afterPush deps gate result

/-- The end of a pull request. -/
def afterPrMerge (gate : GateOutcome) (prDescription : String) (result : EnactPrMergeResult) :
    GateProc ReviewPrMergeResult := do
  let escalation ← firePendingEscalation deps gate
  return { publishReport gate result.mode escalation with
    prUrl := result.prUrl
    prDescription }

def prMerge (req : ReviewPrMergeRequest) : GateProc ReviewPrMergeResult := do
  let t ← stores (unlessFault faults.checks readTables)
  let gate ← publishChecks deps t req.toGateRequest "co_pr_merge"
  let slot ← acquirePublishSlot faults req.toGateRequest "co_pr_merge"
  -- here the slot is taken already, and nothing gives it back when the rendering fails
  let prDescription ← unlessFault faults.render
    (pure (deps.scrubOutwardText (renderPrMessage req.intent)))
  let publish : EnactPrMergeRequest := {
    branch := req.branch
    into := req.into
    title := req.title
    description := prDescription
    repoCwd := req.repoCwd }
  let result ← onError (do
      recordSuccessfulOverride faults req.toGateRequest gate
      enact (.prMerge publish) gate.mode (deps.repoModeGate.enactPrMerge publish gate.mode))
    (when slot.fresh (releaseOwnSlot faults req.toGateRequest))
  releaseOwnSlot faults req.toGateRequest
  afterPrMerge deps gate prDescription result

end

end Orchestration.Review
