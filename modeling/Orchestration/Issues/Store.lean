import Orchestration.Issues.Filing
import Orchestration.Library.Table
import Orchestration.Library.Transaction
import Orchestration.Store.Event

/-!
# The issue store

An issue goes from captured to diagnosed, filed and self-assigned, and each step is taken once:
a repetition of the step returns the record, anything else is refused.
-/

namespace Orchestration.Issues

open Fallible Transaction

inductive IssueState where
  | captured
  | diagnosed
  | filed
  | selfAssigned
deriving DecidableEq, Repr

instance : ToString IssueState where
  toString
    | .captured => "captured"
    | .diagnosed => "diagnosed"
    | .filed => "filed"
    | .selfAssigned => "self_assigned"

/-- A row of `issues`: the record, and how far it got. -/
structure StoredIssue extends IssueRecord where
  destination : IssueDestination
  capturedBy : String
  state : IssueState
  diagnosedBy : Option String := none
  filedBy : Option String := none
  approvalSeq : Option ℕ := none
  postedRef : Option String := none
  assignee : Option String := none
deriving DecidableEq, Repr

/-- The key of the table. -/
def StoredIssue.id (issue : StoredIssue) : String := issue.issueId

structure IssueCaptured where
  issueId : String
  summary : String
  detail : String
  destination : IssueDestination
  capturedBy : String
deriving DecidableEq, Repr

structure IssueDiagnosed where
  issueId : String
  probableCause : String
  diagnosedBy : String
deriving DecidableEq, Repr

structure IssueFiled where
  issueId : String
  filedBy : String
  approvalSeq : ℕ
  postedRef : String
deriving DecidableEq, Repr

structure IssueSelfAssigned where
  issueId : String
  assignee : String
deriving DecidableEq, Repr

inductive IssueEvent where
  | captured (rec : IssueCaptured)
  | diagnosed (rec : IssueDiagnosed)
  | filed (rec : IssueFiled)
  | selfAssigned (rec : IssueSelfAssigned)
deriving DecidableEq, Repr

def IssueEvent.issueId : IssueEvent → String
  | captured rec => rec.issueId
  | diagnosed rec => rec.issueId
  | filed rec => rec.issueId
  | selfAssigned rec => rec.issueId

/-- The payload schemas. -/
def issuesSchemas : IssueEvent → Except String Unit
  | .captured rec => do
    minLength1 "issueId" rec.issueId
    minLength1 "summary" rec.summary
    minLength1 "capturedBy" rec.capturedBy
  | .diagnosed rec => do
    minLength1 "issueId" rec.issueId
    minLength1 "probableCause" rec.probableCause
    minLength1 "diagnosedBy" rec.diagnosedBy
  | .filed rec => do
    minLength1 "issueId" rec.issueId
    minLength1 "filedBy" rec.filedBy
    minLength1 "postedRef" rec.postedRef
  | .selfAssigned rec => do
    minLength1 "issueId" rec.issueId
    minLength1 "assignee" rec.assignee

abbrev IssueTables := Table StoredIssue.id

def selectIssue (t : IssueTables) (issueId : String) : Option StoredIssue := t.find? issueId

/-- An optional text as a template literal prints it. -/
def orUndefined (text : Option String) : String := text.getD "undefined"

/-- The record, if the event repeats the step that led to it; an error, if it must not happen. -/
def validateIssueTransition (t : IssueTables) (event : IssueEvent) :
    Except String (Option StoredIssue) :=
  let issueId := event.issueId
  match event, selectIssue t issueId with
  | .captured _, none => pure none
  | .captured rec, some existing =>
    if existing.summary = rec.summary ∧ existing.detail = rec.detail ∧
        existing.destination = rec.destination ∧ existing.capturedBy = rec.capturedBy then
      pure (some existing)
    else
      throw (s!"issues: issue '{issueId}' already exists with different content — refusing " ++
        "conflicting re-capture")
  | .diagnosed _, none =>
    throw s!"issues: cannot diagnose issue '{issueId}' — no captured issue exists"
  | .diagnosed rec, some existing =>
    match existing.state with
    | .captured => pure none
    | .diagnosed =>
      if existing.probableCause = some rec.probableCause ∧
          existing.diagnosedBy = some rec.diagnosedBy then pure (some existing)
      else
        throw (s!"issues: issue '{issueId}' already has a different diagnosis — refusing " ++
          "conflicting re-diagnosis")
    | state =>
      throw s!"issues: cannot diagnose issue '{issueId}' in state '{state}' — it is already filed"
  | .filed _, none => throw s!"issues: cannot file issue '{issueId}' — no captured issue exists"
  | .filed rec, some existing =>
    match existing.state with
    | .captured =>
      throw (s!"issues: cannot file issue '{issueId}' — it must be diagnosed before filing " ++
        "(the pipeline is detect → diagnose → dedup → file)")
    | .diagnosed => pure none
    | _ =>
      if existing.postedRef = some rec.postedRef ∧ existing.filedBy = some rec.filedBy ∧
          existing.approvalSeq = some rec.approvalSeq then pure (some existing)
      else
        throw (s!"issues: issue '{issueId}' is already filed at " ++
          s!"'{orUndefined existing.postedRef}' — refusing conflicting re-filing")
  | .selfAssigned _, none =>
    throw s!"issues: cannot self-assign issue '{issueId}' — no captured issue exists"
  | .selfAssigned rec, some existing =>
    match existing.state with
    | .filed => pure none
    | .selfAssigned =>
      if existing.assignee = some rec.assignee then pure (some existing)
      else
        throw (s!"issues: issue '{issueId}' is already self-assigned to " ++
          s!"'{orUndefined existing.assignee}' — refusing re-assign to '{rec.assignee}'")
    | state =>
      throw (s!"issues: cannot self-assign issue '{issueId}' in state '{state}' — only a filed " ++
        "issue can be self-assigned")

def IssueDiagnosed.set (rec : IssueDiagnosed) : Table.Update StoredIssue.id where
  run row := { row with
    state := .diagnosed
    probableCause := some rec.probableCause
    diagnosedBy := some rec.diagnosedBy }

def IssueFiled.set (rec : IssueFiled) : Table.Update StoredIssue.id where
  run row := { row with
    state := .filed
    filedBy := some rec.filedBy
    approvalSeq := some rec.approvalSeq
    postedRef := some rec.postedRef }

def IssueSelfAssigned.set (rec : IssueSelfAssigned) : Table.Update StoredIssue.id where
  run row := { row with
    state := .selfAssigned
    assignee := some rec.assignee }

/-- The issues projector. -/
def IssuesProjector.apply (t : IssueTables) (event : IssueEvent) : Except String IssueTables := do
  match ← validateIssueTransition t event with
  | some _ => return t
  | none =>
    match event with
    | .captured rec =>
      orThrow (t.insert? {
        issueId := rec.issueId
        summary := rec.summary
        detail := rec.detail
        destination := rec.destination
        capturedBy := rec.capturedBy
        state := .captured }) "UNIQUE constraint failed: issues.issue_id"
    | .diagnosed rec => return t.updateWhere (·.issueId == rec.issueId) rec.set
    | .filed rec => return t.updateWhere (·.issueId == rec.issueId) rec.set
    | .selfAssigned rec => return t.updateWhere (·.issueId == rec.issueId) rec.set

namespace IssueStore

/-- Record a step under its `verb`, or find that it was taken already. -/
def record (verb : String) (event : IssueEvent) : Proc IssueTables String StoredIssue :=
  transaction do
    let t ← get
    match ← validateIssueTransition t event with
    | some existing => return existing
    | none =>
      issuesSchemas event
      let t ← IssuesProjector.apply t event
      set t
      orThrow (selectIssue t event.issueId)
        s!"openIssueStore.{verb}: row missing after projection (issueId='{event.issueId}')"

def recordCapture (rec : IssueCaptured) : Proc IssueTables String StoredIssue :=
  record "recordCapture" (.captured rec)

def recordDiagnosis (rec : IssueDiagnosed) : Proc IssueTables String StoredIssue :=
  record "recordDiagnosis" (.diagnosed rec)

def recordFiling (rec : IssueFiled) : Proc IssueTables String StoredIssue :=
  record "recordFiling" (.filed rec)

def recordSelfAssign (rec : IssueSelfAssigned) : Proc IssueTables String StoredIssue :=
  record "recordSelfAssign" (.selfAssigned rec)

def getIssue (issueId : String) : Proc IssueTables String (Option StoredIssue) :=
  transaction do
    let t ← get
    return selectIssue t issueId

end IssueStore

/-- A repeated step returns the record of the issue. -/
theorem validateIssueTransition_eq_some {t : IssueTables} {event : IssueEvent}
    {existing : StoredIssue} (h : validateIssueTransition t event = .ok (some existing)) :
    selectIssue t event.issueId = some existing := by
  cases hselect : selectIssue t event.issueId with
  | none => cases event <;> simp [validateIssueTransition, hselect] at h
  | some row =>
    have hrow : row = existing := by
      cases event with
      | captured rec =>
        simp only [validateIssueTransition, hselect] at h
        split at h
        · exact Option.some.inj (pure_eq_ok.1 h)
        · exact (throw_eq_ok.1 h).elim
      | diagnosed rec =>
        cases hstate : row.state <;>
          simp only [validateIssueTransition, hselect, hstate, throw_eq_ok, pure_eq_ok] at h
        case captured => cases h
        case diagnosed =>
          split at h
          · exact Option.some.inj (pure_eq_ok.1 h)
          · exact (throw_eq_ok.1 h).elim
      | filed rec =>
        cases hstate : row.state <;>
          simp only [validateIssueTransition, hselect, hstate, throw_eq_ok, pure_eq_ok] at h
        case diagnosed => cases h
        all_goals
          split at h
          · exact Option.some.inj (pure_eq_ok.1 h)
          · exact (throw_eq_ok.1 h).elim
      | selfAssigned rec =>
        cases hstate : row.state <;>
          simp only [validateIssueTransition, hselect, hstate, throw_eq_ok, pure_eq_ok] at h
        case filed => cases h
        case selfAssigned =>
          split at h
          · exact Option.some.inj (pure_eq_ok.1 h)
          · exact (throw_eq_ok.1 h).elim
    rw [hrow]

/-- What a recording that returns yields is the record of the issue. -/
theorem IssueStore.record_eq_ok {verb : String} {event : IssueEvent} {issue : StoredIssue}
    {t t' : IssueTables} (h : IssueStore.record verb event t = (.ok issue, t')) :
    issue.issueId = event.issueId := by
  obtain ⟨_, _, hget, hbody⟩ := Tx.bind_eq_ok.1 (transaction_eq_ok.1 h)
  obtain ⟨rfl, rfl⟩ := Tx.get_eq_ok.1 hget
  obtain ⟨found, hvalid, hrest⟩ := Tx.liftM_bind_eq_ok.1 hbody
  have hselected : ∀ {t : IssueTables}, selectIssue t event.issueId = some issue →
      issue.issueId = event.issueId := fun h => (Table.find?_eq_some.1 h).2
  cases found with
  | some existing =>
    obtain ⟨rfl, -⟩ := Tx.pure_eq_ok.1 hrest
    exact hselected (validateIssueTransition_eq_some hvalid)
  | none =>
    obtain ⟨_, -, hrest⟩ := Tx.liftM_bind_eq_ok.1 hrest
    obtain ⟨next, -, hrest⟩ := Tx.liftM_bind_eq_ok.1 hrest
    obtain ⟨_, _, -, hrest⟩ := Tx.bind_eq_ok.1 hrest
    obtain ⟨hread, -⟩ := Tx.liftM_eq_ok.1 hrest
    exact hselected (orThrow_eq_ok.1 hread)

end Orchestration.Issues
