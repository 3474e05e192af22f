import Orchestration.Library.EventStore
import Orchestration.Library.Table
import Orchestration.Plans.PlanIngest
import Orchestration.Specs.LockApproval

/-!
# The spec store

A spec goes from draft to locked and archived. A repetition of a step returns the record, and what
would change the content of a spec is refused. The tools check more before they record: the
criteria of a draft must be checkable, only a draft is locked, and only a locked spec is archived.
-/

namespace Orchestration.Specs

open EventStore Fallible Transaction
open Plans (SpecState validateCriteria)

/-! ## Events -/

structure SpecDrafted where
  taskId : String
  title : String
  goal : String
  criteria : List Plans.Criterion
  body : String
deriving DecidableEq, Repr

structure SpecLocked where
  taskId : String
  lockedBy : String
deriving DecidableEq, Repr

structure SpecArchived where
  taskId : String
deriving DecidableEq, Repr

/-- A draft is recorded with the agent that drew it up. -/
inductive SpecEvent where
  | drafted (rec : SpecDrafted) (actor : String)
  | locked (rec : SpecLocked)
  | archived (rec : SpecArchived)
deriving DecidableEq, Repr

def SpecEvent.taskId : SpecEvent → String
  | drafted rec _ => rec.taskId
  | locked rec => rec.taskId
  | archived rec => rec.taskId

/-- The payload schemas. -/
def specsSchemas : SpecEvent → Except String Unit
  | .drafted rec _ => do
    minLength1 "taskId" rec.taskId
    minLength1 "title" rec.title
    minLength1 "goal" rec.goal
    rec.criteria.zipIdx.forM fun (criterion, i) =>
      minLength1 s!"criteria.{i}.text" criterion.text
  | .locked rec => do
    minLength1 "taskId" rec.taskId
    minLength1 "lockedBy" rec.lockedBy
  | .archived rec => minLength1 "taskId" rec.taskId

/-! ## The projector -/

/-- A row of `specs`. -/
structure StoredSpec where
  taskId : String
  title : String
  goal : String
  criteria : List Plans.Criterion
  body : String
  state : SpecState
  lockedBy : Option String := none
  draftedTs : ℕ
  lockedTs : Option ℕ := none
  archivedTs : Option ℕ := none
deriving DecidableEq, Repr

abbrev SpecRows := Table StoredSpec.taskId

def selectSpec (t : SpecRows) (taskId : String) : Option StoredSpec := t.find? taskId

def sameDraft (existing : StoredSpec) (rec : SpecDrafted) : Prop :=
  existing.title = rec.title ∧ existing.goal = rec.goal ∧ existing.body = rec.body ∧
    existing.criteria = rec.criteria

instance (existing : StoredSpec) (rec : SpecDrafted) : Decidable (sameDraft existing rec) :=
  inferInstanceAs (Decidable (_ ∧ _ ∧ _ ∧ _))

def relockRefusal (existing : StoredSpec) (rec : SpecLocked) : String :=
  s!"specs: spec '{rec.taskId}' is already locked by '" ++
    existing.lockedBy.getD "undefined" ++ s!"' — refusing re-lock by '{rec.lockedBy}'"

/-- The record, if the event repeats the step that led to it; an error, if it must not happen. -/
def validateSpecTransition (t : SpecRows) (event : SpecEvent) :
    Except String (Option StoredSpec) :=
  let taskId := event.taskId
  match event, selectSpec t taskId with
  | .drafted _ _, none => pure none
  | .drafted rec _, some existing =>
    if sameDraft existing rec then pure (some existing)
    else
      throw (s!"specs: spec '{taskId}' already exists with different content — refusing " ++
        "conflicting re-draft")
  | .locked _, none => throw s!"specs: cannot lock spec '{taskId}' — no draft exists"
  | .locked rec, some existing =>
    match existing.state with
    | .archived => throw s!"specs: cannot lock spec '{taskId}' — already archived"
    | .locked =>
      if existing.lockedBy = some rec.lockedBy then pure (some existing)
      else throw (relockRefusal existing rec)
    | .draft => pure none
  | .archived _, none => throw s!"specs: cannot archive spec '{taskId}' — no draft exists"
  | .archived _, some existing =>
    if existing.state = .archived then pure (some existing) else pure none

def SpecLocked.set (rec : SpecLocked) (ts : ℕ) : Table.Update StoredSpec.taskId where
  run row := { row with
    state := .locked
    lockedBy := some rec.lockedBy
    lockedTs := some ts }

def SpecArchived.set (ts : ℕ) : Table.Update StoredSpec.taskId where
  run row := { row with
    state := .archived
    archivedTs := some ts }

/-- The row of a new draft. -/
def SpecDrafted.row (rec : SpecDrafted) (ts : ℕ) : StoredSpec where
  taskId := rec.taskId
  title := rec.title
  goal := rec.goal
  criteria := rec.criteria
  body := rec.body
  state := .draft
  draftedTs := ts

/-- The specs projector. -/
def SpecsProjector.apply (t : SpecRows) (entry : Entry SpecEvent) : Except String SpecRows := do
  match ← validateSpecTransition t entry.event with
  | some _ => return t
  | none =>
    match entry.event with
    | .drafted rec _ =>
      orThrow (t.insert? (rec.row entry.ts)) "UNIQUE constraint failed: specs.task_id"
    | .locked rec => return t.updateWhere (·.taskId == rec.taskId) (rec.set entry.ts)
    | .archived rec => return t.updateWhere (·.taskId == rec.taskId) (SpecArchived.set entry.ts)

/-- How the specs of a project are folded from its log. -/
def specs : Projection SpecEvent SpecRows String where
  empty := {}
  number seq := refuse (Js.maxSafeInteger < seq)
    s!"Value is too large to be represented as a JavaScript number: {seq}"
  schema := specsSchemas
  apply := SpecsProjector.apply

/-! ## The store -/

abbrev SpecLog := Store SpecEvent SpecRows

abbrev SpecProc (α : Type) := Proc SpecLog String α

namespace SpecStore

/-- Record a step under its `verb`, or find that it was taken already. -/
def record (verb : String) (event : SpecEvent) : SpecProc StoredSpec :=
  specs.settle (validateSpecTransition · event) event fun t =>
    orThrow (selectSpec t event.taskId)
      s!"openSpecStore.{verb}: row missing after projection (taskId='{event.taskId}')"

def recordDraft (rec : SpecDrafted) (actor : String) : SpecProc StoredSpec :=
  record "recordDraft" (.drafted rec actor)

def recordLock (taskId lockedBy : String) : SpecProc StoredSpec :=
  record "recordLock" (.locked { taskId, lockedBy })

def recordArchive (taskId : String) : SpecProc StoredSpec :=
  record "recordArchive" (.archived { taskId })

def getSpec (taskId : String) : SpecProc (Option StoredSpec) :=
  transaction do
    let s ← get
    return selectSpec s.tables taskId

end SpecStore

/-! ## Before a lock is recorded -/

/-- The violations, one on each line. -/
def enumerate (violations : List Plans.CriterionViolation) : String :=
  "\n".intercalate <| violations.map fun v =>
    s!"  - criterion {v.index} (\"{v.text}\"): {v.reason}"

instance : ToString SpecState where
  toString
    | .draft => "draft"
    | .locked => "locked"
    | .archived => "archived"

/-- What is checked of a spec before it is locked. -/
def lockChecks (taskId : String) (found : Option StoredSpec) : Except String Unit := do
  let spec ← orThrow found s!"no spec record for task '{taskId}' — draft it before locking."
  refuse (spec.state ≠ .draft)
    s!"spec '{taskId}' is in state '{spec.state}', not 'draft' — only a draft can be locked."
  let violations := validateCriteria spec.criteria
  refuse (violations.length > 0)
    (s!"refusing to lock '{taskId}' — {violations.length} criterion violation(s); fix the " ++
      s!"criteria and re-draft:\n{enumerate violations}")

/-- Freeze the criteria of a draft. -/
def lockSpec (taskId lockedBy : String) : SpecProc StoredSpec := do
  let spec ← SpecStore.getSpec taskId
  lockChecks taskId spec
  SpecStore.recordLock taskId lockedBy

/-- What is checked of a draft before it is recorded. -/
def draftChecks (rec : SpecDrafted) : Except String Unit :=
  let violations := validateCriteria rec.criteria
  refuse (violations.length > 0)
    (s!"co_spec_draft: refusing to draft '{rec.taskId}' — {violations.length} criterion " ++
      s!"violation(s); draft criteria must be lockable:\n{enumerate violations}")

/-- `co_spec_draft`, once the caller is known to be a coordinator. -/
def specDraftTool (agent : String) (rec : SpecDrafted) : SpecProc StoredSpec := do
  draftChecks rec
  SpecStore.recordDraft rec agent

/-- What is checked of a spec before it is archived. -/
def archiveChecks (taskId : String) (found : Option StoredSpec) : Except String Unit := do
  let spec ← orThrow found
    (s!"co_spec_archive: no spec record for task '{taskId}' — draft and lock it before " ++
      "archiving.")
  refuse (spec.state ≠ .locked)
    (s!"co_spec_archive: spec '{taskId}' is in state '{spec.state}', not 'locked' — only a " ++
      "locked spec can be archived.")

/-- `co_spec_archive`, once the caller is known to be a coordinator. -/
def specArchiveTool (taskId : String) : SpecProc StoredSpec := do
  let spec ← SpecStore.getSpec taskId
  archiveChecks taskId spec
  SpecStore.recordArchive taskId

end Orchestration.Specs
