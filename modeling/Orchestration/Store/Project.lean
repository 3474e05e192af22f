import Orchestration.Archive.Projector
import Orchestration.Dispatch.CostProjector
import Orchestration.Dispatch.PlacementProjector
import Orchestration.Dispatch.UsageProjector
import Orchestration.Library.Transaction
import Orchestration.Mail.Projector
import Orchestration.Plans.Projector
import Orchestration.Review.Projector
import Orchestration.Roles.Projector
import Orchestration.Session.Projector
import Orchestration.Worktrees.Projector

/-!
# The project store

One append-only log and the read models folded from it. A store operation runs
in a transaction that appends events and folds each of them with the projectors
the store owns; the log and the read models commit together or not at all.
-/

namespace Orchestration

open Fallible Transaction

/-- What an event of the project log carries, by domain. -/
inductive Payload where
  | mail (event : Mail.MailEvent)
  | review (event : Review.ReviewEvent)
  | worktree (event : Worktrees.WorktreeEvent)
  | dispatch (event : Dispatch.DispatchEvent)
  | plan (event : Plans.PlanEvent)
  | roles (event : Roles.RolesEvent)
  | session (event : Session.SessionEvent)
  | archive (event : Archive.ArchiveEvent)
deriving DecidableEq, Repr

namespace Payload

def typeName : Payload → String
  | .mail event => event.typeName
  | .review event => event.typeName
  | .worktree event => event.typeName
  | .dispatch event => event.typeName
  | .plan event => event.typeName
  | .roles event => event.typeName
  | .session event => event.typeName
  | .archive event => event.typeName

/-- The current schema of every event type. -/
def schema : Payload → Except String Payload
  | .mail event => return .mail (← Mail.mailSchemas event)
  | .review event => return .review (← Review.reviewSchemas event)
  | .worktree event => return .worktree (← Worktrees.worktreeSchemas event)
  | .dispatch event => return .dispatch (← Dispatch.dispatchSchemas event)
  | .plan event => return .plan (← Plans.plansSchemas event)
  | .roles event => return .roles (← Roles.rolesSchemas event)
  | .session event => return .session (← Session.sessionSchemas event)
  | .archive event => return .archive (← Archive.archiveSchemas event)

end Payload

/-- The read models of a project, all folded from its log. -/
structure Projections where
  mail : Mail.MailTables := {}
  review : Review.ReviewTables := {}
  worktrees : Worktrees.WorktreeTables := .empty
  usage : Dispatch.UsageTables := {}
  cost : Dispatch.CostTables := .empty
  placement : Dispatch.PlacementTables := {}
  toolUsage : Dispatch.ToolUsageTables := {}
  plans : Plans.PlansTables := {}
  roster : Roles.RosterTables := {}
  sessions : Session.SessionTables := {}
  archive : Archive.ArchiveTables := {}

/-- A project database: the log, the projections, and the wall clock that each append reads. -/
structure Db extends Projections where
  clock : ℕ → ℕ
  events : List (StoredEvent Payload) := []

namespace Db

/-- A new database under a clock that stands still. -/
def atRest : Db := { clock := fun _ => 0 }

/-- The `seq` of the next event: the log is never pruned and a rollback gives numbers back,
so the events are numbered from 1 without gaps. -/
def nextSeq (db : Db) : ℕ := db.events.length + 1

/-- The next event as the log stores it, its time read from the clock at the append. -/
def stored (db : Db) (event : NewEvent Payload) : StoredEvent Payload :=
  { event with seq := db.nextSeq, ts := db.clock db.nextSeq }

/-- The log with one more event. -/
def push (db : Db) (event : NewEvent Payload) : Db :=
  { db with events := db.events ++ [db.stored event] }

end Db

/-- The body of a project-store transaction. -/
abbrev StoreTx (α : Type) := Tx Db String α

/-- A caller of project stores. -/
abbrev StoreProc (α : Type) := Proc Db String α

/-- Insert one event. A `seq` that JavaScript cannot represent is refused by the driver. -/
def insertEvent (event : NewEvent Payload) : StoreTx (StoredEvent Payload) := do
  let db ← get
  refuse (Js.maxSafeInteger < db.nextSeq)
    s!"Value is too large to be represented as a JavaScript number: {db.nextSeq}"
  set (db.push event)
  return db.stored event

/-- Append `events` in order; they get consecutive numbers. -/
def append (events : List (NewEvent Payload)) : StoreTx (List (StoredEvent Payload)) :=
  events.mapM insertEvent

/-- Lift a stored event to the current version and check it against the current schema. -/
def decode (event : StoredEvent Payload) : Except String (StoredEvent Payload) := do
  let payload ← upcast event.payload.typeName event.v event.payload
  let payload ← payload.schema
  return event.withPayload payload

/-! ## Projectors -/

/-- The projectors of a project, each the owner of one read model. -/
inductive Projector where
  | mail
  | review
  | worktrees
  | usage
  | cost
  | placement
  | toolUsage
  | plans
  | roster
  | session
  | archive
deriving DecidableEq, Repr

/-- The projector that folds a payload. -/
def Payload.projector : Payload → Projector
  | .mail _ => .mail
  | .review _ => .review
  | .worktree _ => .worktrees
  | .dispatch (.usageObserved _) => .usage
  | .dispatch (.costRecorded _) => .cost
  | .dispatch (.costNearBudget _) => .cost
  | .dispatch (.placementDecided _) => .placement
  | .dispatch (.toolInvoked _) => .toolUsage
  | .plan _ => .plans
  | .roles _ => .roster
  | .session _ => .session
  | .archive _ => .archive

/-- The costs that the log records. -/
def costEvents (log : List (StoredEvent Payload)) : List Dispatch.CostRecorded :=
  log.filterMap fun event =>
    match event.payload with
    | .dispatch (.costRecorded p) => some p
    | _ => none

/-- The finishes that the log records, with their numbers. -/
def finishEvents (log : List (StoredEvent Payload)) : List (ℕ × Worktrees.FinishRecorded) :=
  log.filterMap fun event =>
    match event.payload with
    | .worktree (.finish f) => some (event.seq, f)
    | _ => none

namespace Projector

/-- The event types a projector folds. -/
def handles (projector : Projector) (payload : Payload) : Bool := payload.projector == projector

/-- Clear a projector's tables. -/
def reset (t : Projections) : Projector → Projections
  | .mail => { t with mail := {} }
  | .review => { t with review := {} }
  | .worktrees => { t with worktrees := .empty }
  | .usage => { t with usage := {} }
  | .cost => { t with cost := .empty }
  | .placement => { t with placement := {} }
  | .toolUsage => { t with toolUsage := {} }
  | .plans => { t with plans := {} }
  | .roster => { t with roster := {} }
  | .session => { t with sessions := {} }
  | .archive => { t with archive := {} }

/-- Fold one decoded event into a projector's own tables, with the log at hand. -/
def apply (log : List (StoredEvent Payload)) (projector : Projector) (t : Projections)
    (event : StoredEvent Payload) : Except String Projections :=
  match projector, event.payload with
  | .mail, .mail payload =>
    return { t with mail := ← Mail.MailProjector.apply t.mail (event.withPayload payload) }
  | .review, .review payload =>
    return { t with review := ← Review.ReviewProjector.apply t.review (event.withPayload payload) }
  | .worktrees, .worktree payload =>
    return { t with
      worktrees :=
        ← Worktrees.WorktreeProjector.apply (finishEvents log) t.worktrees
          (event.withPayload payload) }
  | .usage, .dispatch (.usageObserved obs) =>
    return { t with
      usage := ← Dispatch.UsageProjector.apply t.usage (event.withPayload (.usageObserved obs)) obs }
  | .cost, .dispatch payload =>
    return { t with
      cost := ← Dispatch.CostProjector.apply (costEvents log) t.cost (event.withPayload payload) }
  | .placement, .dispatch (.placementDecided decided) =>
    return { t with
      placement := ← Dispatch.PlacementProjector.apply t.placement
        (event.withPayload (.placementDecided decided)) decided }
  | .toolUsage, .dispatch (.toolInvoked inv) =>
    return { t with
      toolUsage := ← Dispatch.ToolUsageProjector.apply t.toolUsage
        (event.withPayload (.toolInvoked inv)) inv }
  | .plans, .plan payload =>
    return { t with plans := ← Plans.PlansProjector.apply t.plans (event.withPayload payload) }
  | .roster, .roles payload =>
    return { t with roster := ← Roles.RosterProjector.apply t.roster (event.withPayload payload) }
  | .session, .session payload =>
    return { t with
      sessions := ← Session.SessionProjector.apply t.sessions (event.withPayload payload) }
  | .archive, .archive payload =>
    return { t with archive := ← Archive.ArchiveProjector.apply t.archive (event.withPayload payload) }
  | _, _ => return t

/-- No projector's fold depends on the rest of the log. -/
theorem apply_log (log log' : List (StoredEvent Payload)) (projector : Projector) (t : Projections)
    (event : StoredEvent Payload) : projector.apply log t event = projector.apply log' t event := by
  unfold apply
  split
  case h_3 =>
    rw [Worktrees.WorktreeProjector.apply_log (finishEvents log) (finishEvents log')]
  case h_5 => rw [Dispatch.CostProjector.apply_log (costEvents log) (costEvents log')]
  all_goals rfl

end Projector

/-- Route the event to every projector of the list that handles it, in order. -/
def applyEvent (log : List (StoredEvent Payload)) (projectors : List Projector) (t : Projections)
    (event : StoredEvent Payload) : Except String Projections :=
  projectors.foldlM
    (fun t projector =>
      if projector.handles event.payload then projector.apply log t event else pure t) t

/-- Decode one appended event and fold it with the projectors a store owns. -/
def applyStored (projectors : List Projector) (event : StoredEvent Payload) : StoreTx Unit := do
  let decoded ← decode event
  let db ← get
  let projections ← applyEvent db.events projectors db.toProjections decoded
  set { db with toProjections := projections }

/-- Append one event and fold it. -/
def record (projectors : List Projector) (event : NewEvent Payload) :
    StoreTx (StoredEvent Payload) := do
  let stored ← insertEvent event
  applyStored projectors stored
  return stored

/-- Append several events, then fold them in order. -/
def recordAll (projectors : List Projector) (events : List (NewEvent Payload)) :
    StoreTx (List (StoredEvent Payload)) := do
  let stored ← append events
  stored.forM (applyStored projectors)
  return stored

/-! ## One committed event -/

/-- Decode one event and fold it with the projector of its type. -/
def foldEvent (t : Projections) (event : StoredEvent Payload) : Except String Projections := do
  let decoded ← decode event
  decoded.payload.projector.apply [] t decoded

/-- Decode and fold `events` in order. -/
def foldEvents (t : Projections) (events : List (StoredEvent Payload)) :
    Except String Projections :=
  events.foldlM foldEvent t

namespace Db

/-- The database after one more event was appended and folded. -/
def commit (db : Db) (event : NewEvent Payload) : Except String Db := do
  refuse (Js.maxSafeInteger < db.nextSeq)
    s!"Value is too large to be represented as a JavaScript number: {db.nextSeq}"
  let projections ← foldEvent db.toProjections (db.stored event)
  return { db.push event with toProjections := projections }

/-- Events committed one after the other. -/
def commitAll (db : Db) (events : List (NewEvent Payload)) : Except String Db :=
  events.foldlM commit db

end Db

/-- A store's projectors fold the payload once, with the projector of its type. -/
def Owns (projectors : List Projector) (payload : Payload) : Prop :=
  projectors.filter (·.handles payload) = [payload.projector]

theorem decode_projector {event decoded : StoredEvent Payload} (h : decode event = .ok decoded) :
    decoded.payload.projector = event.payload.projector := by
  simp only [decode, upcast, bind_eq_ok, pure_eq_ok] at h
  obtain ⟨payload, hup, payload', hschema, rfl⟩ := h
  have hpayload : payload = event.payload := by
    split at hup
    · exact nomatch hup
    · exact (pure_eq_ok.1 hup).symm
  subst hpayload
  cases hp : event.payload <;>
    simp only [hp, Payload.schema, bind_eq_ok, pure_eq_ok] at hschema <;>
    obtain ⟨_, haccept, rfl⟩ := hschema
  case dispatch =>
    obtain rfl := Dispatch.dispatchSchemas_eq haccept
    rfl
  all_goals rfl

theorem applyEvent_of_owns {projectors : List Projector} {event : StoredEvent Payload}
    (h : Owns projectors event.payload) (log : List (StoredEvent Payload)) (t : Projections) :
    applyEvent log projectors t event = event.payload.projector.apply [] t event := by
  have hfilter : applyEvent log projectors t event =
      (projectors.filter (·.handles event.payload)).foldlM (fun t p => p.apply [] t event) t := by
    simp only [applyEvent, Projector.apply_log log []]
    clear h
    induction projectors generalizing t with
    | nil => rfl
    | cons p ps ih =>
      simp only [List.foldlM_cons, List.filter_cons]
      split
      · simp only [List.foldlM_cons]
        congr 1
        funext t'
        exact ih t'
      · simpa using ih t
  rw [hfilter, h]
  simp

theorem Owns.decoded {projectors : List Projector} {event decoded : StoredEvent Payload}
    (h : Owns projectors event.payload) (hdecode : decode event = .ok decoded) :
    Owns projectors decoded.payload := by
  unfold Owns Projector.handles at h ⊢
  rw [decode_projector hdecode]
  exact h

theorem applyStored_eq_ok {projectors : List Projector} {event : StoredEvent Payload}
    (h : Owns projectors event.payload) {db db' : Db} {u : Unit} :
    applyStored projectors event db = .ok (u, db') ↔
      ∃ t, foldEvent db.toProjections event = .ok t ∧ db' = { db with toProjections := t } := by
  simp only [applyStored, foldEvent, Tx.bind_eq_ok, bind_eq_ok, Tx.liftM_eq_ok, Tx.get_eq_ok,
    Tx.set_eq_ok]
  constructor
  · rintro ⟨decoded, s, ⟨hd, rfl⟩, _, _, ⟨rfl, rfl⟩, t, s, ⟨ht, rfl⟩, rfl⟩
    rw [applyEvent_of_owns (h.decoded hd)] at ht
    exact ⟨t, ⟨decoded, hd, ht⟩, rfl⟩
  · rintro ⟨t, ⟨decoded, hd, ht⟩, rfl⟩
    rw [← applyEvent_of_owns (h.decoded hd)] at ht
    exact ⟨decoded, db, ⟨hd, rfl⟩, db, db, ⟨rfl, rfl⟩, t, db, ⟨ht, rfl⟩, rfl⟩

theorem insertEvent_eq_ok {event : NewEvent Payload} {db db' : Db} {s : StoredEvent Payload} :
    insertEvent event db = .ok (s, db') ↔
      db.nextSeq ≤ Js.maxSafeInteger ∧ s = db.stored event ∧ db' = db.push event := by
  simp only [insertEvent, Tx.bind_eq_ok, Tx.get_eq_ok, Tx.liftM_eq_ok, refuse_eq_ok,
    Tx.set_eq_ok, Tx.pure_eq_ok]
  constructor
  · rintro ⟨_, _, ⟨rfl, rfl⟩, _, _, ⟨hle, rfl⟩, _, _, rfl, rfl, rfl⟩
    exact ⟨Nat.le_of_not_lt hle, rfl, rfl⟩
  · rintro ⟨hle, rfl, rfl⟩
    exact ⟨db, db, ⟨rfl, rfl⟩, (), db, ⟨Nat.not_lt.2 hle, rfl⟩, ⟨⟩, _, rfl, rfl, rfl⟩

theorem commit_eq_ok {event : NewEvent Payload} {db db' : Db} :
    db.commit event = .ok db' ↔ db.nextSeq ≤ Js.maxSafeInteger ∧
      ∃ t, foldEvent db.toProjections (db.stored event) = .ok t ∧
        db' = { db.push event with toProjections := t } := by
  simp only [Db.commit, bind_eq_ok, refuse_eq_ok, pure_eq_ok, exists_const, Nat.not_lt]
  constructor
  · rintro ⟨hle, t, ht, rfl⟩
    exact ⟨hle, t, ht, rfl⟩
  · rintro ⟨hle, t, ht, rfl⟩
    exact ⟨hle, t, ht, rfl⟩

/-- Recording one event with a store's own projectors is committing it. -/
theorem record_eq_ok {projectors : List Projector} {event : NewEvent Payload}
    (h : Owns projectors event.payload) {db db' : Db} {s : StoredEvent Payload} :
    record projectors event db = .ok (s, db') ↔
      s = db.stored event ∧ db.commit event = .ok db' := by
  have hstored : Owns projectors (db.stored event).payload := h
  simp only [record, Tx.bind_eq_ok, insertEvent_eq_ok, Tx.pure_eq_ok, commit_eq_ok]
  constructor
  · rintro ⟨_, _, ⟨hle, rfl, rfl⟩, _, _, happly, rfl, rfl⟩
    obtain ⟨t, ht, rfl⟩ := (applyStored_eq_ok hstored).1 happly
    exact ⟨rfl, hle, t, ht, rfl⟩
  · rintro ⟨rfl, hle, t, ht, rfl⟩
    exact ⟨_, _, ⟨hle, rfl, rfl⟩, (), _,
      (applyStored_eq_ok hstored).2 ⟨t, ht, rfl⟩, rfl, rfl⟩

end Orchestration
