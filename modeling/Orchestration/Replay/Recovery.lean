import Orchestration.Archive.Store
import Orchestration.Dispatch.Store
import Orchestration.Library.Loop
import Orchestration.Library.Run
import Orchestration.Mail.Calls
import Orchestration.Plans.Store
import Orchestration.Roles.Store
import Orchestration.Session.Store
import Orchestration.Worktrees.Store

/-!
# Recovery

Recovery drops every projection of a project and folds its whole log again, with
the projectors of all stores and one decode. Each store has folded its own
events with its own projectors when it appended them; the projections that
recovery arrives at are the ones they left.
-/

namespace Orchestration.Replay

open Fallible Transaction

/-! ## Calls of any store -/

/-- A call of one of the stores that share a project log. -/
inductive StoreCall where
  | mail (delivery : Mail.Delivery) (call : Mail.MailCall)
  | review (call : Review.ReviewCall)
  | worktree (call : Worktrees.WorktreeCall)
  | dispatch (call : Dispatch.DispatchCall)
  | plan (call : Plans.PlanCall)
  | roster (call : Roles.RosterCall)
  | session (call : Session.SessionCall)
  | archive (call : Archive.ArchiveCall)

/-- The database after a call. -/
def StoreCall.exec : StoreCall → Db → Db
  | mail delivery call => call.exec delivery
  | review call => call.exec
  | worktree call => call.exec
  | dispatch call => call.exec
  | plan call => call.exec
  | roster call => call.exec
  | session call => call.exec
  | archive call => call.exec

/-- The database after `calls`. -/
abbrev storeRun (calls : List StoreCall) (db : Db) : Db := Run.after StoreCall.exec calls db

/-- Whatever a call does, it appends events to the log and folds them. -/
theorem StoreCall.exec_emits {db : Db} (h : Consistent db) (call : StoreCall) :
    Emits AnyEvent db (call.exec db) := by
  have hany : ∀ {P : EventClass} {db' : Db}, Emits P db db' → Emits AnyEvent db db' :=
    fun hemits => hemits.mono fun _ _ _ => trivial
  cases call with
  | mail delivery call => exact Mail.MailCall.exec_any h
  | review call => exact hany (call.exec_emits h)
  | worktree call => exact hany call.exec_emits
  | dispatch call => exact hany (call.exec_emits h)
  | plan call => exact hany call.exec_emits
  | roster call => exact hany call.exec_emits
  | session call => exact hany call.exec_emits
  | archive call => exact hany call.exec_emits

/-- The projectors that fold what a call appends. -/
def StoreCall.folders : StoreCall → List Projector
  | mail _ _ => [.mail, .review]
  | review _ => [.review]
  | worktree _ => [.worktrees, .mail]
  | dispatch _ => [.usage, .cost, .placement, .toolUsage, .review]
  | plan _ => [.plans]
  | roster _ => [.roster]
  | session _ => [.session]
  | archive _ => [.archive]

/-- What a call appends is folded by the projectors of its domain. -/
theorem StoreCall.exec_folders {db : Db} (h : Consistent db) (call : StoreCall) :
    Emits (fun _ event => event.payload.projector ∈ call.folders) db (call.exec db) := by
  cases call with
  | mail delivery call =>
    refine (Mail.MailCall.exec_writes h).mono fun s event hevent => ?_
    obtain ⟨payload, hpayload⟩ | ⟨payload, hpayload⟩ := hevent
    · rw [hpayload]; exact List.mem_cons_self
    · rw [hpayload]; exact List.mem_cons_of_mem _ List.mem_cons_self
  | review call =>
    refine (call.exec_emits h).mono fun s event hevent => ?_
    obtain ⟨payload, hpayload⟩ := hevent
    rw [hpayload]; exact List.mem_cons_self
  | worktree call =>
    refine call.exec_emits.mono fun s event hevent => ?_
    obtain ⟨payload, hpayload⟩ | ⟨type, payload, hpayload⟩ := hevent
    · rw [hpayload]; exact List.mem_cons_self
    · rw [hpayload]; exact List.mem_cons_of_mem _ List.mem_cons_self
  | dispatch call =>
    refine (call.exec_emits h).mono fun s event hevent => ?_
    obtain ⟨payload, hpayload⟩ | ⟨request, hcarries⟩ := hevent
    · rw [hpayload]
      cases payload with
      | _ => simp [folders, Payload.projector]
    · rw [hcarries.payload_eq]
      simp [folders, Payload.projector]
  | plan call =>
    refine call.exec_emits.mono fun s event hevent => ?_
    obtain ⟨payload, hpayload⟩ := hevent
    rw [hpayload]; exact List.mem_cons_self
  | roster call =>
    refine call.exec_emits.mono fun s event hevent => ?_
    obtain ⟨payload, hpayload⟩ := hevent
    rw [hpayload]; exact List.mem_cons_self
  | session call =>
    refine call.exec_emits.mono fun s event hevent => ?_
    obtain ⟨payload, hpayload⟩ := hevent
    rw [hpayload]; exact List.mem_cons_self
  | archive call =>
    refine call.exec_emits.mono fun s event hevent => ?_
    obtain ⟨payload, hpayload⟩ := hevent
    rw [hpayload]; exact List.mem_cons_self

/-- A call leaves the read models of the other domains as they are. -/
theorem StoreCall.exec_same {db : Db} (h : Consistent db) {call : StoreCall} {p : Projector}
    (hp : p ∉ call.folders) : db.toProjections.Same (call.exec db).toProjections p :=
  (call.exec_folders h).same fun _ _ hevent heq => hp (heq ▸ hevent)

theorem StoreCall.exec_consistent {db : Db} (h : Consistent db) (call : StoreCall) :
    Consistent (call.exec db) := h.emits (call.exec_emits h)

theorem storeRun_consistent {calls : List StoreCall} {db : Db} (h : Consistent db) :
    Consistent (storeRun calls db) :=
  Run.always Consistent (fun call _ hs => StoreCall.exec_consistent hs call) h

/-! ## The replay -/

/-- The projectors of the project store, each once. Those of the stores that are not modelled here
fold none of the events of the ones that are. -/
def buildProjectProjectors : List Projector :=
  [.roster, .plans, .mail, .review, .session, .placement, .worktrees, .cost, .toolUsage, .usage,
    .archive]

/-- How many events a replay reads at a time. -/
def REPLAY_PAGE_SIZE : ℕ := 1000

/-- Decode one event of the log and route it to the projectors. -/
def replayEvent (log : List (StoredEvent Payload)) (projectors : List Projector) (t : Projections)
    (event : StoredEvent Payload) : Except String Projections := do
  let decoded ← decode event
  applyEvent log projectors t decoded

/-- Reset every projection, then fold the whole log again, page by page. -/
def replayInto (projectors : List Projector) : StoreTx Unit := do
  let db ← get
  let t := projectors.foldl (fun t projector => projector.reset t) db.toProjections
  let t ← Loop.foldPages (·.seq) REPLAY_PAGE_SIZE db.events (replayEvent db.events projectors) 0 t
  set { db with toProjections := t }

/-- The replay as one transaction: all of it or nothing. -/
def rebuildAll (projectors : List Projector) : StoreProc Unit := transaction (replayInto projectors)

def recoverProjectStore : StoreProc Unit := rebuildAll buildProjectProjectors

/-! ## What the replay arrives at -/

/-- The project's projectors fold every event once. -/
theorem owns_project (payload : Payload) : Owns buildProjectProjectors payload := by
  cases payload with
  | dispatch event => cases event <;> rfl
  | _ => rfl

/-- The replay folds an event as the store that appended it did. -/
theorem replayEvent_eq (log : List (StoredEvent Payload)) (t : Projections)
    (event : StoredEvent Payload) :
    replayEvent log buildProjectProjectors t event = foldEvent t event := by
  unfold replayEvent foldEvent
  exact bind_congr fun decoded => applyEvent_of_owns (owns_project _) log t

/-- Recovery of a database whose projections are the fold of its log changes nothing. -/
theorem recoverProjectStore_eq {db : Db} (h : Consistent db) :
    recoverProjectStore db = (.ok (), db) := by
  have hall : (db.events.filter fun event => 0 < event.seq) = db.events :=
    List.filter_eq_self.2 fun event hevent => by simpa using (h.seq_le hevent).1
  have hfold : Loop.foldPages (·.seq) REPLAY_PAGE_SIZE db.events
      (replayEvent db.events buildProjectProjectors) 0 {} = .ok db.toProjections := by
    have hpaged := @Loop.foldPages_eq _ _ _ (fun event : StoredEvent Payload => event.seq)
      REPLAY_PAGE_SIZE db.events (replayEvent db.events buildProjectProjectors) (by decide)
      h.sorted 0 {}
    rw [hpaged, hall]
    have hsame : replayEvent db.events buildProjectProjectors = foldEvent := by
      funext t event
      exact replayEvent_eq db.events t event
    rw [hsame]
    exact h.replayed
  refine transaction_eq_ok.2 ?_
  refine Tx.bind_eq_ok.2 ⟨db, db, Tx.get_eq_ok.2 ⟨rfl, rfl⟩, ?_⟩
  refine Tx.liftM_bind_eq_ok.2 ⟨db.toProjections, hfold, ?_⟩
  exact Tx.set_eq_ok.2 rfl

/-- Whatever the stores of a project did, in whatever order: recovery does not fail, and it leaves
every projection as they left it. -/
theorem replay_equality (clock : ℕ → ℕ) (calls : List StoreCall) :
    recoverProjectStore (storeRun calls { clock }) = (.ok (), storeRun calls { clock }) :=
  recoverProjectStore_eq (storeRun_consistent (.empty clock))

end Orchestration.Replay
