import Orchestration.Store.Log

/-!
# The archive store

A record is appended or removed in one transaction with its fold.
-/

namespace Orchestration.Archive

open Fallible Transaction

/-- The projectors of an archive store. -/
def archiveProjectors : List Projector := [.archive]

/-- An archive event as the project log carries it. -/
def toProject (event : NewEvent ArchiveEvent) : NewEvent Payload :=
  event.withPayload (.archive event.payload)

def appendRecord (projectId : String) (rec : ArchiveAppended) : StoreTx ArchiveAppended := do
  let event ← makeArchiveAppendedEvent projectId rec
  let _ ← record archiveProjectors (toProject event)
  let db ← get
  orThrow (selectArchive db.archive rec.id)
    s!"openArchiveStore.appendRecord: row missing after projection (id='{rec.id}')"

/-- Remove the record of an id, if there is one. -/
def removeRecord (projectId id : String) : StoreTx (Option ArchiveAppended) := do
  let db ← get
  match selectArchive db.archive id with
  | none => return none
  | some existing =>
    let event ← makeArchiveRemovedEvent projectId id
    let _ ← record archiveProjectors (toProject event)
    return some existing

/-! ## What the operations commit -/

/-- The store appends nothing but archive events. -/
def ArchiveEvents : EventClass := fun _ event => ∃ payload, event.payload = .archive payload

/-- Recording an archive event with the store's projectors is committing it. -/
theorem record_archive {event : NewEvent ArchiveEvent} {db db' : Db} {stored : StoredEvent Payload}
    (h : record archiveProjectors (toProject event) db = .ok (stored, db')) :
    db.commit (toProject event) = .ok db' := by
  have howns : Owns archiveProjectors (toProject event).payload := rfl
  exact ((record_eq_ok howns).1 h).2

theorem appendRecord_spec {projectId : String} {rec row : ArchiveAppended} {db db' : Db}
    (h : appendRecord projectId rec db = .ok (row, db')) : Emits ArchiveEvents db db' := by
  obtain ⟨event, -, h⟩ := Tx.liftM_bind_eq_ok.1 h
  obtain ⟨_, mid, hrecord, h⟩ := Tx.bind_eq_ok.1 h
  rw [Tx.get_bind, Tx.liftM_eq_ok] at h
  exact h.2 ▸ Emits.single ⟨_, rfl⟩ (record_archive hrecord)

theorem removeRecord_spec {projectId id : String} {row : Option ArchiveAppended} {db db' : Db}
    (h : removeRecord projectId id db = .ok (row, db')) : Emits ArchiveEvents db db' := by
  rw [removeRecord, Tx.get_bind] at h
  cases hexisting : selectArchive db.archive id with
  | none =>
    simp only [hexisting, Tx.pure_eq_ok] at h
    exact h.2 ▸ .refl
  | some existing =>
    simp only [hexisting] at h
    obtain ⟨event, -, h⟩ := Tx.liftM_bind_eq_ok.1 h
    obtain ⟨_, mid, hrecord, h⟩ := Tx.bind_eq_ok.1 h
    rw [Tx.pure_eq_ok] at h
    exact h.2 ▸ Emits.single ⟨_, rfl⟩ (record_archive hrecord)

/-! ## Calls -/

/-- A call of the archive store. -/
inductive ArchiveCall where
  | appendRecord (projectId : String) (rec : ArchiveAppended)
  | removeRecord (projectId id : String)
deriving DecidableEq, Repr

/-- The database after a call. -/
def ArchiveCall.exec : ArchiveCall → Db → Db
  | appendRecord projectId rec => (transaction (Archive.appendRecord projectId rec)).exec
  | removeRecord projectId id => (transaction (Archive.removeRecord projectId id)).exec

theorem ArchiveCall.exec_emits {db : Db} (call : ArchiveCall) :
    Emits ArchiveEvents db (call.exec db) := by
  cases call with
  | appendRecord projectId rec => exact Proc.exec_transaction .refl fun _ _ h => appendRecord_spec h
  | removeRecord projectId id => exact Proc.exec_transaction .refl fun _ _ h => removeRecord_spec h

end Orchestration.Archive
