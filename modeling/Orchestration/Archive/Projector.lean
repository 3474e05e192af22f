import Orchestration.Dispatch.Events
import Orchestration.Library.Table

/-!
# The archive

One row for each deleted agent whose branch was kept, until it expires.
Archiving the same record again changes nothing; a different one under the same
id is refused.
-/

namespace Orchestration.Archive

open Fallible
open Dispatch (safeInt)

/-- How long a record is kept, in milliseconds: 14 days. -/
def ARCHIVE_TTL_MS : ℕ := 14 * 24 * 60 * 60 * 1000

def archiveScope (id : String) : String := "archive:" ++ id

structure ArchiveAppended where
  id : String
  name : String
  branch : String
  baseRef : String
  deletedAt : ℕ
  expiresAt : ℕ
deriving DecidableEq, Repr

/-- What an archive event carries. -/
inductive ArchiveEvent where
  | appended (rec : ArchiveAppended)
  | removed (id : String)
deriving DecidableEq, Repr

def ArchiveEvent.typeName : ArchiveEvent → String
  | appended _ => "archive.appended"
  | removed _ => "archive.removed"

def archiveAppendedSchema (rec : ArchiveAppended) : Except String Unit := do
  minLength1 "id" rec.id
  minLength1 "name" rec.name
  minLength1 "branch" rec.branch
  minLength1 "baseRef" rec.baseRef
  safeInt "deletedAt" rec.deletedAt
  safeInt "expiresAt" rec.expiresAt

/-- The payload schema of each archive event, checked on append and on every read. -/
def archiveSchemas (event : ArchiveEvent) : Except String ArchiveEvent := do
  match event with
  | .appended rec => archiveAppendedSchema rec
  | .removed id => minLength1 "id" id
  return event

/-- A built event carries exactly what the schema accepted. -/
theorem archiveSchemas_eq {event event' : ArchiveEvent} (h : archiveSchemas event = .ok event') :
    event' = event := by
  unfold archiveSchemas at h
  cases event <;> simp only [bind_eq_ok, pure_eq_ok] at h <;> grind

def makeArchiveAppendedEvent (projectId : String) (rec : ArchiveAppended) :
    Except String (NewEvent ArchiveEvent) := do
  archiveAppendedSchema rec
  return { scope := archiveScope rec.id, v := 1, payload := .appended rec, actor := projectId }

def makeArchiveRemovedEvent (projectId : String) (id : String) :
    Except String (NewEvent ArchiveEvent) := do
  minLength1 "id" id
  return { scope := archiveScope id, v := 1, payload := .removed id, actor := projectId }

structure ArchiveTables where
  archive : Table ArchiveAppended.id := {}

def selectArchive (t : ArchiveTables) (id : String) : Option ArchiveAppended := t.archive.find? id

/-- All archive records, by the time of deletion, then by id. -/
def selectAllArchive (t : ArchiveTables) : List ArchiveAppended :=
  t.archive.rows.mergeSort fun a b =>
    a.deletedAt < b.deletedAt || a.deletedAt == b.deletedAt && a.id ≤ b.id

/-- The records that have expired at `nowMs`, the first to expire first. -/
def selectExpired (t : ArchiveTables) (nowMs : ℕ) : List ArchiveAppended :=
  (t.archive.rows.filter (·.expiresAt < nowMs)).mergeSort fun a b =>
    a.expiresAt < b.expiresAt || a.expiresAt == b.expiresAt && a.id ≤ b.id

/-- Fold a record: the same one again is nothing new, another under its id is refused. -/
def applyArchiveAppended (t : ArchiveTables) (rec : ArchiveAppended) : Except String ArchiveTables :=
  match selectArchive t rec.id with
  | some existing =>
    if existing = rec then return t
    else
      throw (s!"archive: conflicting re-append for id '{rec.id}' — existing record differs from " ++
        "incoming payload")
  | none => do
    let archive ← orThrow (t.archive.insert? rec) "UNIQUE constraint failed: archive.id"
    return { t with archive }

/-- The archive projector: fold one decoded event. -/
def ArchiveProjector.apply (t : ArchiveTables) (event : StoredEvent ArchiveEvent) :
    Except String ArchiveTables :=
  match event.payload with
  | .appended rec => applyArchiveAppended t rec
  | .removed id => return { t with archive := t.archive.filter (·.id != id) }

end Orchestration.Archive
