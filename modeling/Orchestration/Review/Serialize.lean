import Orchestration.Store.Log

/-!
# The merge slot

One reviewer or merge is active on a target at a time. The slot is not a lock
but the fold of the target's `merge.serialized` events: each one toggles its
branch, so a branch holds the slot after its odd events and has released it
after its even ones.
-/

namespace Orchestration.Review

open Fallible Transaction

/-- The projectors of a review store. -/
def reviewProjectors : List Projector := [.review]

/-- The branch that holds the slot after the toggles `entries`. -/
def foldActiveSlot (entries : List String) : Option String :=
  entries.foldl (fun held branch => if held = some branch then none else some branch) none

/-- The branch of a slot event in the stream of `target`. -/
def slotBranch? (target : String) (event : StoredEvent Payload) : Option String :=
  match event.payload with
  | .review (.serialized m) => if event.scope = reviewScope target then some m.branch else none
  | _ => none

/-- The target's slot events, in log order. -/
def slotEntries (target : String) (events : List (StoredEvent Payload)) : List String :=
  events.filterMap (slotBranch? target)

/-- The branch holding the target's slot according to the log. -/
def activeSerializedFromEvents (db : Db) (target : String) : Option String :=
  foldActiveSlot (slotEntries target db.events)

/-- A read of the merge slot. -/
def readingSlot (target : String) : StoreTx (Option String) := do
  let db ← get
  return activeSerializedFromEvents db target

theorem readingSlot_bind {db : Db} {α : Type} {target : String}
    {f : Option String → StoreTx α} :
    (readingSlot target >>= f) db = f (activeSerializedFromEvents db target) db := rfl

/-- The outcome of an attempt to acquire a slot. -/
structure MergeSlotResult where
  acquired : Bool
  queued : Bool
  active : String
  fresh : Bool
deriving DecidableEq, Repr

/-- A review event as the project log carries it. -/
def toProject (event : NewEvent ReviewEvent) : NewEvent Payload :=
  event.withPayload (.review event.payload)

/-- `event` carries `payload` in the stream of its target. -/
structure Carries (event : NewEvent Payload) (payload : ReviewEvent) : Prop where
  payload_eq : event.payload = .review payload
  scope_eq : event.scope = reviewScope payload.target

/-- Build a review event, append it and fold it. -/
def recordReview (event : Except String (NewEvent ReviewEvent)) :
    StoreTx (StoredEvent Payload) := do
  let event ← event
  record reviewProjectors (toProject event)

theorem carries_requested {r : ReviewRequested} {event : NewEvent ReviewEvent}
    (h : makeReviewRequestedEvent r = .ok event) : Carries (toProject event) (.requested r) := by
  simp only [makeReviewRequestedEvent, bind_eq_ok, pure_eq_ok] at h
  obtain ⟨payload, hschema, rfl⟩ := h
  obtain rfl := reviewSchemas_eq hschema
  exact ⟨rfl, rfl⟩

theorem carries_verdict {v : ReviewVerdictRecorded} {event : NewEvent ReviewEvent}
    (h : makeReviewVerdictEvent v = .ok event) : Carries (toProject event) (.verdict v) := by
  simp only [makeReviewVerdictEvent, bind_eq_ok, pure_eq_ok] at h
  obtain ⟨payload, hschema, -, -, rfl⟩ := h
  obtain rfl := reviewSchemas_eq hschema
  exact ⟨rfl, rfl⟩

theorem carries_strike {s : ReviewStrike} {event : NewEvent ReviewEvent}
    (h : makeReviewStrikeEvent s = .ok event) : Carries (toProject event) (.strike s) := by
  simp only [makeReviewStrikeEvent, bind_eq_ok, pure_eq_ok] at h
  obtain ⟨payload, hschema, rfl⟩ := h
  obtain rfl := reviewSchemas_eq hschema
  exact ⟨rfl, rfl⟩

theorem carries_serialized {m : MergeSerialized} {event : NewEvent ReviewEvent}
    (h : makeMergeSerializedEvent m = .ok event) : Carries (toProject event) (.serialized m) := by
  simp only [makeMergeSerializedEvent, bind_eq_ok, pure_eq_ok] at h
  obtain ⟨payload, hschema, rfl⟩ := h
  obtain rfl := reviewSchemas_eq hschema
  exact ⟨rfl, rfl⟩

theorem carries_override {o : ReviewOverride} {event : NewEvent ReviewEvent}
    (h : makeReviewOverrideEvent o = .ok event) : Carries (toProject event) (.override o) := by
  simp only [makeReviewOverrideEvent, bind_eq_ok, pure_eq_ok] at h
  obtain ⟨payload, hschema, rfl⟩ := h
  obtain rfl := reviewSchemas_eq hschema
  exact ⟨rfl, rfl⟩

theorem recordReview_eq_ok {event : Except String (NewEvent ReviewEvent)} {db db' : Db}
    {s : StoredEvent Payload} : recordReview event db = .ok (s, db') ↔
      ∃ e, event = .ok e ∧ s = db.stored (toProject e) ∧ db.commit (toProject e) = .ok db' := by
  have howns : ∀ e : NewEvent ReviewEvent, Owns reviewProjectors (toProject e).payload :=
    fun e => rfl
  simp only [recordReview, Tx.bind_eq_ok, Tx.liftM_eq_ok]
  constructor
  · rintro ⟨e, _, ⟨he, rfl⟩, hrec⟩
    exact ⟨e, he, (record_eq_ok (howns e)).1 hrec⟩
  · rintro ⟨e, he, hrec⟩
    exact ⟨e, db, ⟨he, rfl⟩, (record_eq_ok (howns e)).2 hrec⟩

theorem recordReviews_eq_ok {events : List (NewEvent ReviewEvent)} {db db' : Db}
    {stored : List (StoredEvent Payload)}
    (h : recordAll reviewProjectors (events.map toProject) db = .ok (stored, db')) :
    stored = db.storedAll (events.map toProject) ∧
      db.commitAll (events.map toProject) = .ok db' := by
  refine recordAll_commitAll (fun event hevent => ?_) h
  obtain ⟨e, -, rfl⟩ := List.mem_map.1 hevent
  rfl

end Orchestration.Review
