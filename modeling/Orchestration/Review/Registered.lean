import Orchestration.Review.Requests
import Orchestration.Review.Store

/-!
# Which review an id belongs to

An id of a review is registered with the first request that carries it, and belongs to the pair
of that request from then on. The request columns of a row change by a request with a new id
only.
-/

namespace Orchestration.Review

open Fallible Transaction

/-- A registered id has its request in the log, and an open row has a registered id. -/
structure Registered (events : List (StoredEvent Payload)) (t : ReviewTables) : Prop where
  requested : ∀ id row, t.reviewRequestIds.find? id = some row → ∃ event ∈ events, ∃ r,
    event.payload = .review (.requested r) ∧ r.reviewId = id ∧ row = ⟨id, r.target, r.branch⟩
  rows : ∀ key row, t.reviews.find? key = some row → row.requestedTs.isSome = true →
    ∃ id, row.reviewId = some id ∧ t.reviewRequestIds.find? id = some ⟨id, key.1, key.2⟩

namespace Registered

variable {events : List (StoredEvent Payload)} {t t' : ReviewTables} {event : StoredEvent ReviewEvent}

/-- What an event that opens no review does to a row. -/
theorem untouched_rows (h : Registered events t) {row : ReviewRow}
    {update : Table.Update ReviewRow.key} (hnew : row.requestedTs = none)
    (hupdate : ∀ old, t.reviews.find? row.key = some old →
      (update.run old).requestedTs = old.requestedTs ∧
        (old.requestedTs.isSome = true → (update.run old).reviewId = old.reviewId))
    {key : String × String} {r : ReviewRow} (hr : (t.reviews.upsert row update).find? key = some r)
    (hopen : r.requestedTs.isSome = true) :
    ∃ id, r.reviewId = some id ∧ t.reviewRequestIds.find? id = some ⟨id, key.1, key.2⟩ := by
  rw [Table.find?_upsert] at hr
  split at hr
  · next hkey =>
    subst hkey
    obtain rfl := Option.some.inj hr
    cases hfind : t.reviews.find? row.key with
    | none =>
      rw [hfind] at hopen
      simp [hnew] at hopen
    | some old =>
      obtain ⟨hts, hid⟩ := hupdate old hfind
      rw [hfind] at hopen
      simp only [Option.map_some, Option.getD_some] at hopen ⊢
      rw [hts] at hopen
      rw [hid hopen]
      exact h.rows _ old hfind hopen
  · exact h.rows key r hr hopen

theorem of_untouched (h : Registered events t) (event : StoredEvent Payload) {row : ReviewRow}
    {update : Table.Update ReviewRow.key} (hnew : row.requestedTs = none)
    (hupdate : ∀ old, t.reviews.find? row.key = some old →
      (update.run old).requestedTs = old.requestedTs ∧
        (old.requestedTs.isSome = true → (update.run old).reviewId = old.reviewId))
    (hids : t'.reviewRequestIds = t.reviewRequestIds)
    (hreviews : t'.reviews = t.reviews.upsert row update) :
    Registered (events ++ [event]) t' := by
  constructor
  · intro id r hr
    rw [hids] at hr
    obtain ⟨event', hmem, hevent⟩ := h.requested id r hr
    exact ⟨event', List.mem_append_left _ hmem, hevent⟩
  · intro key r hr hopen
    rw [hreviews] at hr
    rw [hids]
    exact h.untouched_rows hnew hupdate hr hopen

theorem other (h : Registered events t) (event : StoredEvent Payload) :
    Registered (events ++ [event]) t := by
  refine ⟨fun id row hrow => ?_, h.rows⟩
  obtain ⟨event', hmem, hevent⟩ := h.requested id row hrow
  exact ⟨event', List.mem_append_left _ hmem, hevent⟩

/-- A request with a new id is registered, and its row is open under it. -/
theorem requestedEvent (h : Registered events t) {stored : StoredEvent Payload}
    {r : ReviewRequested} (hstored : stored.payload = .review (.requested r)) {ts : ℕ}
    {ids : Table RequestIdRow.reviewId}
    (hids : t.reviewRequestIds.insert? ⟨r.reviewId, r.target, r.branch⟩ = some ids)
    (ht : t'.reviewRequestIds = ids)
    (hreviews : t'.reviews = t.reviews.upsert
      (requestColumns { target := r.target, branch := r.branch } r ts)
      { run := (requestColumns · r ts) }) : Registered (events ++ [stored]) t' := by
  have hfind : ∀ id, ids.find? id = if id = r.reviewId then
      some ⟨r.reviewId, r.target, r.branch⟩ else t.reviewRequestIds.find? id :=
    fun id => Table.find?_insert? hids
  constructor
  · intro id row hrow
    rw [ht, hfind] at hrow
    split at hrow
    · next hid =>
      obtain rfl := Option.some.inj hrow
      exact ⟨stored, by simp, r, hstored, hid.symm, by rw [hid]⟩
    · obtain ⟨event', hmem, hevent⟩ := h.requested id row hrow
      exact ⟨event', List.mem_append_left _ hmem, hevent⟩
  · intro key row hrow hopen
    rw [hreviews, Table.find?_upsert] at hrow
    rw [ht]
    split at hrow
    · next hkey =>
      obtain rfl := Option.some.inj hrow
      refine ⟨r.reviewId, ?_, ?_⟩
      · cases t.reviews.find? key <;> rfl
      · rw [hfind, if_pos rfl, hkey]
        rfl
    · obtain ⟨id, hid, hold⟩ := h.rows key row hrow hopen
      refine ⟨id, hid, ?_⟩
      rw [hfind, if_neg, hold]
      intro heq
      have hfree := (Table.insert?_eq_some.1 hids).1
      rw [heq] at hold
      rw [hold] at hfree
      cases hfree

theorem apply (h : Registered events t) {stored : StoredEvent Payload} {payload : ReviewEvent}
    (hstored : stored.payload = .review payload)
    (happly : ReviewProjector.apply t (stored.withPayload payload) = .ok t') :
    Registered (events ++ [stored]) t' := by
  cases payload with
  | requested r =>
    simp only [ReviewProjector.apply, StoredEvent.withPayload, applyRequested] at happly
    cases hid : t.reviewRequestIds.find? r.reviewId with
    | some existing =>
      simp only [hid, bind_eq_ok, pure_eq_ok] at happly
      obtain ⟨-, -, -, -, rfl⟩ := happly
      exact h.other stored
    | none =>
      simp only [hid, bind_eq_ok, orThrow_eq_ok, pure_eq_ok] at happly
      obtain ⟨ids, hids, rfl⟩ := happly
      exact h.requestedEvent hstored hids rfl rfl
  | verdict v =>
    simp only [ReviewProjector.apply, StoredEvent.withPayload, applyVerdict, bind_eq_ok,
      whenSome_eq_ok, pure_eq_ok] at happly
    obtain ⟨_, hrequest, -, -, rfl⟩ := happly
    refine h.of_untouched stored rfl (fun old hold => ⟨rfl, fun hopen => ?_⟩) rfl rfl
    obtain ⟨ts, hts⟩ := Option.isSome_iff_exists.1 hopen
    obtain ⟨id, hid, -⟩ := h.rows _ old hold hopen
    have hselect : selectReviewRequest t v.target v.branch =
        some (rowToReviewRequestRecord old ts) :=
      Option.bind_eq_some_iff.2 ⟨old, hold, Option.bind_eq_some_iff.2 ⟨ts, hts, rfl⟩⟩
    obtain ⟨_, hsame, -⟩ := hrequest _ hselect
    have hanswers : id = v.reviewId := by
      simpa [rowToReviewRequestRecord, hid] using refuse_eq_ok.1 hsame
    rw [hid, hanswers]
    rfl
  | strike s =>
    simp only [ReviewProjector.apply, StoredEvent.withPayload, applyStrike] at happly
    split at happly
    · obtain rfl := pure_eq_ok.1 happly
      exact h.other stored
    · simp only [bind_eq_ok, pure_eq_ok] at happly
      obtain ⟨strikes, -, rfl⟩ := happly
      exact h.of_untouched stored rfl (fun _ _ => ⟨rfl, fun _ => rfl⟩) rfl rfl
  | serialized m =>
    simp only [ReviewProjector.apply, StoredEvent.withPayload] at happly
    obtain rfl := pure_eq_ok.1 happly
    exact h.of_untouched stored rfl (fun _ _ => ⟨rfl, fun _ => rfl⟩) rfl rfl
  | override o =>
    simp only [ReviewProjector.apply, StoredEvent.withPayload] at happly
    obtain rfl := pure_eq_ok.1 happly
    exact h.of_untouched stored rfl (fun _ _ => ⟨rfl, fun _ => rfl⟩) rfl rfl

end Registered

theorem registered_of_consistent {db : Db} (h : Consistent db) : Registered db.events db.review := by
  refine foldEvents_induction (fun events t => Registered events t.review) ?_ ?_ h.replayed
  · refine ⟨fun _ _ hrow => ?_, fun _ _ hrow => ?_⟩
    · cases hrow
    · cases hrow
  · intro events t event t' ht hfold
    rcases foldEvent_review hfold with ⟨payload, hevent, happly⟩ | ⟨hother, hsame⟩
    · exact ht.apply hevent happly
    · rw [hsame]
      exact ht.other event

/-! ## The scope of a request -/

section

variable {t t' : ReviewTables}

/-- The id is registered for the pair, and has the scope while it is the latest of the pair. -/
structure ScopedTo (t : ReviewTables) (reviewId target branch : String) (scope : ReviewScope) :
    Prop where
  registered : t.reviewRequestIds.find? reviewId = some ⟨reviewId, target, branch⟩
  scope : ∀ record, selectReviewRequest t target branch = some record →
    record.reviewId = reviewId → record.scope = scope

/-- An event that opens no review changes neither the id nor the scope of a latest request. -/
theorem select_of_untouched {row : ReviewRow} {update : Table.Update ReviewRow.key}
    (hnew : row.requestedTs = none) (hupdate : ∀ old, t.reviews.find? row.key = some old →
      (update.run old).requestedTs = old.requestedTs ∧ (old.requestedTs.isSome = true →
        (update.run old).reviewId = old.reviewId ∧ (update.run old).scope = old.scope))
    (hreviews : t'.reviews = t.reviews.upsert row update) {target branch : String}
    {record : ReviewRequestRecord} (h : selectReviewRequest t' target branch = some record) :
    ∃ old, selectReviewRequest t target branch = some old ∧ record.reviewId = old.reviewId ∧
      record.scope = old.scope := by
  obtain ⟨r, hr, hrest⟩ := Option.bind_eq_some_iff.1 h
  obtain ⟨ts, hts, hrecord⟩ := Option.bind_eq_some_iff.1 hrest
  obtain rfl := Option.some.inj hrecord
  rw [hreviews, Table.find?_upsert] at hr
  split at hr
  · next hkey =>
    rw [hkey] at hr
    cases hfind : t.reviews.find? row.key with
    | none =>
      rw [hfind] at hr
      obtain rfl := Option.some.inj hr
      cases hnew.symm.trans hts
    | some old =>
      rw [hfind] at hr
      obtain rfl := Option.some.inj hr
      obtain ⟨hsame, hkept⟩ := hupdate old hfind
      have holdTs : old.requestedTs = some ts := hsame.symm.trans hts
      obtain ⟨hid, hscope⟩ := hkept (by rw [holdTs]; rfl)
      refine ⟨rowToReviewRequestRecord old ts, ?_, ?_, hscope⟩
      · rw [selectReviewRequest, hkey, hfind]
        exact Option.bind_eq_some_iff.2 ⟨old, rfl, Option.bind_eq_some_iff.2 ⟨ts, holdTs, rfl⟩⟩
      · change (update.run old).reviewId.getD _ = old.reviewId.getD _
        rw [hid]
  · exact ⟨_, Option.bind_eq_some_iff.2 ⟨r, hr, Option.bind_eq_some_iff.2 ⟨ts, hts, rfl⟩⟩, rfl, rfl⟩

variable {reviewId target branch : String} {scope : ReviewScope}

theorem ScopedTo.of_untouched (h : ScopedTo t reviewId target branch scope) {row : ReviewRow}
    {update : Table.Update ReviewRow.key} (hnew : row.requestedTs = none)
    (hupdate : ∀ old, t.reviews.find? row.key = some old →
      (update.run old).requestedTs = old.requestedTs ∧ (old.requestedTs.isSome = true →
        (update.run old).reviewId = old.reviewId ∧ (update.run old).scope = old.scope))
    (hids : t'.reviewRequestIds = t.reviewRequestIds)
    (hreviews : t'.reviews = t.reviews.upsert row update) :
    ScopedTo t' reviewId target branch scope := by
  refine ⟨hids ▸ h.registered, fun record hrecord hid => ?_⟩
  obtain ⟨old, hold, hsame, hscope⟩ := select_of_untouched hnew hupdate hreviews hrecord
  exact hscope.trans (h.scope old hold (hsame.symm.trans hid))

/-- The verdict of an open review keeps the scope that was requested. -/
theorem verdictColumns_kept {v : ReviewVerdictRecorded} {old : ReviewRow} {ts seq : ℕ}
    (hrow : old.reviewId = some v.reviewId)
    (hscope : ∀ scope, v.scope = some scope → scope = old.scope) :
    (verdictColumns old v (v.scope.getD old.scope) ts seq).reviewId = old.reviewId ∧
      (verdictColumns old v (v.scope.getD old.scope) ts seq).scope = old.scope := by
  refine ⟨hrow.symm, ?_⟩
  change v.scope.getD old.scope = old.scope
  cases hv : v.scope with
  | none => rfl
  | some scope => exact hscope scope hv

/-- The scope of a registered request stays, whatever is folded. -/
theorem ScopedTo.apply {events : List (StoredEvent Payload)} (hregistered : Registered events t)
    (h : ScopedTo t reviewId target branch scope) {event : StoredEvent ReviewEvent}
    (happly : ReviewProjector.apply t event = .ok t') :
    ScopedTo t' reviewId target branch scope := by
  cases hp : event.payload with
  | requested r =>
    simp only [ReviewProjector.apply, hp, applyRequested] at happly
    cases hid : t.reviewRequestIds.find? r.reviewId with
    | some existing =>
      simp only [hid, bind_eq_ok, pure_eq_ok] at happly
      obtain ⟨-, -, -, -, rfl⟩ := happly
      exact h
    | none =>
      simp only [hid, bind_eq_ok, orThrow_eq_ok, pure_eq_ok] at happly
      obtain ⟨ids, hids, rfl⟩ := happly
      have hne : reviewId ≠ r.reviewId := by
        rintro rfl
        rw [h.registered] at hid
        cases hid
      refine ⟨?_, fun record hrecord hsame => ?_⟩
      · change ids.find? reviewId = _
        rw [Table.find?_insert? hids, if_neg hne, h.registered]
      · obtain ⟨row, hrow, hrest⟩ := Option.bind_eq_some_iff.1 hrecord
        obtain ⟨ts, hts, heq⟩ := Option.bind_eq_some_iff.1 hrest
        obtain rfl := Option.some.inj heq
        rw [Table.find?_upsert] at hrow
        split at hrow
        · -- the latest request of the pair is the new one
          obtain rfl := Option.some.inj hrow
          refine absurd ?_ hne
          rw [← hsame]
          cases t.reviews.find? (target, branch) <;> rfl
        · refine h.scope _ ?_ hsame
          exact Option.bind_eq_some_iff.2 ⟨row, hrow, Option.bind_eq_some_iff.2 ⟨ts, hts, rfl⟩⟩
  | verdict v =>
    simp only [ReviewProjector.apply, hp, applyVerdict, bind_eq_ok, whenSome_eq_ok, pure_eq_ok]
      at happly
    obtain ⟨_, hrequest, -, -, rfl⟩ := happly
    refine h.of_untouched rfl (fun old hold => ⟨rfl, fun hopen => ?_⟩) rfl rfl
    obtain ⟨ts, hts⟩ := Option.isSome_iff_exists.1 hopen
    obtain ⟨id, hid, -⟩ := hregistered.rows _ old hold hopen
    have hselect : selectReviewRequest t v.target v.branch =
        some (rowToReviewRequestRecord old ts) :=
      Option.bind_eq_some_iff.2 ⟨old, hold, Option.bind_eq_some_iff.2 ⟨ts, hts, rfl⟩⟩
    obtain ⟨_, hsame, hchecks⟩ := hrequest _ hselect
    have hanswers : id = v.reviewId := by
      simpa [rowToReviewRequestRecord, hid] using refuse_eq_ok.1 hsame
    have hscope : ∀ scope, v.scope = some scope → scope = old.scope := by
      intro scope hv
      exact not_not.1 (refuse_eq_ok.1 (hchecks scope hv))
    rw [hselect]
    exact verdictColumns_kept (hid.trans (congrArg some hanswers)) hscope
  | strike s =>
    simp only [ReviewProjector.apply, hp, applyStrike] at happly
    split at happly
    · obtain rfl := pure_eq_ok.1 happly
      exact h
    · simp only [bind_eq_ok, pure_eq_ok] at happly
      obtain ⟨strikes, -, rfl⟩ := happly
      exact h.of_untouched rfl (fun _ _ => ⟨rfl, fun _ => ⟨rfl, rfl⟩⟩) rfl rfl
  | serialized m =>
    simp only [ReviewProjector.apply, hp] at happly
    obtain rfl := pure_eq_ok.1 happly
    exact h.of_untouched rfl (fun _ _ => ⟨rfl, fun _ => ⟨rfl, rfl⟩⟩) rfl rfl
  | override o =>
    simp only [ReviewProjector.apply, hp] at happly
    obtain rfl := pure_eq_ok.1 happly
    exact h.of_untouched rfl (fun _ _ => ⟨rfl, fun _ => ⟨rfl, rfl⟩⟩) rfl rfl

theorem ScopedTo.commit {db db' : Db} (hdb : Consistent db)
    (h : ScopedTo db.review reviewId target branch scope) {event : NewEvent Payload}
    (hcommit : db.commit event = .ok db') : ScopedTo db'.review reviewId target branch scope := by
  obtain ⟨-, tables, hfold, rfl⟩ := commit_eq_ok.1 hcommit
  rcases foldEvent_review hfold with ⟨payload, -, happly⟩ | ⟨-, hsame⟩
  · exact h.apply (registered_of_consistent hdb) happly
  · change ScopedTo tables.review _ _ _ _
    rwa [hsame]

end

end Orchestration.Review
