import Orchestration.Review.Backfill

/-!
# The rows of the review read model

What every fold of a review log keeps of its rows: a row is named by the schema that
accepted the event it was made for.
-/

namespace Orchestration.Review

open Fallible Transaction

/-- The branch a review event is about. -/
def ReviewEvent.branch : ReviewEvent → String
  | .requested r => r.branch
  | .verdict v => v.branch
  | .strike s => s.branch
  | .serialized m => m.branch
  | .override o => o.branch

/-- The schema of an event refuses a pair without names. -/
theorem named_of_schema {event event' : ReviewEvent} (h : reviewSchemas event = .ok event') :
    event.target ≠ "" ∧ event.branch ≠ "" := by
  unfold reviewSchemas at h
  cases event <;> simp only [bind_eq_ok, pure_eq_ok, minLength1_eq_ok] at h <;>
    simp only [ReviewEvent.target, ReviewEvent.branch] <;> grind

/-- A fold changes the rows of its own pair only. -/
theorem mem_reviews_apply {t t' : ReviewTables} {event : StoredEvent ReviewEvent}
    (h : ReviewProjector.apply t event = .ok t') {row : ReviewRow} (hrow : row ∈ t'.reviews.rows) :
    row ∈ t.reviews.rows ∨ row.key = (event.payload.target, event.payload.branch) := by
  have hupsert : ∀ {new : ReviewRow} {update : Table.Update ReviewRow.key},
      row ∈ (t.reviews.upsert new update).rows → row ∈ t.reviews.rows ∨ row.key = new.key := by
    intro new update hmem
    rcases Table.mem_upsert hmem with hold | ⟨old, -, hkey, rfl⟩ | rfl
    · exact .inl hold
    · exact .inr ((update.keeps old).trans hkey)
    · exact .inr rfl
  cases hp : event.payload with
  | requested r =>
    simp only [ReviewProjector.apply, hp, applyRequested] at h
    cases hid : t.reviewRequestIds.find? r.reviewId with
    | some existing =>
      simp only [hid, bind_eq_ok, pure_eq_ok] at h
      obtain ⟨-, -, -, -, rfl⟩ := h
      exact .inl hrow
    | none =>
      simp only [hid, bind_eq_ok, pure_eq_ok] at h
      obtain ⟨ids, -, rfl⟩ := h
      exact hupsert hrow
  | verdict v =>
    simp only [ReviewProjector.apply, hp, applyVerdict, bind_eq_ok, pure_eq_ok] at h
    obtain ⟨-, -, -, -, rfl⟩ := h
    exact hupsert hrow
  | strike s =>
    simp only [ReviewProjector.apply, hp, applyStrike] at h
    split at h
    · obtain rfl := pure_eq_ok.1 h
      exact .inl hrow
    · simp only [bind_eq_ok, pure_eq_ok] at h
      obtain ⟨strikes, -, rfl⟩ := h
      exact hupsert hrow
  | serialized m =>
    simp only [ReviewProjector.apply, hp] at h
    obtain rfl := pure_eq_ok.1 h
    exact hupsert hrow
  | override o =>
    simp only [ReviewProjector.apply, hp] at h
    obtain rfl := pure_eq_ok.1 h
    exact hupsert hrow

/-- Every row has the names of its pair. -/
theorem reviews_named {db : Db} (h : Consistent db) {row : ReviewRow}
    (hrow : row ∈ db.review.reviews.rows) : row.target ≠ "" ∧ row.branch ≠ "" := by
  have hall : ∀ row ∈ db.toProjections.review.reviews.rows,
      row.target ≠ "" ∧ row.branch ≠ "" := by
    refine foldEvents_induction
      (fun _ t => ∀ row ∈ t.review.reviews.rows, row.target ≠ "" ∧ row.branch ≠ "") ?_ ?_ h.replayed
    · intro row hrow
      exact absurd hrow List.not_mem_nil
    · intro events t event t' ht hfold row hrow
      cases folded_of_foldEvent hfold with
      | review _ hschema happly =>
        rcases mem_reviews_apply happly hrow with hold | hkey
        · exact ht row hold
        · have hnamed := named_of_schema hschema
          obtain ⟨htarget, hbranch⟩ := Prod.mk.inj hkey
          exact ⟨htarget ▸ hnamed.1, hbranch ▸ hnamed.2⟩
      | mail | worktree | usage | cost | placement | toolUsage | plan | roles | session
      | archive => exact ht row hrow
  exact hall row hrow

/-- A request that is found is of a named pair. -/
theorem selectReviewRequest_named {db : Db} (h : Consistent db) {target branch : String}
    {record : ReviewRequestRecord}
    (hrecord : selectReviewRequest db.review target branch = some record) :
    target ≠ "" ∧ branch ≠ "" := by
  obtain ⟨row, hrow, -⟩ := Option.bind_eq_some_iff.1 hrecord
  obtain ⟨hmem, hkey⟩ := Table.find?_eq_some.1 hrow
  obtain ⟨rfl, rfl⟩ := Prod.mk.inj hkey
  exact reviews_named h hmem

/-! ## A toggle goes through -/

theorem makeMergeSerializedEvent_eq {m : MergeSerialized} (htarget : m.target ≠ "")
    (hbranch : m.branch ≠ "") : makeMergeSerializedEvent m =
      .ok { scope := reviewScope m.target, v := 1, payload := .serialized m } := by
  have hschema : reviewSchemas (.serialized m) = .ok (.serialized m) := by
    unfold reviewSchemas
    simp only [minLength1, if_neg htarget, if_neg hbranch]
    rfl
  rw [makeMergeSerializedEvent, hschema]
  rfl

/-- A review event that the schema and the fold accept can be appended while the log has room. -/
theorem commit_review {db : Db} (hroom : db.nextSeq ≤ Js.maxSafeInteger) {e : NewEvent ReviewEvent}
    {tables : ReviewTables} (hv : e.v = 1) (hschema : reviewSchemas e.payload = .ok e.payload)
    (happly : ReviewProjector.apply db.review
      ((db.stored (toProject e)).withPayload e.payload) = .ok tables) :
    ∃ db', db.commit (toProject e) = .ok db' := by
  have hdecode : decode (db.stored (toProject e)) = .ok (db.stored (toProject e)) := by
    refine bind_eq_ok.2 ⟨_, upcast_eq_ok.2 ⟨Nat.le_of_eq hv, rfl⟩, ?_⟩
    exact bind_eq_ok.2 ⟨_, bind_eq_ok.2 ⟨_, hschema, rfl⟩, rfl⟩
  have hfold : foldEvent db.toProjections (db.stored (toProject e)) =
      .ok { db.toProjections with review := tables } := by
    refine bind_eq_ok.2 ⟨_, hdecode, ?_⟩
    exact bind_eq_ok.2 ⟨tables, happly, rfl⟩
  exact ⟨_, commit_eq_ok.2 ⟨hroom, _, hfold, rfl⟩⟩

/-- A toggle of a named pair can be appended while the log has room. -/
theorem commit_serialized {db : Db} (hroom : db.nextSeq ≤ Js.maxSafeInteger) {m : MergeSerialized}
    {e : NewEvent ReviewEvent} (he : makeMergeSerializedEvent m = .ok e) :
    ∃ db', db.commit (toProject e) = .ok db' := by
  simp only [makeMergeSerializedEvent, bind_eq_ok, pure_eq_ok] at he
  obtain ⟨payload, hschema, rfl⟩ := he
  obtain rfl := reviewSchemas_eq hschema
  exact commit_review hroom rfl hschema rfl

/-- Committing one event is recording it as a batch. -/
theorem recordAll_of_commit {projectors : List Projector} {event : NewEvent Payload}
    (howns : Owns projectors event.payload) {db db' : Db} (h : db.commit event = .ok db') :
    recordAll projectors [event] db = .ok ([db.stored event], db') := by
  refine recordAll_of_commitAll (fun e he => ?_) (Db.commitAll_cons.2 ⟨db', h, rfl⟩)
  exact List.mem_singleton.1 he ▸ howns

end Orchestration.Review
