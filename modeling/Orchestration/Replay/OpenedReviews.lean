import Orchestration.Dispatch.Store
import Orchestration.Replay.SlotTransactions

/-!
# Opening a review

The two transactions by which a review is opened: its request alone, or with the placement of
its seat. For a new id they succeed as long as the events are well formed and there is room.
-/

namespace Orchestration.Replay

open Fallible Transaction
open Transaction.Proc (unlessFault)
open Orchestration.Review (Carries ReviewRequested ReviewRequestRecord makeReviewRequestedEvent
  recordReviewRequested selectReviewRequest selectVerdict)
open Orchestration.Dispatch (PlacementDecided PlacementRecord makePlacementDecidedEvent
  recordPlacementWithReviewRequest)

/-! ## One request -/

section

variable {r : ReviewRequested} {db db' : Db}

/-- The schema accepts the request. -/
def Requestable (r : ReviewRequested) : Prop := ∃ e, makeReviewRequestedEvent r = .ok e

/-- Whether something succeeds shows by doing it. -/
instance decidableSucceeds {ε α : Type} (x : Except ε α) : Decidable (∃ a, x = .ok a) :=
  match x with
  | .ok a => isTrue ⟨a, rfl⟩
  | .error _ => isFalse fun h => nomatch h

instance (r : ReviewRequested) : Decidable (Requestable r) :=
  inferInstanceAs (Decidable (∃ e, _ = Except.ok e))

/-- The id was never requested. -/
def NewId (db : Db) (reviewId : String) : Prop :=
  db.review.reviewRequestIds.find? reviewId = none

/-- What the request of a new id does. -/
theorem review_of_request {event : NewEvent Payload} (hevent : Carries event (.requested r))
    (hnew : NewId db r.reviewId) (h : db.commit event = .ok db') : ∃ ids ts,
      db.review.reviewRequestIds.insert? ⟨r.reviewId, r.target, r.branch⟩ = some ids ∧
      db'.review = { db.review with
        reviewRequestIds := ids
        reviews := db.review.reviews.upsert
          (Review.requestColumns { target := r.target, branch := r.branch } r ts)
          { run := (Review.requestColumns · r ts), keeps := fun _ => rfl } } := by
  obtain ⟨-, tables, hfold, rfl⟩ := commit_eq_ok.1 h
  rcases foldEvent_review hfold with ⟨payload, hstored, happly⟩ | ⟨hnone, -⟩
  · obtain rfl : Review.ReviewEvent.requested r = payload :=
      Payload.review.inj (hevent.payload_eq.symm.trans hstored)
    have hfree : db.review.reviewRequestIds.find? r.reviewId = none := hnew
    simp only [Review.ReviewProjector.apply, StoredEvent.withPayload, Review.applyRequested,
      hfree, bind_eq_ok, orThrow_eq_ok, pure_eq_ok] at happly
    obtain ⟨ids, hids, htables⟩ := happly
    exact ⟨ids, _, hids, htables.symm⟩
  · exact absurd hevent.payload_eq (hnone _)

/-- The request of a new id is the latest of its pair, and nothing has answered it. -/
theorem opened_of_request {event : NewEvent Payload} (hevent : Carries event (.requested r))
    (hnew : NewId db r.reviewId) (h : db.commit event = .ok db') :
    (∃ record, selectReviewRequest db'.review r.target r.branch = some record ∧
      record.reviewId = r.reviewId ∧ record.target = r.target ∧ record.branch = r.branch ∧
      record.scope = r.scope.getD .workerMerge) ∧
    ∀ scope, selectVerdict db'.review r.target r.branch scope = none := by
  obtain ⟨ids, ts, -, hreview⟩ := review_of_request hevent hnew h
  have hrow : ∃ old : Review.ReviewRow, old.key = (r.target, r.branch) ∧
      db'.review.reviews.find? (r.target, r.branch) = some (Review.requestColumns old r ts) := by
    have hkey : (Review.requestColumns { target := r.target, branch := r.branch } r ts).key =
        (r.target, r.branch) := rfl
    rw [hreview, ← hkey, Table.find?_upsert_self]
    simp only [hkey]
    cases hfind : db.review.reviews.find? (r.target, r.branch) with
    | none => exact ⟨{ target := r.target, branch := r.branch }, rfl, rfl⟩
    | some old => exact ⟨old, (Table.find?_eq_some.1 hfind).2, rfl⟩
  obtain ⟨old, hkey, hfind⟩ := hrow
  obtain ⟨htarget, hbranch⟩ := Prod.mk.inj hkey
  constructor
  · refine ⟨Review.rowToReviewRequestRecord (Review.requestColumns old r ts) ts, ?_, rfl, htarget,
      hbranch, rfl⟩
    rw [selectReviewRequest, hfind]
    rfl
  · intro scope
    rw [selectVerdict, hfind]
    rfl

/-- The verdicts of the other pairs stay. -/
theorem selectVerdict_of_request {event : NewEvent Payload} (hevent : Carries event (.requested r))
    (hnew : NewId db r.reviewId) (h : db.commit event = .ok db') {target branch : String}
    {scope : Option Review.ReviewScope} (hother : (target, branch) ≠ (r.target, r.branch)) :
    selectVerdict db'.review target branch scope =
      selectVerdict db.review target branch scope := by
  obtain ⟨ids, ts, -, hreview⟩ := review_of_request hevent hnew h
  rw [selectVerdict, selectVerdict, hreview, Table.find?_upsert_of_ne]
  exact hother

/-- A request with a new id can be appended while the log has room. -/
theorem commit_requested {e : NewEvent Review.ReviewEvent} (he : makeReviewRequestedEvent r = .ok e)
    (hnew : NewId db r.reviewId) (hroom : RoomFor 1 db) :
    ∃ db', db.commit (Review.toProject e) = .ok db' := by
  simp only [makeReviewRequestedEvent, bind_eq_ok, pure_eq_ok] at he
  obtain ⟨payload, hschema, rfl⟩ := he
  obtain rfl := Review.reviewSchemas_eq hschema
  obtain ⟨ids, hids⟩ := @Table.exists_insert? _ _ _ Review.RequestIdRow.reviewId
    db.review.reviewRequestIds ⟨r.reviewId, r.target, r.branch⟩ hnew
  have hfree : db.review.reviewRequestIds.find? r.reviewId = none := hnew
  have happly : ∀ event, Review.applyRequested db.review event r = .ok { db.review with
      reviewRequestIds := ids
      reviews := db.review.reviews.upsert
        (Review.requestColumns { target := r.target, branch := r.branch } r event.ts)
        { run := (Review.requestColumns · r event.ts), keeps := fun _ => rfl } } := by
    intro event
    simp only [Review.applyRequested, hfree]
    exact bind_eq_ok.2 ⟨ids, orThrow_eq_ok.2 hids, rfl⟩
  exact Review.commit_review hroom rfl hschema (happly _)

end

/-! ## Whether an id is taken -/

section

variable {db : Db} {reviewId target branch : String}

/-- An open row of an id that is not registered does not exist. -/
theorem selectById_of_new (hdb : Consistent db) (hnew : NewId db reviewId) :
    Review.selectReviewRequestById db.review reviewId = none := by
  unfold Review.selectReviewRequestById
  cases hfind : db.review.reviews.rows.find? fun row =>
      row.reviewId == some reviewId && row.requestedTs.isSome with
  | none => rfl
  | some row =>
    have hrow := List.find?_some hfind
    simp only [Bool.and_eq_true, beq_iff_eq] at hrow
    have hself : db.review.reviews.find? row.key = some row :=
      Table.find?_eq_some.2 ⟨List.mem_of_find?_eq_some hfind, rfl⟩
    obtain ⟨id, hid, hregistered⟩ :=
      (Review.registered_of_consistent hdb).rows _ row hself hrow.2
    obtain rfl : id = reviewId := Option.some.inj (hid.symm.trans hrow.1)
    rw [NewId, hregistered] at hnew
    cases hnew

/-- The latest request of a pair has another id. -/
theorem latest_of_new (hdb : Consistent db) (hnew : NewId db reviewId) :
    (selectReviewRequest db.review target branch).filter (·.reviewId == reviewId) = none := by
  rw [Option.filter_eq_none_iff]
  intro existing hexisting
  obtain ⟨row, hrow, hrest⟩ := Option.bind_eq_some_iff.1 hexisting
  obtain ⟨ts, hts, hrecord⟩ := Option.bind_eq_some_iff.1 hrest
  obtain rfl := Option.some.inj hrecord
  obtain ⟨id, hid, hregistered⟩ := (Review.registered_of_consistent hdb).rows _ row hrow
    (by rw [hts]; rfl)
  intro hsame
  simp only [Review.rowToReviewRequestRecord, hid, Option.getD_some, beq_iff_eq] at hsame
  rw [hsame] at hregistered
  rw [NewId, hregistered] at hnew
  cases hnew

theorem historical_of_new (hdb : Consistent db) (hnew : NewId db reviewId) :
    Review.selectHistoricalReviewRequestById db.events reviewId = none := by
  unfold Review.selectHistoricalReviewRequestById
  rw [List.findSome?_eq_none_iff]
  intro event hevent
  split
  · next r hpayload =>
    refine if_neg fun hid => ?_
    have hsome := (Review.upToDate_of_consistent hdb).indexed event hevent r hpayload
    rw [hid, show db.review.reviewRequestIds.find? reviewId = none from hnew] at hsome
    cases hsome
  · rfl

/-- A new id is available. -/
theorem available_of_new (hdb : Consistent db) (hnew : NewId db reviewId) :
    Review.assertReviewIdAvailableInDb reviewId target branch db = .ok ((), db) := by
  simp only [Review.assertReviewIdAvailableInDb, Review.reading_bind hdb, selectById_of_new hdb hnew,
    Tx.get_bind, historical_of_new hdb hnew]
  rfl

/-- An available id that is not the latest of its pair is new. -/
theorem new_of_available (hdb : Consistent db) {u : Unit} {db' : Db}
    (hpending : (selectReviewRequest db.review target branch).filter (·.reviewId == reviewId) = none)
    (h : Review.assertReviewIdAvailableInDb reviewId target branch db = .ok (u, db')) :
    NewId db reviewId := by
  by_contra hold
  obtain ⟨row, hrow⟩ := Option.ne_none_iff_exists'.1 hold
  obtain ⟨event, hmem, r, hpayload, hid, -⟩ :=
    (Review.registered_of_consistent hdb).requested reviewId row hrow
  simp only [Review.assertReviewIdAvailableInDb, Review.reading_bind hdb] at h
  cases hcurrent : Review.selectReviewRequestById db.review reviewId with
  | some existing =>
    simp only [hcurrent, Tx.liftM_eq_ok, refuse_eq_ok, not_or, not_not] at h
    obtain ⟨⟨htarget, hbranch⟩, -⟩ := h
    unfold Review.selectReviewRequestById at hcurrent
    obtain ⟨open_, hfind, hrest⟩ := Option.bind_eq_some_iff.1 hcurrent
    obtain ⟨ts, hts, hrecord⟩ := Option.bind_eq_some_iff.1 hrest
    obtain rfl := Option.some.inj hrecord
    have hopen := List.find?_some hfind
    simp only [Bool.and_eq_true, beq_iff_eq] at hopen
    have hself : db.review.reviews.find? (target, branch) = some open_ := by
      refine Table.find?_eq_some.2 ⟨List.mem_of_find?_eq_some hfind, ?_⟩
      exact Prod.ext htarget hbranch
    have hselect : selectReviewRequest db.review target branch =
        some (Review.rowToReviewRequestRecord open_ ts) := by
      exact Option.bind_eq_some_iff.2 ⟨open_, hself, Option.bind_eq_some_iff.2 ⟨ts, hts, rfl⟩⟩
    rw [hselect] at hpending
    simp [Review.rowToReviewRequestRecord, hopen.1] at hpending
  | none =>
    have hhistory : Review.selectHistoricalReviewRequestById db.events reviewId ≠ none := by
      unfold Review.selectHistoricalReviewRequestById
      rw [Ne, List.findSome?_eq_none_iff]
      intro hall
      have hevent := hall event hmem
      rw [hpayload] at hevent
      simp [hid] at hevent
    obtain ⟨pair, hpair⟩ := Option.ne_none_iff_exists'.1 hhistory
    simp [hcurrent, Tx.get_bind, hpair] at h

end

/-! ## The transactions -/

section

variable {fault : Option String} {r : ReviewRequested} {db : Db}

/-- The request of a new id is recorded unless it is malformed or the log is full. -/
theorem recordReviewRequested_new (hdb : Consistent db) (hnew : NewId db r.reviewId) :
    (∃ record db' event, unlessFault fault (transaction (recordReviewRequested r)) db =
        (.ok record, db') ∧ Carries event (.requested r) ∧ db.commit event = .ok db' ∧
        record.reviewId = r.reviewId) ∧ fault = none ∧ Requestable r ∧ RoomFor 1 db ∨
      (∃ e, unlessFault fault (transaction (recordReviewRequested r)) db = (.error e, db)) ∧
        ¬ (fault = none ∧ Requestable r ∧ RoomFor 1 db) := by
  have hpending := @latest_of_new db r.reviewId r.target r.branch hdb hnew
  by_cases hcan : fault = none ∧ Requestable r ∧ RoomFor 1 db
  · obtain ⟨hfault, ⟨e, he⟩, hroom⟩ := hcan
    obtain ⟨db', hcommit⟩ := commit_requested he hnew hroom
    have hevent := Review.carries_requested he
    obtain ⟨⟨record, hselect, hid, -⟩, -⟩ := opened_of_request hevent hnew hcommit
    refine .inl ⟨⟨record, db', _, ?_, hevent, hcommit, hid⟩, hfault, ⟨e, he⟩, hroom⟩
    rw [hfault, Proc.unlessFault_none, transaction_eq_ok]
    simp only [recordReviewRequested, Review.ensureReviewTables_bind hdb, Review.reading_bind hdb,
      hpending]
    refine Tx.bind_eq_ok.2 ⟨(), db, available_of_new hdb hnew, ?_⟩
    refine Tx.bind_eq_ok.2 ⟨_, db', Review.recordReview_eq_ok.2 ⟨e, he, rfl, hcommit⟩, ?_⟩
    rw [Review.reading_bind (hdb.commit hcommit), hselect]
    rfl
  · refine .inr ⟨?_, hcan⟩
    rcases hrun : unlessFault fault (transaction (recordReviewRequested r)) db with ⟨e | record, last⟩
    · exact ⟨e, by rw [(Proc.atomic_transaction _).unlessFault _ _ _ _ hrun]⟩
    · obtain ⟨hfault, hdone⟩ := Proc.unlessFault_eq_ok.1 hrun
      have hdone := transaction_eq_ok.1 hdone
      simp only [recordReviewRequested, Review.ensureReviewTables_bind hdb, Review.reading_bind hdb,
        hpending] at hdone
      obtain ⟨_, mid, havailable, hdone⟩ := Tx.bind_eq_ok.1 hdone
      rw [available_of_new hdb hnew] at havailable
      obtain ⟨-, rfl⟩ := Prod.mk.inj (Except.ok.inj havailable)
      obtain ⟨_, mid, hrecord, -⟩ := Tx.bind_eq_ok.1 hdone
      obtain ⟨e, he, -, hcommit⟩ := Review.recordReview_eq_ok.1 hrecord
      exact absurd ⟨hfault, ⟨e, he⟩, (room_of_commit hcommit).1⟩ hcan

end

/-! ## A request with its placement -/

section

variable {fault : Option String} {agent : String} {payload : PlacementDecided}
  {r : ReviewRequested} {db db' : Db}

/-- The schema accepts the placement. -/
def Placeable (agent : String) (payload : PlacementDecided) : Prop :=
  ∃ e, makePlacementDecidedEvent agent payload = .ok e

instance (agent : String) (payload : PlacementDecided) : Decidable (Placeable agent payload) :=
  inferInstanceAs (Decidable (∃ e, _ = Except.ok e))

/-- A placement can be appended while the log has room. -/
theorem commit_placement {e : NewEvent Dispatch.DispatchEvent}
    (he : makePlacementDecidedEvent agent payload = .ok e) (hagent : agent ≠ "")
    (hroom : RoomFor 1 db) : ∃ db', db.commit (Dispatch.toProject e) = .ok db' := by
  obtain ⟨hschema, rfl⟩ := Dispatch.makePlacementDecidedEvent_eq_ok he
  let event : NewEvent Dispatch.DispatchEvent := {
    scope := Dispatch.placementScope agent, v := 1, payload := .placementDecided payload
    actor := agent }
  have hdecode : decode (db.stored (Dispatch.toProject event)) =
      .ok (db.stored (Dispatch.toProject event)) := by
    refine bind_eq_ok.2 ⟨_, upcast_eq_ok.2 ⟨le_rfl, rfl⟩, ?_⟩
    exact bind_eq_ok.2 ⟨_, bind_eq_ok.2 ⟨_, hschema, rfl⟩, rfl⟩
  have hown : Dispatch.agentFromPlacementEvent
      ((db.stored (Dispatch.toProject event)).withPayload (.placementDecided payload)) =
        .ok agent := by
    refine bind_eq_ok.2 ⟨agent, orThrow_eq_ok.2 (afterPrefix?_append _ _), ?_⟩
    refine bind_eq_ok.2 ⟨(), refuse_eq_ok.2 hagent, bind_eq_ok.2 ⟨(), ?_, rfl⟩⟩
    rw [whenSome_eq_ok]
    intro actor hactor
    obtain rfl : agent = actor := Option.some.inj hactor
    exact refuse_eq_ok.2 (not_not.2 rfl)
  obtain ⟨tables, happly⟩ : ∃ tables, Dispatch.PlacementProjector.apply db.placement
      ((db.stored (Dispatch.toProject event)).withPayload (.placementDecided payload)) payload =
        .ok tables :=
    ⟨_, bind_eq_ok.2 ⟨agent, hown, rfl⟩⟩
  have hfold : foldEvent db.toProjections (db.stored (Dispatch.toProject event)) =
      .ok { db.toProjections with placement := tables } := by
    refine bind_eq_ok.2 ⟨_, hdecode, ?_⟩
    exact bind_eq_ok.2 ⟨tables, happly, rfl⟩
  exact ⟨_, commit_eq_ok.2 ⟨hroom, _, hfold, rfl⟩⟩

/-- The seat's decision, as the log carries it. -/
def Places (event : NewEvent Payload) (agent : String) (payload : PlacementDecided) : Prop :=
  event.payload = .dispatch (.placementDecided payload) ∧ event.scope = Dispatch.placementScope agent

theorem places_of_make {e : NewEvent Dispatch.DispatchEvent}
    (he : makePlacementDecidedEvent agent payload = .ok e) :
    Places (Dispatch.toProject e) agent payload := by
  obtain ⟨-, rfl⟩ := Dispatch.makePlacementDecidedEvent_eq_ok he
  exact ⟨rfl, rfl⟩

/-- A placement leaves every other read model alone. -/
theorem same_of_placement {event : NewEvent Payload} (hevent : Places event agent payload)
    {p : Projector} (hp : p ≠ .placement) (h : db.commit event = .ok db') :
    db.toProjections.Same db'.toProjections p := by
  refine same_of_commit ?_ h
  rw [hevent.1]
  exact fun heq => hp heq.symm

theorem same_of_request {event : NewEvent Payload} (hevent : Carries event (.requested r))
    {p : Projector} (hp : p ≠ .review) (h : db.commit event = .ok db') :
    db.toProjections.Same db'.toProjections p := by
  refine same_of_commit ?_ h
  rw [hevent.payload_eq]
  exact fun heq => hp heq.symm

/-- What a placement that opens a review leaves behind. -/
structure SeatOpened (agent : String) (payload : PlacementDecided) (r : ReviewRequested)
    (db db' : Db) (record : PlacementRecord) (opened : ReviewRequestRecord) : Prop where
  committed : ∃ placement requested mid, Places placement agent payload ∧
    Carries requested (.requested r) ∧ db.commit placement = .ok mid ∧
    mid.commit requested = .ok db'
  record_agent : record.agent = agent
  record_decided : record.decided = Dispatch.storedPlacement payload
  opened_id : opened.reviewId = r.reviewId

/-- The placement and the request of a new id are recorded unless one is malformed or the log is
full. -/
theorem recordPlacementWithReviewRequest_new (hdb : Consistent db) (hagent : agent ≠ "")
    (hnew : NewId db r.reviewId) :
    (∃ record opened db', unlessFault fault
        (transaction (recordPlacementWithReviewRequest agent payload r)) db =
          (.ok (record, opened), db') ∧ SeatOpened agent payload r db db' record opened) ∧
      (fault = none ∧ Placeable agent payload ∧ Requestable r ∧ RoomFor 2 db) ∨
    (∃ e, unlessFault fault
        (transaction (recordPlacementWithReviewRequest agent payload r)) db = (.error e, db)) ∧
      ¬ (fault = none ∧ Placeable agent payload ∧ Requestable r ∧ RoomFor 2 db) := by
  by_cases hcan : fault = none ∧ Placeable agent payload ∧ Requestable r ∧ RoomFor 2 db
  · obtain ⟨hfault, ⟨e, he⟩, ⟨q, hq⟩, hroom⟩ := hcan
    obtain ⟨mid, hplaced⟩ := commit_placement he hagent (hroom.mono (by decide))
    have hmid : Consistent mid := hdb.commit hplaced
    have hreview : mid.review = db.review :=
      same_of_placement (p := .review) (places_of_make he) nofun hplaced
    have hnewMid : NewId mid r.reviewId := by rwa [NewId, hreview]
    obtain ⟨db', hrequested⟩ :=
      commit_requested hq hnewMid (((room_of_commit hplaced).2 1).2 hroom)
    have hdb' : Consistent db' := hmid.commit hrequested
    have hevent := Review.carries_requested hq
    obtain ⟨⟨opened, hselect, hid, -⟩, -⟩ := opened_of_request hevent hnewMid hrequested
    obtain ⟨record, hrow, hseq, hrecord, hdecided⟩ := Dispatch.placement_of_commit he hplaced
    have hplacements : db'.placement = mid.placement :=
      same_of_request (p := .placement) hevent nofun hrequested
    have hfind : Dispatch.selectPlacementBySeq db'.placement db.nextSeq = some record := by
      rw [hplacements]
      exact Table.find?_eq_some.2 ⟨hrow, hseq⟩
    refine .inl ⟨⟨record, opened, db', ?_, ⟨_, _, mid, places_of_make he, hevent, hplaced,
      hrequested⟩, hrecord, hdecided, hid⟩, hfault, ⟨e, he⟩, ⟨q, hq⟩, hroom⟩
    have howns : ∀ event ∈ [Dispatch.toProject e, Review.toProject q],
        Owns Dispatch.placementProjectors event.payload := by
      obtain ⟨-, rfl⟩ := Dispatch.makePlacementDecidedEvent_eq_ok he
      intro event hmem
      rcases List.mem_cons.1 hmem with rfl | hmem
      · rfl
      · rw [List.mem_singleton.1 hmem]
        rfl
    have hrecorded := recordAll_of_commitAll howns
      (Db.commitAll_cons.2 ⟨mid, hplaced, Db.commitAll_cons.2 ⟨db', hrequested, rfl⟩⟩)
    rw [hfault, Proc.unlessFault_none, transaction_eq_ok, recordPlacementWithReviewRequest,
      Dispatch.ensureTables_bind, Review.ensureReviewTables_bind hdb]
    refine Tx.liftM_bind_eq_ok.2 ⟨e, he, Tx.liftM_bind_eq_ok.2 ⟨q, hq, ?_⟩⟩
    refine Tx.bind_eq_ok.2 ⟨_, db', hrecorded, ?_⟩
    rw [Dispatch.reading_bind]
    refine Tx.liftM_bind_eq_ok.2 ⟨record, orThrow_eq_ok.2 hfind, ?_⟩
    rw [Review.reading_bind hdb']
    exact Tx.liftM_bind_eq_ok.2 ⟨opened, orThrow_eq_ok.2 hselect, rfl⟩
  · refine .inr ⟨?_, hcan⟩
    rcases hrun : unlessFault fault
        (transaction (recordPlacementWithReviewRequest agent payload r)) db with ⟨e | result, last⟩
    · exact ⟨e, by rw [(Proc.atomic_transaction _).unlessFault _ _ _ _ hrun]⟩
    · obtain ⟨hfault, hdone⟩ := Proc.unlessFault_eq_ok.1 hrun
      have hdone := transaction_eq_ok.1 hdone
      obtain ⟨placement, requested, -, -, hcommits⟩ :=
        Dispatch.recordPlacementWithReviewRequest_spec hdb hdone
      obtain ⟨mid, hplaced, hrest⟩ := Db.commitAll_cons.1 hcommits
      obtain ⟨last', hrequested, -⟩ := Db.commitAll_cons.1 hrest
      have hroom : RoomFor 2 db :=
        ((room_of_commit hplaced).2 1).1 (room_of_commit hrequested).1
      rw [recordPlacementWithReviewRequest, Dispatch.ensureTables_bind,
        Review.ensureReviewTables_bind hdb] at hdone
      obtain ⟨e, he, hdone⟩ := Tx.liftM_bind_eq_ok.1 hdone
      obtain ⟨q, hq, -⟩ := Tx.liftM_bind_eq_ok.1 hdone
      exact absurd ⟨hfault, ⟨e, he⟩, ⟨q, hq⟩, hroom⟩ hcan

end

end Orchestration.Replay
