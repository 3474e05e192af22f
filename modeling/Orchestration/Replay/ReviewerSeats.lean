import Orchestration.Replay.TriggerRuns

/-!
# One placement for each seat of a reviewer

A placement of a reviewer names the review that it is for, and the review keeps its pair and its
scope. So a repeated trigger and a repeated drive find what is recorded already, and record a
placed or a waiting decision about the seat once.
-/

namespace Orchestration.Replay

open Fallible Transaction
open Transaction.Proc (onError unlessFault when)
open Orchestration.Dispatch (PlacementDecided PlacementRecord PLACEMENT_SCOPE_PREFIX storedPlacement
  makePlacementDecidedEvent)
open Orchestration.Review (Carries Launch ReviewRequested ReviewRequestRecord ReviewScope
  ReviewTables ReviewTriggerDeps ReviewTriggerRequest Reviewing ScopedTo TriggerFaults TriggerProc
  compatibleReviewerPlacements decideReviewerSeat isPlaced isReviewerPlacementForReview
  isReviewerRole isWaiting reviewerSeat redriveWaitingReviewer selectReviewRequest
  selectReviewRequestById selectVerdict triggerReview)
open Orchestration.Review.TriggerProc (onStores)

/-! ## The placements of the log -/

/-- The decision that an event records. -/
def placementOf (event : StoredEvent Payload) : Option PlacementRecord :=
  match event.payload with
  | .dispatch (.placementDecided payload) =>
    (afterPrefix? PLACEMENT_SCOPE_PREFIX event.scope).map fun agent => {
      seq := event.seq
      agent
      decided := storedPlacement payload
      recordedTs := event.ts }
  | _ => none

/-- The rows are the decisions of the log, in its order. -/
theorem placements_eq {db : Db} (hdb : Consistent db) :
    db.placement.placements.rows = db.events.filterMap placementOf := by
  have hnodup : (db.events.map (·.seq)).Nodup := by
    rw [hdb.numbered]
    exact List.nodup_range'
  refine foldEvents_induction (fun events t => (events.map (·.seq)).Nodup →
    t.placement.placements.rows = events.filterMap placementOf) (fun _ => rfl) ?_ hdb.replayed hnodup
  intro events t event t' ht hfold hnodup
  rw [List.map_append, List.nodup_append] at hnodup
  obtain ⟨hbefore, -, hfresh⟩ := hnodup
  have hrows := ht hbefore
  rw [List.filterMap_append]
  have hother : (∀ payload, event.payload ≠ .dispatch (.placementDecided payload)) →
      [event].filterMap placementOf = [] := by
    intro hne
    have hnone : placementOf event = none := by
      unfold placementOf
      split
      · next payload hpayload => exact absurd hpayload (hne payload)
      · rfl
    simp [hnone]
  cases folded_of_foldEvent hfold with
  | @placement decided tables hpayload happly =>
    obtain ⟨agent, hagent, hpure⟩ := bind_eq_ok.1 happly
    obtain rfl := pure_eq_ok.1 hpure
    obtain ⟨found, hfound, hrest⟩ := bind_eq_ok.1 hagent
    obtain ⟨_, -, hrest⟩ := bind_eq_ok.1 hrest
    obtain ⟨_, -, hrest⟩ := bind_eq_ok.1 hrest
    obtain rfl := pure_eq_ok.1 hrest
    have hrow : placementOf event = some ⟨event.seq, found, storedPlacement decided, event.ts⟩ := by
      rw [placementOf, hpayload]
      exact Option.map_eq_some_iff.2 ⟨found, orThrow_eq_ok.1 hfound, rfl⟩
    have hnew : ∀ old ∈ t.placement.placements.rows, old.seq ≠ event.seq := by
      intro old hold hseq
      rw [hrows] at hold
      obtain ⟨e, he, hplacement⟩ := List.mem_filterMap.1 hold
      have hsame : e.seq = old.seq := by
        unfold placementOf at hplacement
        split at hplacement
        · obtain ⟨_, -, rfl⟩ := Option.map_eq_some_iff.1 hplacement
          rfl
        · cases hplacement
      exact hfresh _ (List.mem_map_of_mem he) _ List.mem_cons_self (hsame.trans hseq)
    rw [List.filterMap_cons_some hrow, List.filterMap_nil, ← hrows]
    exact Table.rows_upsert_of_none (Table.find?_eq_none.2 hnew)
  | mail hpayload | review hpayload | worktree hpayload | usage hpayload | toolUsage hpayload
  | plan hpayload | roles hpayload | session hpayload | archive hpayload =>
    rw [hother (by simp [hpayload]), List.append_nil]
    exact hrows
  | cost hpayload _ hcost =>
    rw [hother, List.append_nil]
    · exact hrows
    · intro payload hplaced
      rw [hplaced] at hcost
      cases hcost

/-! ## The seats of the reviews -/

/-- The placement is a decision about the seat of the review. -/
def placesSeatOf (reviewId : String) (p : PlacementRecord) : Bool :=
  isReviewerPlacementForReview p.agent p.decided.seat.role reviewId

/-- The placement names the review that its seat is for, as the review was requested. -/
structure SeatOf (t : ReviewTables) (p : PlacementRecord) (reviewId target branch : String)
    (scope : ReviewScope) : Prop where
  agent : p.agent = reviewerSeat p.decided.seat.role reviewId
  ofReview : p.decided.seat.reviewId = some reviewId
  ofTarget : p.decided.seat.reviewTarget = some target
  ofBranch : p.decided.seat.reviewBranch = some branch
  ofScope : p.decided.seat.reviewScope = some scope
  request : ScopedTo t reviewId target branch scope

/-- A seat belongs to one review. -/
theorem reviewerSeat_inj {role reviewId reviewId' : String}
    (h : reviewerSeat role reviewId = reviewerSeat role reviewId') : reviewId = reviewId' := by
  have hlist := congrArg String.toList h
  simp only [reviewerSeat, String.toList_append, List.append_cancel_left_eq, String.toList_inj]
    at hlist
  exact hlist

/-- The reviewers' placements are for requested reviews, and of each kind one for a review. -/
structure Seated (db : Db) : Prop where
  consistent : Consistent db
  rows : ∀ p ∈ db.placement.placements.rows, isReviewerRole p.decided.seat.role = true →
    ∃ reviewId target branch scope, SeatOf db.review p reviewId target branch scope
  once : ∀ reviewId kind, (db.placement.placements.rows.countP fun p =>
    placesSeatOf reviewId p && p.decided.kind == kind) ≤ 1

theorem Seated.empty (clock : ℕ → ℕ) : Seated { clock } where
  consistent := .empty clock
  rows := fun _ hp => absurd hp List.not_mem_nil
  once _ _ := Nat.zero_le _

section

variable {db db' : Db} {event : NewEvent Payload}

/-- An event that places nothing leaves the seats alone. -/
theorem Seated.commit (h : Seated db) (hother : event.payload.projector ≠ .placement)
    (hcommit : db.commit event = .ok db') : Seated db' := by
  have hrows : db'.placement = db.placement := same_of_commit (p := .placement) hother hcommit
  refine ⟨h.consistent.commit hcommit, ?_, ?_⟩
  · rw [hrows]
    intro p hp hrole
    obtain ⟨reviewId, target, branch, scope, hseat⟩ := h.rows p hp hrole
    refine ⟨reviewId, target, branch, scope, { hseat with request := ?_ }⟩
    exact hseat.request.commit h.consistent hcommit
  · rw [hrows]
    exact h.once

theorem Seated.emits {P : EventClass} (h : Seated db)
    (hP : ∀ s e, P s e → e.payload.projector ≠ .placement) (hemits : Emits P db db') : Seated db' :=
  hemits.preserves Seated (fun event s _ hevent hs hcommit => hs.commit (hP s event hevent) hcommit) h

/-- The decision about an agent, as it is stored. -/
def placementRow (db : Db) (agent : String) (payload : PlacementDecided) : PlacementRecord where
  seq := db.nextSeq
  agent
  decided := storedPlacement payload
  recordedTs := db.clock db.nextSeq

@[simp] theorem storedPlacement_seat (payload : PlacementDecided) :
    (storedPlacement payload).seat = payload.seat := by
  cases payload <;> rfl

@[simp] theorem storedPlacement_kind (payload : PlacementDecided) :
    (storedPlacement payload).kind = payload.kind := by
  cases payload <;> rfl

/-- A decision that is committed adds its row. -/
theorem rows_of_placement {agent : String} {payload : PlacementDecided} (hdb : Consistent db)
    (hevent : Places event agent payload) (hcommit : db.commit event = .ok db') :
    db'.placement.placements.rows =
      db.placement.placements.rows ++ [placementRow db agent payload] := by
  have hrow : placementOf (db.stored event) = some (placementRow db agent payload) := by
    have hpayload : (db.stored event).payload = .dispatch (.placementDecided payload) := hevent.1
    have hscope : afterPrefix? PLACEMENT_SCOPE_PREFIX (db.stored event).scope = some agent := by
      change afterPrefix? PLACEMENT_SCOPE_PREFIX event.scope = some agent
      rw [hevent.2]
      exact afterPrefix?_append _ _
    rw [placementOf, hpayload]
    exact Option.map_eq_some_iff.2 ⟨agent, hscope, rfl⟩
  rw [placements_eq hdb, placements_eq (hdb.commit hcommit), (folded_of_commit hcommit).2,
    List.filterMap_append, List.filterMap_cons_some hrow, List.filterMap_nil]

/-- Another decision of a kind is counted with those that are there. -/
theorem countP_concat {p : PlacementRecord → Bool} {rows : List PlacementRecord}
    {row : PlacementRecord} (honce : rows.countP p ≤ 1)
    (hnone : p row = true → ∀ q ∈ rows, p q = false) : (rows ++ [row]).countP p ≤ 1 := by
  rw [List.countP_append, List.countP_singleton]
  split
  · next hrow =>
    have hzero : rows.countP p = 0 :=
      List.countP_eq_zero.2 fun q hq => Bool.eq_false_iff.1 (hnone hrow q hq)
    omega
  · omega

end

/-- One more placement keeps the seats, when it is for a requested review that has none of its
kind. -/
theorem Seated.add {db db' : Db} {row : PlacementRecord} (h : Seated db) (hdb' : Consistent db')
    (hrows : db'.placement.placements.rows = db.placement.placements.rows ++ [row])
    (hkept : ∀ reviewId target branch scope, ScopedTo db.review reviewId target branch scope →
      ScopedTo db'.review reviewId target branch scope)
    (hseat : isReviewerRole row.decided.seat.role = true →
      ∃ reviewId target branch scope, SeatOf db'.review row reviewId target branch scope)
    (hfirst : ∀ reviewId, placesSeatOf reviewId row = true →
      ∀ p ∈ db.placement.placements.rows, placesSeatOf reviewId p = true →
        p.decided.kind ≠ row.decided.kind) : Seated db' where
  consistent := hdb'
  rows := by
    rw [hrows]
    intro p hp hrole
    rcases List.mem_append.1 hp with hp | hp
    · obtain ⟨reviewId, target, branch, scope, hp⟩ := h.rows p hp hrole
      exact ⟨reviewId, target, branch, scope, { hp with request := hkept _ _ _ _ hp.request }⟩
    · obtain rfl := List.mem_singleton.1 hp
      exact hseat hrole
  once := by
    rw [hrows]
    intro reviewId kind
    refine countP_concat (h.once reviewId kind) fun hrow p hp => ?_
    simp only [Bool.and_eq_true, beq_iff_eq] at hrow
    rw [Bool.eq_false_iff]
    simp only [ne_eq, Bool.and_eq_true, beq_iff_eq, not_and]
    intro hplaces hkind
    exact hfirst reviewId hrow.1 p hp hplaces (hkind.trans hrow.2.symm)

/-- A placement that is no reviewer's keeps the seats. -/
theorem Seated.place_other {db db' : Db} {agent : String} {payload : PlacementDecided}
    {event : NewEvent Payload} (h : Seated db) (hevent : Places event agent payload)
    (hrole : isReviewerRole payload.seat.role = false) (hcommit : db.commit event = .ok db') :
    Seated db' := by
  have hrow : isReviewerRole (placementRow db agent payload).decided.seat.role = false := by
    rw [placementRow, storedPlacement_seat, hrole]
  refine h.add (h.consistent.commit hcommit) (rows_of_placement h.consistent hevent hcommit)
    (fun _ _ _ _ hscoped => hscoped.commit h.consistent hcommit) (fun hreviewer => ?_)
    fun reviewId hplaces => ?_
  · exact nomatch hrow.symm.trans hreviewer
  · rw [placesSeatOf, isReviewerPlacementForReview, hrow, Bool.and_false] at hplaces
    cases hplaces

/-! ## A decision about a seat -/

section

variable {placer : Review.ReviewerPlacer} {req : ReviewTriggerRequest} {scope : ReviewScope}
  {projectId seat : String} {placement : PlacementDecided} {usage : Dispatch.UsageTables}
  {db db' : Db}

/-- A review that a trigger looks after: the latest of its pair, in its scope. -/
def Current (db : Db) (req : ReviewTriggerRequest) (scope : ReviewScope) : Prop :=
  ∃ record, selectReviewRequest db.review req.target req.branch = some record ∧
    record.reviewId = req.reviewId ∧ record.scope = scope

theorem Current.scopedTo (hdb : Consistent db) (h : Current db req scope) :
    ScopedTo db.review req.reviewId req.target req.branch scope := by
  obtain ⟨record, hrecord, hid, hscope⟩ := h
  obtain ⟨row, hrow, hrest⟩ := Option.bind_eq_some_iff.1 hrecord
  obtain ⟨ts, hts, heq⟩ := Option.bind_eq_some_iff.1 hrest
  obtain rfl := Option.some.inj heq
  obtain ⟨id, hrowId, hregistered⟩ := (Review.registered_of_consistent hdb).rows _ row hrow
    (by rw [hts]; rfl)
  have hsame : id = req.reviewId := by simpa [Review.rowToReviewRequestRecord, hrowId] using hid
  subst hsame
  refine ⟨hregistered, fun record' hrecord' _ => ?_⟩
  rw [Option.some.inj (hrecord'.symm.trans hrecord), hscope]

/-- What is recorded about the seat of a review names the review. -/
theorem seatOf_of_record
    (hdecide : decideReviewerSeat placer usage db.placement req scope projectId =
      .ok (.record seat placement)) {t : ReviewTables}
    (hrequest : ScopedTo t req.reviewId req.target req.branch scope) :
    SeatOf t (placementRow db seat placement) req.reviewId req.target req.branch scope := by
  obtain ⟨role, resolution, -, rfl, rfl⟩ := (Review.seats_of_record hdecide).role
  cases resolution <;> exact ⟨rfl, rfl, rfl, rfl, rfl, hrequest⟩

/-- A seat of the review belongs to that review only. -/
theorem reviewId_of_places {t : ReviewTables} {p : PlacementRecord}
    {reviewId reviewId' target branch : String} {scope : ReviewScope}
    (hseat : SeatOf t p reviewId target branch scope) (hplaces : placesSeatOf reviewId' p = true) :
    reviewId = reviewId' := by
  have hagent := (Bool.and_eq_true_iff.1 hplaces).1
  rw [beq_iff_eq, hseat.agent] at hagent
  exact reviewerSeat_inj hagent

/-- All placements of the review's seat are found by who looks for them. -/
theorem compatible_of_places (h : Seated db)
    (hrequest : ScopedTo db.review req.reviewId req.target req.branch scope)
    (hcurrent : ∃ record, selectReviewRequest db.review req.target req.branch = some record ∧
      record.reviewId = req.reviewId) {p : PlacementRecord}
    (hp : p ∈ db.placement.placements.rows) (hplaces : placesSeatOf req.reviewId p = true) :
    p ∈ compatibleReviewerPlacements db.placement req scope := by
  obtain ⟨reviewId, target, branch, scope', hseat⟩ :=
    h.rows p hp (Bool.and_eq_true_iff.1 hplaces).2
  obtain rfl := reviewId_of_places hseat hplaces
  have hpair := hseat.request.registered.symm.trans hrequest.registered
  simp only [Option.some.injEq, Review.RequestIdRow.mk.injEq, true_and] at hpair
  obtain ⟨rfl, rfl⟩ := hpair
  obtain ⟨record, hrecord, hid⟩ := hcurrent
  have hscope : scope' = scope :=
    (hseat.request.scope record hrecord hid).symm.trans (hrequest.scope record hrecord hid)
  subst hscope
  have hread : p ∈ Dispatch.readPlacements db.placement := by
    simpa [Dispatch.readPlacements] using hp
  refine List.mem_filter.2 ⟨List.mem_filter.2 ⟨hread, hplaces⟩, ?_⟩
  simp [Review.placementMatchesReview, hseat.ofReview, hseat.ofTarget, hseat.ofBranch, hseat.ofScope]

/-- What is recorded about the seat is the first of its kind. -/
theorem first_of_record (h : Seated db) (hcurrent : Current db req scope)
    (hdecide : decideReviewerSeat placer usage db.placement req scope projectId =
      .ok (.record seat placement)) {p : PlacementRecord} (hp : p ∈ db.placement.placements.rows)
    (hplaces : placesSeatOf req.reviewId p = true) : p.decided.kind ≠ placement.kind := by
  have hrequest := hcurrent.scopedTo h.consistent
  obtain ⟨record, hrecord, hid, -⟩ := hcurrent
  have hcompatible := compatible_of_places h hrequest ⟨record, hrecord, hid⟩ hp hplaces
  have hseats := Review.seats_of_record hdecide
  intro hkind
  cases hdecided : p.decided with
  | placed _ _ =>
    have hplaced := hseats.unplaced p hcompatible
    rw [isPlaced, hdecided] at hplaced
    cases hplaced
  | waiting _ _ =>
    rw [hdecided] at hkind
    have hnone := hseats.waiting hkind.symm
    rw [List.any_eq_false] at hnone
    refine hnone p hcompatible ?_
    rw [isWaiting, hdecided]
    rfl

/-- A decision about the seat of a review that is looked after keeps the seats. -/
theorem Seated.place_current {event : NewEvent Payload} (h : Seated db)
    (hcurrent : Current db req scope)
    (hdecide : decideReviewerSeat placer usage db.placement req scope projectId =
      .ok (.record seat placement)) (hevent : Places event seat placement)
    (hcommit : db.commit event = .ok db') : Seated db' := by
  have hrequest := hcurrent.scopedTo h.consistent
  have hseat := seatOf_of_record hdecide (hrequest.commit h.consistent hcommit)
  refine h.add (h.consistent.commit hcommit) (rows_of_placement h.consistent hevent hcommit)
    (fun _ _ _ _ hscoped => hscoped.commit h.consistent hcommit) (fun _ => ⟨_, _, _, _, hseat⟩)
    fun reviewId hplaces p hp hother => ?_
  obtain rfl := reviewId_of_places hseat hplaces
  rw [placementRow, storedPlacement_kind]
  exact first_of_record h hcurrent hdecide hp hother

/-- The seat of a new review is placed with its request. -/
theorem Seated.place_new {requested : ReviewRequested} {mid : Db}
    {placed request : NewEvent Payload} (h : Seated db) (hfor : RequestFor req requested)
    (hscope : requested.scope.getD .workerMerge = scope) (hnew : NewId db req.reviewId)
    (hdecide : decideReviewerSeat placer usage db.placement req scope projectId =
      .ok (.record seat placement)) (hplaces : Places placed seat placement)
    (hrequest : Carries request (.requested requested)) (hplaced : db.commit placed = .ok mid)
    (hrequested : mid.commit request = .ok db') : Seated db' := by
  obtain ⟨hreviewId, htarget, hbranch⟩ := hfor
  have hmid : Consistent mid := h.consistent.commit hplaced
  have hreview : mid.review = db.review := same_of_placement (p := .review) hplaces (by simp) hplaced
  have hnewMid : NewId mid requested.reviewId := by rwa [NewId, hreview, hreviewId]
  obtain ⟨⟨record, hrecord, hid, -, -, hrecordScope⟩, -⟩ :=
    opened_of_request hrequest hnewMid hrequested
  rw [htarget, hbranch] at hrecord
  have hscoped : ScopedTo db'.review req.reviewId req.target req.branch scope :=
    Current.scopedTo (hmid.commit hrequested)
      ⟨record, hrecord, hid.trans hreviewId, hrecordScope.trans hscope⟩
  have hseat := seatOf_of_record hdecide hscoped
  have hrows : db'.placement.placements.rows =
      db.placement.placements.rows ++ [placementRow db seat placement] := by
    have hsame : db'.placement = mid.placement :=
      same_of_request (p := .placement) hrequest (by simp) hrequested
    rw [hsame, rows_of_placement h.consistent hplaces hplaced]
  refine h.add (hmid.commit hrequested) hrows (fun _ _ _ _ hold => ?_)
    (fun _ => ⟨_, _, _, _, hseat⟩) fun reviewId hown p hp hother => ?_
  · exact (hold.commit h.consistent hplaced).commit hmid hrequested
  · -- a new review has no seat yet
    obtain rfl := reviewId_of_places hseat hown
    obtain ⟨_, target, branch, scope', hp'⟩ := h.rows p hp (Bool.and_eq_true_iff.1 hother).2
    obtain rfl := reviewId_of_places hp' hother
    have hregistered := hnew.symm.trans hp'.request.registered
    exact absurd hregistered (by simp)

end

end Orchestration.Replay
