import Orchestration.Replay.ReviewerSeats

/-!
# Reviewers over whole runs

Triggers and drives follow one another in any order, with any other calls of the stores between
them. Each seat of a review is placed once and waits once, and a drive launches nobody for a
review that is answered, or that another branch has taken the slot from.
-/

namespace Orchestration.Replay

open Fallible Transaction
open Transaction.Proc (onError unlessFault when)
open Orchestration.Dispatch (PlacementDecided PlacementRecord recordPlacement
  recordPlacementWithReviewRequest)
open Orchestration.Review (ReviewRequested ReviewRequestRecord ReviewScope ReviewTriggerDeps
  ReviewTriggerRequest Reviewing SeatDecision TriggerFaults TriggerPath TriggerProc
  activeSerializedFromEvents decideReviewerSeat isReviewerRole redriveWaitingReviewer
  selectReviewRequest selectReviewRequestById selectVerdict snapshot triggerReview)
open Orchestration.Review.TriggerProc (onStores)

/-! ## Steps that place nobody -/

/-- An event that is no decision about a seat. -/
def PlacesNone : EventClass := fun _ event => event.payload.projector ≠ .placement

/-- A step of a trigger that records no decision about a seat. -/
def Unplacing {α : Type} (p : TriggerProc α) : Prop :=
  ∀ s : Reviewing, Consistent s.db → Emits PlacesNone s.db (p s).2.db

section

variable {α β : Type} {p : TriggerProc α} {s : Reviewing}

theorem Unplacing.consistent (h : Unplacing p) (hdb : Consistent s.db) : Consistent (p s).2.db :=
  hdb.emits ((h s hdb).mono fun _ _ _ => trivial)

theorem Unplacing.seated (h : Unplacing p) (hs : Seated s.db) : Seated (p s).2.db :=
  hs.emits (fun _ _ hevent => hevent) (h s hs.consistent)

theorem unplacing_pure (a : α) : Unplacing (pure a : TriggerProc α) := fun _ _ => .refl

theorem unplacing_liftM (x : Except String α) : Unplacing (liftM x : TriggerProc α) :=
  fun _ _ => .refl

theorem Unplacing.bind {f : α → TriggerProc β} (hp : Unplacing p) (hf : ∀ a, Unplacing (f a)) :
    Unplacing (p >>= f) := by
  intro s hdb
  have hfirst := hp s hdb
  have hmid := @Unplacing.consistent α p s hp hdb
  rcases hrun : p s with ⟨e | a, mid⟩
  · rw [Proc.bind_error hrun]
    rw [hrun] at hfirst
    exact hfirst
  · rw [Proc.bind_apply hrun]
    rw [hrun] at hfirst hmid
    exact hfirst.trans (hf a mid hmid)

theorem Unplacing.when {p : TriggerProc Unit} (hp : Unplacing p) (c : Bool) :
    Unplacing (when c p) := by
  cases c with
  | false => exact unplacing_pure ()
  | true => exact hp

theorem mail_folders (delivery : Mail.Delivery) (call : Mail.MailCall) :
    Projector.placement ∉ (StoreCall.mail delivery call).folders := by
  simp [StoreCall.folders]

theorem review_folders (call : Review.ReviewCall) :
    Projector.placement ∉ (StoreCall.review call).folders := by
  simp [StoreCall.folders]

/-- A step on the stores that appends what a call of them appends. -/
theorem unplacing_call {p : StoreProc α} (call : StoreCall) (hfolders : .placement ∉ call.folders)
    (hexec : ∀ db, p.exec db = call.exec db) (fault : Option String) :
    Unplacing (onStores (unlessFault fault p)) := by
  intro s hdb
  cases fault with
  | some e => exact .refl
  | none =>
    have hemits : Emits PlacesNone s.db (call.exec s.db) :=
      (StoreCall.exec_folders hdb call).mono fun _ _ hevent heq => hfolders (heq ▸ hevent)
    rw [← hexec] at hemits
    exact hemits

end

section

variable {deps : ReviewTriggerDeps} {faults : TriggerFaults} {req : ReviewTriggerRequest}
  {scope : ReviewScope} {projectId : String}

theorem unplacing_kickoff (agent : String) :
    Unplacing (Review.seedReviewerKickoff deps faults req agent scope) := by
  rw [Review.seedReviewerKickoff]
  cases deps.mail with
  | none => exact unplacing_pure ()
  | some delivery =>
    refine unplacing_call (.mail delivery (.send (Review.reviewerKickoff req agent scope)))
      (mail_folders _ _) (fun db => ?_) _
    change ((Mail.MailStore.send delivery _ >>= fun _ => pure ()) db).2 =
      (Mail.MailStore.send delivery _ db).2
    rcases hrun : Mail.MailStore.send delivery (Review.reviewerKickoff req agent scope) db with
      ⟨e | mail, last⟩
    · rw [Proc.bind_error hrun]
    · rw [Proc.bind_apply hrun]
      rfl

theorem unplacing_launch (placement : PlacementRecord) :
    Unplacing (Review.launchSeat deps faults req scope projectId placement) :=
  Unplacing.when ((unplacing_kickoff _).bind fun _ _ _ => .refl) _

theorem unplacing_request (requested : ReviewRequested) :
    Unplacing (Review.recordRequest faults requested) := by
  have hrecord : Unplacing (onStores (unlessFault faults.record
      (transaction (Review.recordReviewRequested requested)))) :=
    unplacing_call (.review (.recordReviewRequested requested)) (review_folders _)
      (fun _ => rfl) _
  exact hrecord.bind fun rec_ => unplacing_pure _

theorem unplacing_snapshot (fault : Option String) :
    Unplacing (onStores (unlessFault fault snapshot)) := by
  intro s hdb
  cases fault with
  | some e => exact .refl
  | none =>
    have hsnapshot := snapshot_eq hdb
    change Emits PlacesNone s.db (snapshot s.db).2
    rw [hsnapshot]

theorem unplacing_restore (slot : Review.MergeSlotResult) :
    Unplacing (Review.restoreSlot faults req slot) := by
  have hrelease : Unplacing (onStores (unlessFault faults.release
      (transaction (Review.releaseSerialized req.slot)))) :=
    unplacing_call (.review (.releaseSerialized req.slot)) (review_folders _) (fun _ => rfl) _
  exact (unplacing_snapshot _).bind fun db => hrelease.when _

theorem unplacing_acquire :
    Unplacing (onStores (unlessFault faults.acquire
      (transaction (Review.acquireSerialized req.slot)))) :=
  unplacing_call (.review (.acquireSerialized req.slot)) (review_folders _) (fun _ => rfl) _

theorem unplacing_human (requested : ReviewRequested) :
    Unplacing (onStores (unlessFault faults.record
      (Mail.MailStore.requestHumanReview (Review.reviewRequestEnvelope req) requested))) :=
  unplacing_call (.mail .inProcess
    (.requestHumanReview (Review.reviewRequestEnvelope req) requested)) (mail_folders _ _)
    (fun _ => rfl) _

end

/-! ## Steps that place a reviewer -/

section

variable {deps : ReviewTriggerDeps} {faults : TriggerFaults} {req : ReviewTriggerRequest}
  {scope : ReviewScope} {projectId seat : String} {placement : PlacementDecided} {s : Reviewing}

/-- After the decision is recorded, the seat is launched if it is placed. -/
theorem unplacing_after {α : Type} (record : PlacementRecord) (a : α) :
    Unplacing (do
      when (placement.kind == "placed") (Review.launchSeat deps faults req scope projectId record)
      pure a) :=
  ((unplacing_launch record).when _).bind fun _ => unplacing_pure a

theorem seated_recordSeat (hs : Seated s.db) (hcurrent : Current s.db req scope)
    (hdecide : decideReviewerSeat deps.placer s.db.usage s.db.placement req scope projectId =
      .ok (.record seat placement)) :
    Seated (Review.recordSeat deps faults req scope projectId seat placement none s).2.db := by
  have hrecord : ∀ {result : Except String PlacementRecord} {mid : Reviewing},
      onStores (unlessFault faults.record (transaction (recordPlacement seat placement))) s =
        (result, mid) → Seated mid.db := by
    intro result mid hstep
    obtain ⟨db, hrun, rfl⟩ := Proc.on_eq.1 hstep
    cases result with
    | error e =>
      rw [((Proc.atomic_transaction _).unlessFault _) _ _ _ hrun]
      exact hs
    | ok record =>
      obtain ⟨-, hdone⟩ := Proc.unlessFault_eq_ok.1 hrun
      obtain ⟨e, he, hcommit⟩ := Dispatch.recordPlacement_eq_ok (transaction_eq_ok.1 hdone)
      exact hs.place_current hcurrent hdecide (places_of_make he) hcommit
  rw [Review.recordSeat]
  rcases hrun : onStores (unlessFault faults.record
      (transaction (recordPlacement seat placement))) s with ⟨e | record, mid⟩
  · rw [Proc.bind_error hrun]
    exact hrecord hrun
  · rw [Proc.bind_apply hrun]
    exact (unplacing_after record none).seated (hrecord hrun)

theorem seated_recordSeat_new {requested : ReviewRequested} (hs : Seated s.db)
    (hfor : RequestFor req requested) (hscope : requested.scope.getD .workerMerge = scope)
    (hnew : NewId s.db req.reviewId)
    (hdecide : decideReviewerSeat deps.placer s.db.usage s.db.placement req scope projectId =
      .ok (.record seat placement)) :
    Seated (Review.recordSeat deps faults req scope projectId seat placement
      (some requested) s).2.db := by
  have hrecord : ∀ {result : Except String (PlacementRecord × ReviewRequestRecord)}
      {mid : Reviewing}, onStores (unlessFault faults.record
        (transaction (recordPlacementWithReviewRequest seat placement requested))) s =
          (result, mid) → Seated mid.db := by
    intro result mid hstep
    obtain ⟨db, hrun, rfl⟩ := Proc.on_eq.1 hstep
    cases result with
    | error e =>
      rw [((Proc.atomic_transaction _).unlessFault _) _ _ _ hrun]
      exact hs
    | ok record =>
      obtain ⟨-, hdone⟩ := Proc.unlessFault_eq_ok.1 hrun
      obtain ⟨placed, request, hplaced, hrequest, hcommit⟩ :=
        Dispatch.recordPlacementWithReviewRequest_spec hs.consistent (transaction_eq_ok.1 hdone)
      obtain ⟨mid, hfirst, hrest⟩ := Db.commitAll_cons.1 hcommit
      obtain ⟨last, hsecond, hnil⟩ := Db.commitAll_cons.1 hrest
      obtain rfl := Except.ok.inj hnil
      exact hs.place_new hfor hscope hnew hdecide (places_of_make hplaced) hrequest hfirst hsecond
  rw [Review.recordSeat]
  rcases hrun : onStores (unlessFault faults.record
      (transaction (recordPlacementWithReviewRequest seat placement requested))) s with
    ⟨e | ⟨record, opened⟩, mid⟩
  · rw [Proc.bind_error hrun]
    exact hrecord hrun
  · rw [Proc.bind_apply hrun]
    exact (unplacing_after record (some opened)).seated (hrecord hrun)

/-- To find or place a seat keeps the seats, if recording a decision does. -/
theorem seated_placement {request : Option ReviewRequested} (hs : Seated s.db)
    (hrecord : ∀ seat placement, decideReviewerSeat deps.placer s.db.usage s.db.placement req scope
      projectId = .ok (.record seat placement) →
        Seated (Review.recordSeat deps faults req scope projectId seat placement request s).2.db) :
    Seated (Review.recordReviewerPlacement deps faults req scope projectId request s).2.db := by
  cases hdispatch : deps.dispatch with
  | false =>
    rw [Review.recordReviewerPlacement, hdispatch]
    exact hs
  | true =>
    rw [recordReviewerPlacement_eq hdispatch]
    cases hdecide : decideReviewerSeat deps.placer s.db.usage s.db.placement req scope
        projectId with
    | error e => exact hs
    | ok decision =>
      cases decision with
      | stay => exact hs
      | resume placement =>
        exact Unplacing.seated ((unplacing_launch placement).bind fun _ => unplacing_pure none) hs
      | record seat placement => exact hrecord seat placement hdecide

/-- Opening and closing the config store keeps the seats. -/
theorem seated_withConfig {α : Type} {p : TriggerProc α} (hs : Seated s.db)
    (hp : Seated (p s).2.db) : Seated (Review.withConfig faults p s).2.db := by
  rcases hrun : Review.withConfig faults p s with ⟨result, last⟩
  rcases withConfig_state hrun with rfl | rfl
  · exact hs
  · exact hp

/-! ## A trigger -/

/-- What is opened under the slot keeps the seats. -/
theorem seated_openUnderSlot {requested : ReviewRequested} (hs : Seated s.db)
    (hfor : RequestFor req requested) (hscope : requested.scope.getD .workerMerge = req.reviewScope)
    (hnew : NewId s.db req.reviewId) :
    Seated (Review.openUnderSlot deps faults req requested s).2.db := by
  cases hproject : req.projectId with
  | none =>
    rw [Review.openUnderSlot, hproject]
    exact (unplacing_request requested).seated hs
  | some projectId =>
    have hplaced : Seated (Review.recordReviewerPlacement deps faults req req.reviewScope projectId
        (some requested) s).2.db :=
      seated_placement hs fun seat placement hdecide =>
        seated_recordSeat_new hs hfor hscope hnew hdecide
    have hwith : ∀ {result : Except String (Option ReviewRequestRecord)} {mid : Reviewing},
        Review.withConfig faults (Review.recordReviewerPlacement deps faults req req.reviewScope
          projectId (some requested)) s = (result, mid) → Seated mid.db := by
      intro result mid hstep
      have hkept := @seated_withConfig faults s _ _ hs hplaced
      rwa [hstep] at hkept
    rcases hrun : Review.openUnderSlot deps faults req requested s with ⟨result, last⟩
    rw [Review.openUnderSlot, hproject] at hrun
    rcases Proc.bind_cases hrun with ⟨e, hfailed, -⟩ | ⟨recorded, mid, hdone, hrest⟩
    · exact hwith hfailed
    · cases recorded with
      | none =>
        have hrequest : Review.recordRequest faults requested mid = (result, last) := hrest
        have hrecorded := (@unplacing_request faults requested).seated (hwith hdone)
        rwa [hrequest] at hrecorded
      | some opened =>
        obtain ⟨-, rfl⟩ := Prod.mk.inj hrest
        exact hwith hdone

/-- Taking the slot registers no review. -/
theorem newId_acquire {reviewId : String} {result : Except String Review.MergeSlotResult}
    {mid : Reviewing} (hdb : Consistent s.db) (hnew : NewId s.db reviewId)
    (h : onStores (unlessFault faults.acquire (transaction (Review.acquireSerialized req.slot))) s =
      (result, mid)) : NewId mid.db reviewId := by
  obtain ⟨db, hrun, rfl⟩ := Proc.on_eq.1 h
  cases result with
  | error e =>
    rw [((Proc.atomic_transaction _).unlessFault _) _ _ _ hrun]
    exact hnew
  | ok slot =>
    obtain ⟨-, hdone⟩ := Proc.unlessFault_eq_ok.1 hrun
    rcases Review.acquireSerialized_spec hdb (transaction_eq_ok.1 hdone) with
      ⟨hfree, -, event, hevent, hcommit⟩ | ⟨rfl, -⟩
    · rw [NewId, (slotJustTaken hdb hfree hevent hcommit).ids]
      exact hnew
    · exact hnew

theorem seated_openReview {requested : ReviewRequested} (hs : Seated s.db)
    (hfor : RequestFor req requested) (hscope : requested.scope.getD .workerMerge = req.reviewScope)
    (hnew : NewId s.db req.reviewId) :
    Seated (Review.openReview deps faults req requested s).2.db := by
  have hacquire : ∀ {result : Except String Review.MergeSlotResult} {mid : Reviewing},
      onStores (unlessFault faults.acquire (transaction (Review.acquireSerialized req.slot))) s =
        (result, mid) → Seated mid.db := by
    intro result mid hstep
    have hkept := (@unplacing_acquire faults req).seated hs
    rwa [hstep] at hkept
  rcases hrun : Review.openReview deps faults req requested s with ⟨result, last⟩
  rw [Review.openReview] at hrun
  rcases Proc.bind_cases hrun with ⟨e, hfailed, -⟩ | ⟨slot, mid, hslot, hrest⟩
  · exact hacquire hfailed
  · have hmid := hacquire hslot
    have hopened : Seated (Review.openUnderSlot deps faults req requested mid).2.db :=
      seated_openUnderSlot hmid hfor hscope (newId_acquire hs.consistent hnew hslot)
    rcases Proc.bind_cases hrest with ⟨e, hrefused, -⟩ | ⟨_, mid', hpassed, hwork⟩
    · obtain ⟨-, rfl⟩ := Prod.mk.inj hrefused
      exact hmid
    · obtain ⟨-, rfl⟩ := Prod.mk.inj hpassed
      cases result with
      | ok opened =>
        have hdone := Proc.onError_eq_ok.1 hwork
        rwa [hdone] at hopened
      | error e =>
        obtain ⟨cause, failed, hfailed, hclean⟩ := Proc.onError_eq_error.1 hwork
        rw [hfailed] at hopened
        have hrestored := (@unplacing_restore faults req slot).seated hopened
        rcases hclean with ⟨hclean, -⟩ | hclean
        · rwa [hclean] at hrestored
        · rwa [hclean] at hrestored

end

section

variable {deps : ReviewTriggerDeps} {req : ReviewTriggerRequest} {db : Db}

/-- A new review is requested in the scope of the trigger. -/
theorem scope_of_fresh {requested : ReviewRequested}
    (h : Review.triggerChecks deps req db = .ok (.fresh requested)) :
    requested.scope = some req.reviewScope := by
  rcases triggerChecks_cases h with ⟨existing, -, -, hrepeated⟩ | ⟨-, hfresh⟩
  · rcases repeatedTrigger_cases hrepeated with hpath | ⟨_, -, hpath⟩ | ⟨_, hpath⟩ <;> cases hpath
  · simp only [Review.freshTrigger, bind_eq_ok] at hfresh
    obtain ⟨_, -, kind, -, _, -, _, -, hpath⟩ := hfresh
    cases kind with
    | human =>
      obtain ⟨_, -, _, -, hpath⟩ := by simpa only [bind_eq_ok] using hpath
      cases pure_eq_ok.1 hpath
    | agent =>
      obtain ⟨_, -, hpath⟩ := by simpa only [bind_eq_ok] using hpath
      cases pure_eq_ok.1 hpath
      rfl

/-- The seat that is looked after again is that of the current review. -/
theorem current_of_seat {existing : ReviewRequestRecord} {projectId : String}
    (h : Review.triggerChecks deps req db = .ok (.seat existing projectId)) :
    Current db req req.reviewScope := by
  rcases triggerChecks_cases h with ⟨existing', hselect, hid, hrepeated⟩ | ⟨-, hfresh⟩
  · simp only [Review.repeatedTrigger, Review.assertSameTrigger, bind_eq_ok, refuse_eq_ok] at hrepeated
    obtain ⟨_, ⟨_, hscope, -⟩, -⟩ := hrepeated
    exact ⟨existing', hselect, hid, not_not.1 hscope⟩
  · obtain ⟨-, requested', -, hpath | hpath⟩ := freshTrigger_cases hfresh <;> cases hpath

end

/-- A snapshot that is read is the project as it is. -/
theorem read_snapshot {fault : Option String} {s mid : Reviewing} (hdb : Consistent s.db) {db : Db}
    (h : onStores (unlessFault fault snapshot) s = (.ok db, mid)) : db = s.db ∧ mid = s := by
  obtain ⟨db', hrun, rfl⟩ := Proc.on_eq.1 h
  obtain ⟨-, hread⟩ := Proc.unlessFault_eq_ok.1 hrun
  obtain ⟨hsame, rfl⟩ := Prod.mk.inj (hread.symm.trans (snapshot_eq hdb))
  exact ⟨Except.ok.inj hsame, rfl⟩

section

variable {deps : ReviewTriggerDeps} {faults : TriggerFaults} {req : ReviewTriggerRequest}
  {s : Reviewing}

theorem seated_followPath {path : TriggerPath} (hs : Seated s.db)
    (hpath : Review.triggerChecks deps req s.db = .ok path) :
    Seated (Review.followPath deps faults req path s).2.db := by
  cases path with
  | settled existing => exact hs
  | human requested =>
    exact ((@unplacing_human faults req requested).bind fun _ => unplacing_pure _).seated hs
  | seat existing projectId =>
    have hplaced : Seated (Review.recordReviewerPlacement deps faults req req.reviewScope projectId
        none s).2.db :=
      seated_placement hs fun seat placement hdecide =>
        seated_recordSeat hs (current_of_seat hpath) hdecide
    have hkept := @seated_withConfig faults s _ _ hs hplaced
    rcases hrun : Review.followPath deps faults req (.seat existing projectId) s with ⟨result, last⟩
    rcases Proc.bind_cases hrun with ⟨e, hfailed, -⟩ | ⟨_, mid, hdone, hpure⟩
    · rwa [hfailed] at hkept
    · obtain ⟨-, rfl⟩ := Prod.mk.inj hpure
      rwa [hdone] at hkept
  | fresh requested =>
    obtain ⟨hfor, hnew⟩ := new_of_fresh hs.consistent hpath
    have hscope : requested.scope.getD .workerMerge = req.reviewScope := by
      rw [scope_of_fresh hpath]
      rfl
    exact seated_openReview hs hfor hscope hnew

/-- A trigger keeps the seats. -/
theorem seated_trigger (hs : Seated s.db) : Seated (triggerReview deps faults req s).2.db := by
  rcases hrun : triggerReview deps faults req s with ⟨result, last⟩
  rw [triggerReview] at hrun
  have hsnapshot := (unplacing_snapshot faults.checks).seated hs
  rcases Proc.bind_cases hrun with ⟨e, hfailed, -⟩ | ⟨db, mid, hread, hrest⟩
  · rwa [hfailed] at hsnapshot
  · obtain ⟨rfl, hmid⟩ := read_snapshot hs.consistent hread
    rw [hmid] at hrest
    rcases Proc.bind_cases hrest with ⟨e, hrefused, -⟩ | ⟨path, mid, hchecked, hfollow⟩
    · obtain ⟨-, rfl⟩ := Prod.mk.inj hrefused
      exact hs
    · obtain ⟨hpath, rfl⟩ := Prod.mk.inj hchecked
      have hkept := @seated_followPath deps faults req s path hs hpath
      exact hfollow ▸ hkept

end

/-! ## A drive -/

/-- The review is open, and the slot of its target is its branch's. -/
def Drivable (db : Db) (reviewId : String) : Prop :=
  ∃ request, selectReviewRequestById db.review reviewId = some request ∧
    request.reviewId = reviewId ∧
    (∀ scope verdict, selectVerdict db.review request.target request.branch scope = some verdict →
      verdict.reviewId ≠ reviewId) ∧
    activeSerializedFromEvents db request.target = some request.branch

section

variable {db : Db} {reviewId : String} {request : ReviewRequestRecord}

/-- A request that is found by its id is the latest of its pair. -/
theorem latest_of_selectById (h : selectReviewRequestById db.review reviewId = some request) :
    selectReviewRequest db.review request.target request.branch = some request ∧
      request.reviewId = reviewId ∧ ∃ row, db.review.reviews.find? (request.target, request.branch) =
        some row ∧ row.scope = request.scope := by
  obtain ⟨row, hrow, hrest⟩ := Option.bind_eq_some_iff.1 h
  obtain ⟨ts, hts, heq⟩ := Option.bind_eq_some_iff.1 hrest
  obtain rfl := Option.some.inj heq
  have hopen := List.find?_some hrow
  simp only [Bool.and_eq_true, beq_iff_eq] at hopen
  have hfind : db.review.reviews.find? (row.target, row.branch) = some row :=
    Table.find?_eq_some.2 ⟨List.mem_of_find?_eq_some hrow, rfl⟩
  refine ⟨Option.bind_eq_some_iff.2 ⟨row, hfind, Option.bind_eq_some_iff.2 ⟨ts, hts, rfl⟩⟩, ?_,
    row, hfind, rfl⟩
  rw [Review.rowToReviewRequestRecord, hopen.1]
  rfl

/-- A review that the guards let pass can be driven. -/
theorem drivable_of_guards {deps : ReviewTriggerDeps}
    (h : Review.redriveGuards deps reviewId db = .inl request) :
    selectReviewRequestById db.review reviewId = some request ∧ Drivable db reviewId := by
  simp only [Review.redriveGuards] at h
  split at h
  · split at h
    · cases h
    · next request' hrequest =>
      split at h
      · cases h
      · split at h
        · cases h
        · next hverdict =>
          split at h
          · cases h
          · next hactive =>
            obtain rfl := Sum.inl.inj h
            obtain ⟨hlatest, hid, row, hrow, hscope⟩ := latest_of_selectById hrequest
            refine ⟨hrequest, request', hrequest, hid, fun scope verdict hselect hsame => ?_,
              not_not.1 hactive⟩
            -- the verdict of the pair is in the scope of the request, for one row holds both
            obtain ⟨row', hrow', hrest⟩ := Option.bind_eq_some_iff.1 hselect
            obtain rfl := Option.some.inj (hrow.symm.trans hrow')
            obtain ⟨found, hfound, hread⟩ := Option.bind_eq_some_iff.1 hrest
            split at hread
            · obtain rfl := Option.some.inj hread
              have hanswer : selectVerdict db.review request'.target request'.branch
                  request'.scope = some (Review.rowToReviewVerdictRecord row found) := by
                refine Option.bind_eq_some_iff.2 ⟨row, hrow, ?_⟩
                refine Option.bind_eq_some_iff.2 ⟨found, hfound, ?_⟩
                rw [hscope]
                simp
              rw [hanswer, Option.any_some, beq_iff_eq] at hverdict
              exact hverdict hsame
            · cases hread
  · cases h

end

/-- At most one seat was launched for the review, in the project as it is now. -/
def LaunchesLast (reviewId : String) (s s' : Reviewing) : Prop :=
  s'.launches = s.launches ∨
    ∃ launch, s'.launches = s.launches ++ [launch] ∧ launch.reviewId = reviewId ∧
      launch.db = s'.db

section

variable {deps : ReviewTriggerDeps} {faults : TriggerFaults} {req : ReviewTriggerRequest}
  {scope : ReviewScope} {projectId : String} {s s' : Reviewing}

theorem launches_onStores {α : Type} {p : StoreProc α} {result : Except String α}
    (h : onStores p s = (result, s')) : s'.launches = s.launches := by
  obtain ⟨db, -, rfl⟩ := Proc.on_eq.1 h
  rfl

theorem launches_kickoff {agent : String} {result : Except String Unit}
    (h : Review.seedReviewerKickoff deps faults req agent scope s = (result, s')) :
    s'.launches = s.launches := by
  rw [Review.seedReviewerKickoff] at h
  cases hmail : deps.mail with
  | none =>
    rw [hmail] at h
    obtain ⟨-, rfl⟩ := Prod.mk.inj h
    rfl
  | some delivery =>
    rw [hmail] at h
    exact launches_onStores h

theorem launches_launch {placement : PlacementRecord} {result : Except String Unit}
    (h : Review.launchSeat deps faults req scope projectId placement s = (result, s')) :
    LaunchesLast req.reviewId s s' := by
  rw [Review.launchSeat] at h
  cases hgate : deps.reviewerSpawnGate with
  | false =>
    rw [hgate] at h
    obtain ⟨-, rfl⟩ := Prod.mk.inj h
    exact .inl rfl
  | true =>
    rw [hgate, Proc.when_true] at h
    rcases Proc.bind_cases h with ⟨e, hfailed, -⟩ | ⟨_, mid, hsent, hfired⟩
    · exact .inl (launches_kickoff hfailed)
    · obtain ⟨-, rfl⟩ := Prod.mk.inj hfired
      refine .inr ⟨⟨projectId, placement, req.reviewId, mid.db⟩, ?_, rfl, rfl⟩
      rw [← launches_kickoff hsent]

theorem launches_recordSeat {seat : String} {placement : PlacementDecided}
    {result : Except String (Option ReviewRequestRecord)}
    (h : Review.recordSeat deps faults req scope projectId seat placement none s = (result, s')) :
    LaunchesLast req.reviewId s s' := by
  rcases Proc.bind_cases h with ⟨e, hfailed, -⟩ | ⟨record, mid, hrecorded, hrest⟩
  · exact .inl (launches_onStores hfailed)
  · have hmid : mid.launches = s.launches := launches_onStores hrecorded
    have hwhen : ∀ {result : Except String Unit} {last : Reviewing},
        when (placement.kind == "placed") (Review.launchSeat deps faults req scope projectId record)
          mid = (result, last) → LaunchesLast req.reviewId s last := by
      intro result last hlaunch
      rw [LaunchesLast, ← hmid]
      cases hkind : placement.kind == "placed" with
      | false =>
        rw [hkind] at hlaunch
        obtain ⟨-, rfl⟩ := Prod.mk.inj hlaunch
        exact .inl rfl
      | true =>
        rw [hkind] at hlaunch
        exact launches_launch hlaunch
    rcases Proc.bind_cases hrest with ⟨e, hfailed, -⟩ | ⟨_, last, hlaunched, hpure⟩
    · exact hwhen hfailed
    · obtain ⟨-, rfl⟩ := Prod.mk.inj hpure
      exact hwhen hlaunched

/-- To look after a seat launches at most once, and at the end. -/
theorem launches_placement {result : Except String (Option ReviewRequestRecord)}
    (h : Review.recordReviewerPlacement deps faults req scope projectId none s = (result, s')) :
    LaunchesLast req.reviewId s s' := by
  cases hdispatch : deps.dispatch with
  | false =>
    rw [Review.recordReviewerPlacement, hdispatch] at h
    obtain ⟨-, rfl⟩ := Prod.mk.inj h
    exact .inl rfl
  | true =>
    rw [recordReviewerPlacement_eq hdispatch] at h
    cases hdecide : decideReviewerSeat deps.placer s.db.usage s.db.placement req scope
        projectId with
    | error e =>
      rw [hdecide] at h
      obtain ⟨-, rfl⟩ := Prod.mk.inj h
      exact .inl rfl
    | ok decision =>
      rw [hdecide] at h
      cases decision with
      | stay =>
        obtain ⟨-, rfl⟩ := Prod.mk.inj h
        exact .inl rfl
      | resume placement =>
        rcases Proc.bind_cases h with ⟨e, hfailed, -⟩ | ⟨_, mid, hlaunched, hpure⟩
        · exact launches_launch hfailed
        · obtain ⟨-, rfl⟩ := Prod.mk.inj hpure
          exact launches_launch hlaunched
      | record seat placement => exact launches_recordSeat h

end

theorem Drivable.of_aside {db db' : Db} {reviewId : String} {n : ℕ} (h : Drivable db reviewId)
    (haside : Aside n db db') : Drivable db' reviewId := by
  obtain ⟨request, hrequest, hid, hopen, hactive⟩ := h
  refine ⟨request, ?_, hid, ?_, ?_⟩
  · rwa [haside.review]
  · rwa [haside.review]
  · exact (congrFun haside.slots request.target).trans hactive

section

variable {deps : ReviewTriggerDeps} {faults : TriggerFaults} {reviewId projectId : String}
  {retryPlaced : Bool} {s s' : Reviewing}

/-- What a drive leaves behind. -/
structure Driven (reviewId : String) (s s' : Reviewing) : Prop where
  seated : Seated s'.db
  aside : ∃ n, Aside n s.db s'.db
  launches : LaunchesLast reviewId s s'

theorem Driven.refl (hs : Seated s.db) : Driven reviewId s s :=
  ⟨hs, ⟨0, .refl hs.consistent⟩, .inl rfl⟩

/-- To decide about the waiting seat again is to look after it. -/
theorem driven_redecide {request : ReviewRequestRecord} {seats : List PlacementRecord} {db : Db}
    (hs : Seated s.db) (hrequest : selectReviewRequestById s.db.review reviewId = some request)
    {result : Except String Review.RedriveReviewerOutcome}
    (h : Review.redecide deps faults reviewId projectId db request seats s = (result, s')) :
    Driven reviewId s s' := by
  obtain ⟨hlatest, hid, -⟩ := latest_of_selectById hrequest
  have hcurrent : Current s.db (Review.redriveRequest projectId request) request.scope :=
    ⟨request, hlatest, rfl, rfl⟩
  have hlooked : ∀ {result : Except String (Option ReviewRequestRecord)} {mid : Reviewing},
      Review.withConfig faults (Review.recordReviewerPlacement deps faults
        (Review.redriveRequest projectId request) request.scope projectId none) s = (result, mid) →
          Driven reviewId s mid := by
    intro result mid hwith
    rcases withConfig_state hwith with rfl | rfl
    · exact .refl hs
    · have hlaunches := @launches_placement deps faults (Review.redriveRequest projectId request)
        request.scope projectId s _ _ rfl
      have hplaced : Seated (Review.recordReviewerPlacement deps faults
          (Review.redriveRequest projectId request) request.scope projectId none s).2.db :=
        seated_placement hs fun seat placement hdecide => seated_recordSeat hs hcurrent hdecide
      refine ⟨hplaced, recordReviewerPlacement_aside hs.consistent rfl, ?_⟩
      have hsame : (Review.redriveRequest projectId request).reviewId = reviewId := hid
      rwa [hsame] at hlaunches
  rcases Proc.bind_cases h with ⟨e, hfailed, -⟩ | ⟨_, mid, hwith, hrest⟩
  · exact hlooked hfailed
  · have hmid := hlooked hwith
    rcases Proc.bind_cases hrest with ⟨e, hfailed, -⟩ | ⟨after, last, hread, hpure⟩
    · cases hfailed
    · obtain ⟨-, rfl⟩ := Prod.mk.inj hread
      obtain ⟨-, rfl⟩ := Prod.mk.inj hpure
      exact hmid

theorem driven_launch {request : ReviewRequestRecord} {placement : PlacementRecord}
    (hs : Seated s.db) (hid : request.reviewId = reviewId) {result : Except String Unit}
    (h : Review.launchSeat deps faults (Review.redriveRequest projectId request) request.scope
      projectId placement s = (result, s')) : Driven reviewId s s' := by
  have hlaunches := launches_launch h
  have hseated := (@unplacing_launch deps faults (Review.redriveRequest projectId request)
    request.scope projectId placement).seated hs
  rw [h] at hseated
  have hsame : (Review.redriveRequest projectId request).reviewId = reviewId := hid
  rw [hsame] at hlaunches
  refine ⟨hseated, ?_, hlaunches⟩
  rcases @launchSeat_ends deps faults (Review.redriveRequest projectId request) request.scope
    projectId placement s hs.consistent with ⟨⟨last, hrun, haside⟩, -⟩ | ⟨⟨e, hrun⟩, -⟩
  · obtain ⟨-, rfl⟩ := Prod.mk.inj (hrun.symm.trans h)
    exact ⟨_, haside⟩
  · obtain ⟨-, rfl⟩ := Prod.mk.inj (hrun.symm.trans h)
    exact ⟨0, .refl hs.consistent⟩

/-- A drive keeps the seats, and launches only for a review that is drivable. -/
theorem driven_redrive (hs : Seated s.db) {result : Except String Review.RedriveReviewerOutcome}
    (h : redriveWaitingReviewer deps faults reviewId projectId retryPlaced s = (result, s')) :
    Driven reviewId s s' ∧ (s'.launches = s.launches ∨ Drivable s.db reviewId) := by
  rcases Proc.bind_cases h with ⟨e, hfailed, -⟩ | ⟨db, mid, hread, hrest⟩
  · have hsame : s' = s := by
      obtain ⟨db, hrun, rfl⟩ := Proc.on_eq.1 hfailed
      rcases Proc.unlessFault_eq_error.1 hrun with ⟨-, rfl⟩ | ⟨-, hrun⟩
      · rfl
      · cases (snapshot_eq hs.consistent).symm.trans hrun
    rw [hsame]
    exact ⟨.refl hs, .inl rfl⟩
  · obtain ⟨rfl, hmid⟩ := read_snapshot hs.consistent hread
    rw [hmid] at hrest
    cases hguards : Review.redriveGuards deps reviewId s.db with
    | inr reason =>
      rw [hguards] at hrest
      obtain ⟨-, rfl⟩ := Prod.mk.inj hrest
      exact ⟨.refl hs, .inl rfl⟩
    | inl request =>
      rw [hguards] at hrest
      obtain ⟨hrequest, hdrivable⟩ := drivable_of_guards hguards
      refine ⟨?_, .inr hdrivable⟩
      have hdrive : Review.driveSeat deps faults reviewId projectId retryPlaced s.db request s =
          (result, s') := hrest
      rw [Review.driveSeat] at hdrive
      generalize hfound : List.find? Review.isPlaced _ = found at hdrive
      cases found with
      | some placed =>
        simp only at hdrive
        split at hdrive
        · rcases Proc.bind_cases hdrive with ⟨e, hfailed, -⟩ | ⟨_, last, hlaunched, hpure⟩
          · exact driven_launch hs (latest_of_selectById hrequest).2.1 hfailed
          · obtain ⟨-, rfl⟩ := Prod.mk.inj hpure
            exact driven_launch hs (latest_of_selectById hrequest).2.1 hlaunched
        · obtain ⟨-, rfl⟩ := Prod.mk.inj hdrive
          exact .refl hs
      | none =>
        simp only at hdrive
        split at hdrive
        · exact driven_redecide hs hrequest hdrive
        · obtain ⟨-, rfl⟩ := Prod.mk.inj hdrive
          exact .refl hs

end

/-! ## Any calls, in any order -/

/-- The calls of the stores that decide about a seat of a reviewer by themselves. -/
def StoreCall.placesReviewer : StoreCall → Bool
  | dispatch (.recordPlacement _ payload) => isReviewerRole payload.seat.role
  | dispatch (.recordPlacementWithReviewRequest _ payload _) => isReviewerRole payload.seat.role
  | _ => false

/-- A call whose appends are folded elsewhere keeps the seats. -/
theorem Seated.exec_folders {db : Db} (h : Seated db) {call : StoreCall}
    (hfolders : .placement ∉ call.folders) : Seated (call.exec db) :=
  h.emits (fun _ _ hevent heq => hfolders (heq ▸ hevent))
    (StoreCall.exec_folders h.consistent call)

theorem Seated.exec_dispatch {db : Db} (h : Seated db) {call : Dispatch.DispatchCall}
    (hcall : (StoreCall.dispatch call).placesReviewer = false) : Seated (call.exec db) := by
  have hother : .placement ∉ call.folders → Seated (call.exec db) := fun hfolders =>
    h.emits (fun _ _ hevent heq => hfolders (heq ▸ hevent)) (call.exec_folders h.consistent)
  cases call with
  | recordPlacement agent payload =>
    refine @Proc.exec_transaction _ _ _ (fun _ db' => Seated db') _ db h fun record db' hrecord => ?_
    obtain ⟨e, he, hcommit⟩ := Dispatch.recordPlacement_eq_ok hrecord
    exact h.place_other (places_of_make he) hcall hcommit
  | recordPlacementWithReviewRequest agent payload request =>
    refine @Proc.exec_transaction _ _ _ (fun _ db' => Seated db') _ db h fun record db' hrecord => ?_
    obtain ⟨placed, requested, hplaced, hrequested, hcommits⟩ :=
      Dispatch.recordPlacementWithReviewRequest_spec h.consistent hrecord
    obtain ⟨mid, hfirst, hrest⟩ := Db.commitAll_cons.1 hcommits
    obtain ⟨last, hsecond, hnil⟩ := Db.commitAll_cons.1 hrest
    obtain rfl := Except.ok.inj hnil
    have hmid : Seated mid := h.place_other (places_of_make hplaced) hcall hfirst
    refine hmid.commit ?_ hsecond
    rw [hrequested.payload_eq]
    exact fun heq => nomatch heq
  | _ => exact hother (by simp [Dispatch.DispatchCall.folders])

/-- A call of the stores keeps the seats, unless it decides about one. -/
theorem Seated.exec_call {db : Db} (h : Seated db) {call : StoreCall}
    (hcall : call.placesReviewer = false) : Seated (call.exec db) := by
  cases call with
  | dispatch call => exact h.exec_dispatch hcall
  | _ => exact h.exec_folders (by simp [StoreCall.folders])

/-- A call in a project whose reviews are triggered and driven. -/
inductive ReviewerCall where
  | trigger (deps : ReviewTriggerDeps) (faults : TriggerFaults) (req : ReviewTriggerRequest)
  | redrive (deps : ReviewTriggerDeps) (faults : TriggerFaults) (reviewId projectId : String)
      (retryPlaced : Bool)
  | store (call : StoreCall)

namespace ReviewerCall

def exec : ReviewerCall → Reviewing → Reviewing
  | trigger deps faults req, s => (triggerReview deps faults req s).2
  | redrive deps faults reviewId projectId retryPlaced, s =>
    (redriveWaitingReviewer deps faults reviewId projectId retryPlaced s).2
  | store call, s => { s with db := call.exec s.db }

/-- Whether the call decides about a seat without a trigger or a drive. -/
def placesReviewer : ReviewerCall → Bool
  | store call => call.placesReviewer
  | _ => false

/-- Every call keeps the seats. -/
theorem exec_seated {call : ReviewerCall} {s : Reviewing} (hcall : call.placesReviewer = false)
    (hs : Seated s.db) : Seated (call.exec s).db := by
  cases call with
  | trigger deps faults req => exact seated_trigger hs
  | redrive deps faults reviewId projectId retryPlaced => exact (driven_redrive hs rfl).1.seated
  | store call => exact hs.exec_call hcall

end ReviewerCall

/-- The project after `calls`. -/
abbrev reviewerRun (calls : List ReviewerCall) (s : Reviewing) : Reviewing :=
  Run.after ReviewerCall.exec calls s

/-- How many decisions of a kind the log holds about the seat of a review. -/
def seatDecisions (db : Db) (reviewId kind : String) : ℕ :=
  db.events.countP fun event => (placementOf event).any fun p =>
    placesSeatOf reviewId p && p.decided.kind == kind

/-- The decisions of the log are those of the table. -/
theorem Seated.seatDecisions_le {db : Db} (h : Seated db) (reviewId kind : String) :
    seatDecisions db reviewId kind ≤ 1 := by
  have honce := h.once reviewId kind
  rw [placements_eq h.consistent, List.countP_filterMap] at honce
  have hany : ∀ found : Option PlacementRecord,
      (found.any fun p => placesSeatOf reviewId p && p.decided.kind == kind) =
        (found.map fun p => placesSeatOf reviewId p && p.decided.kind == kind).getD false := by
    intro found
    cases found <;> rfl
  simpa only [seatDecisions, hany] using honce

/-- A drive launches for its review, and only while the review is drivable. -/
theorem Driven.launched {reviewId : String} {s s' : Reviewing} (h : Driven reviewId s s')
    (hdrivable : s'.launches = s.launches ∨ Drivable s.db reviewId) :
    ∃ launched, s'.launches = s.launches ++ launched ∧ ∀ launch ∈ launched,
      launch.reviewId = reviewId ∧ Drivable s.db reviewId ∧ Drivable launch.db reviewId := by
  obtain ⟨-, ⟨n, haside⟩, hlaunches⟩ := h
  rcases hlaunches with hsame | ⟨launch, hlaunched, hid, hdb⟩
  · exact ⟨[], by rw [hsame, List.append_nil], fun _ hmem => absurd hmem List.not_mem_nil⟩
  · refine ⟨[launch], hlaunched, fun launch' hmem => ?_⟩
    obtain rfl := List.mem_singleton.1 hmem
    rcases hdrivable with hsame | hdrivable
    · rw [hsame] at hlaunched
      exact absurd hlaunched (by simp)
    · exact ⟨hid, hdrivable, hdb ▸ hdrivable.of_aside haside⟩

/-- Whatever is triggered, driven and recorded, in whatever order: a seat of a review has at most
one decision of each kind, and a drive launches a reviewer only for a review that has no verdict
and holds the slot of its target. -/
theorem reviewer_placement_idempotent (clock : ℕ → ℕ) (calls : List ReviewerCall)
    (hcalls : ∀ call ∈ calls, call.placesReviewer = false) :
    let s := reviewerRun calls { db := { clock } }
    (∀ reviewId kind, seatDecisions s.db reviewId kind ≤ 1) ∧
      ∀ (deps : ReviewTriggerDeps) (faults : TriggerFaults) (reviewId projectId : String)
        (retryPlaced : Bool),
        ∃ launched, (redriveWaitingReviewer deps faults reviewId projectId retryPlaced s).2.launches =
          s.launches ++ launched ∧ ∀ launch ∈ launched,
            launch.reviewId = reviewId ∧ Drivable s.db reviewId ∧ Drivable launch.db reviewId := by
  intro s
  have hs : Seated s.db :=
    Run.invariant (fun s : Reviewing => Seated s.db)
      (fun _ _ hcall hs => ReviewerCall.exec_seated hcall hs)
      (Run.guarded_of_forall hcalls) (.empty clock)
  refine ⟨hs.seatDecisions_le, fun deps faults reviewId projectId retryPlaced => ?_⟩
  obtain ⟨hdriven, hdrivable⟩ :=
    @driven_redrive deps faults reviewId projectId retryPlaced s _ hs _ rfl
  exact hdriven.launched hdrivable

/-- The second round of a branch, triggered twice, and then driven once more. -/
def placedAgain : List ReviewerCall :=
  reviewedOnce.map .store ++ [
    .trigger oneAccount {} reviewAgain,
    .trigger oneAccount {} reviewAgain,
    .redrive oneAccount {} "r2" "p1" true]

/-- The seat is placed once, and launched by the first trigger and by the drive. -/
theorem reviewer_placement_idempotent_again :
    (∀ call ∈ placedAgain, call.placesReviewer = false) ∧
      (∀ reviewId kind,
        seatDecisions (reviewerRun placedAgain { db := .atRest }).db reviewId kind ≤ 1) ∧
      seatDecisions (reviewerRun placedAgain { db := .atRest }).db "r2" "placed" = 1 :=
  ⟨by decide, (reviewer_placement_idempotent (fun _ => 0) placedAgain (by decide)).1,
    by decide +kernel⟩

end Orchestration.Replay
