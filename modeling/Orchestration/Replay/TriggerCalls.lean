import Orchestration.Mail.Forwarding
import Orchestration.Replay.OpenedReviews
import Orchestration.Review.Trigger

/-!
# The steps of a trigger

What each step of a trigger leaves behind, and which of them fail in a given project: the
kickoff of a seat, the decision about it, and the opening of the review under the slot.
-/

namespace Orchestration.Replay

open Fallible Transaction
open Transaction.Proc (onError unlessFault when)
open Orchestration.Mail (Delivery MailEnvelope existingForKey makeMailEvent validateEnvelope)
open Orchestration.Dispatch (PlacementDecided PlacementRecord)
open Orchestration.Review (Carries ReviewRequested ReviewRequestRecord ReviewScope ReviewTriggerDeps
  ReviewTriggerRequest Reviewing SeatDecision TriggerFaults TriggerProc decideReviewerSeat
  selectReviewRequest selectVerdict)
open Orchestration.Review.TriggerProc (onStores)

/-- How many events fit into the log. -/
def room (db : Db) : ℕ := Js.maxSafeInteger - db.events.length

theorem roomFor_iff {n : ℕ} {db : Db} : RoomFor (n + 1) db ↔ n + 1 ≤ room db := by
  unfold RoomFor room
  omega

theorem room_commit {db db' : Db} {event : NewEvent Payload} (h : db.commit event = .ok db') :
    room db' = room db - 1 := by
  have hlength : db'.events.length = db.events.length + 1 := by
    rw [(folded_of_commit h).2, List.length_append, List.length_singleton]
  unfold room
  omega

/-! ## Events aside of the reviews -/

/-- `n` events were appended, and none of them is about a review. -/
structure Aside (n : ℕ) (db db' : Db) : Prop where
  review : db'.review = db.review
  slots : slots db' = slots db
  room : room db' = room db - n
  consistent : Consistent db'

theorem Aside.refl {db : Db} (hdb : Consistent db) : Aside 0 db db := ⟨rfl, rfl, rfl, hdb⟩

theorem Aside.commit {db db' : Db} {event : NewEvent Payload} (hdb : Consistent db)
    (hother : event.payload.projector ≠ .review) (h : db.commit event = .ok db') :
    Aside 1 db db' where
  review := same_of_commit (p := .review) hother h
  slots := slots_of_other (fun m hm => hother (by rw [hm]; rfl)) h
  room := room_commit h
  consistent := hdb.commit h

/-! ## The kickoff -/

/-- The envelope is valid. -/
def Sendable (envelope : MailEnvelope) : Prop := ∃ payload, validateEnvelope envelope = .ok payload

instance (envelope : MailEnvelope) : Decidable (Sendable envelope) :=
  inferInstanceAs (Decidable (∃ payload, _ = Except.ok payload))

/-- A send appends one event, unless the mail of its key is there. -/
def sendCost (envelope : MailEnvelope) (t : Mail.MailTables) : ℕ :=
  if (existingForKey t envelope).isSome then 0 else 1

/-- A send fails. -/
def SendFails (fault : Option String) (envelope : MailEnvelope) (t : Mail.MailTables)
    (free : ℕ) : Prop :=
  ¬ (fault = none ∧ Sendable envelope ∧ sendCost envelope t ≤ free)

instance {fault : Option String} {envelope : MailEnvelope} {t : Mail.MailTables} {free : ℕ} :
    Decidable (SendFails fault envelope t free) :=
  inferInstanceAs (Decidable (¬ _))

section

variable {delivery : Delivery} {envelope : MailEnvelope} {db : Db} {fault : Option String}

theorem send_atomic : Proc.Atomic (Mail.MailStore.send delivery envelope) :=
  (Proc.readOnly_liftM _).atomic_bind fun _ => (Proc.readOnly_liftM _).atomic_bind fun _ =>
    Proc.atomic_transaction _

/-- The row of a mail that was appended under a free key is read back. -/
theorem deliverWithStatus_fresh {event : NewEvent Mail.MailEvent} {db' : Db}
    (hfresh : existingForKey db.mail envelope = none) (hmake : makeMailEvent envelope = .ok event)
    (hcommit : db.commit (Mail.toProject event) = .ok db') :
    Mail.InProcessDelivery.deliverWithStatus envelope db =
      .ok (⟨Mail.nextRow db envelope, true⟩, db') := by
  have hselect := (Mail.added_of_fresh hmake hfresh hcommit).select
  simp only [Mail.InProcessDelivery.deliverWithStatus, Mail.reading_bind, hfresh]
  refine Tx.bind_eq_ok.2
    ⟨_, db', Mail.recordMail_eq_ok.2 ⟨event, hmake, rfl, hcommit⟩, ?_⟩
  rw [Mail.reading_bind]
  simp only [Db.stored, show (Mail.nextRow db envelope).seq = db.nextSeq from rfl] at hselect ⊢
  rw [hselect]
  rfl

/-- Mail that is not about a review is sent unless it is malformed or the log is full. -/
theorem send_ends (hdb : Consistent db) (hrequest : envelope.type ≠ .reviewRequest)
    (hresponse : envelope.type ≠ .reviewResponse) :
    (∃ mail db', unlessFault fault (Mail.MailStore.send delivery envelope) db = (.ok mail, db') ∧
        Aside (sendCost envelope db.mail) db db') ∧ ¬ SendFails fault envelope db.mail (room db) ∨
      (∃ e, unlessFault fault (Mail.MailStore.send delivery envelope) db = (.error e, db)) ∧
        SendFails fault envelope db.mail (room db) := by
  rcases hrun : unlessFault fault (Mail.MailStore.send delivery envelope) db with ⟨e | mail, db'⟩
  · obtain rfl := send_atomic.unlessFault fault _ _ _ hrun
    refine .inr ⟨⟨e, rfl⟩, fun hcan => ?_⟩
    obtain ⟨rfl, ⟨payload, hvalid⟩, hcost⟩ := hcan
    have hplain : Mail.assertNotReviewMail envelope "mail send" = .ok () :=
      bind_eq_ok.2 ⟨(), refuse_eq_ok.2 hrequest, refuse_eq_ok.2 hresponse⟩
    have hdeliver : ∃ result last, Mail.InProcessDelivery.deliverWithStatus envelope db' =
        .ok (result, last) := by
      cases hexisting : existingForKey db'.mail envelope with
      | some existing =>
        refine ⟨⟨existing, false⟩, db', ?_⟩
        simp only [Mail.InProcessDelivery.deliverWithStatus, Mail.reading_bind, hexisting]
        rfl
      | none =>
        have hroom : RoomFor 1 db' := by
          rw [roomFor_iff]
          simpa [sendCost, hexisting] using hcost
        obtain ⟨event, last, hmake, hcommit⟩ :=
          Mail.commit_mail_of_fresh hdb hroom hexisting hvalid
        exact ⟨_, last, deliverWithStatus_fresh hexisting hmake hcommit⟩
    obtain ⟨result, last, hdeliver⟩ := hdeliver
    have hsent : Mail.MailStore.send delivery envelope db' = (.ok result.mail, last) := by
      refine Proc.liftM_bind_eq_ok.2 ⟨_, hvalid, Proc.liftM_bind_eq_ok.2 ⟨_, hplain, ?_⟩⟩
      exact transaction_eq_ok.2 (Tx.bind_eq_ok.2 ⟨_, _, hdeliver, rfl⟩)
    rw [Proc.unlessFault_none, hsent] at hrun
    cases hrun
  · obtain ⟨hfault, hsent⟩ := Proc.unlessFault_eq_ok.1 hrun
    obtain ⟨payload, hvalid, hsent⟩ := Proc.liftM_bind_eq_ok.1 hsent
    obtain ⟨_, -, hsent⟩ := Proc.liftM_bind_eq_ok.1 hsent
    obtain ⟨result, last, hdeliver, hpure⟩ := Tx.bind_eq_ok.1 (transaction_eq_ok.1 hsent)
    obtain ⟨-, rfl⟩ := Tx.pure_eq_ok.1 hpure
    refine .inl ⟨⟨mail, last, rfl, ?_⟩, ?_⟩
    · rcases Mail.InProcessDelivery.deliverWithStatus_eq_ok hdeliver with
        ⟨rfl, old, hold, -⟩ | ⟨hfresh, -, event, -, hcommit⟩
      · have hcost : sendCost envelope db.mail = 0 := by rw [sendCost, hold]; rfl
        rw [hcost]
        exact .refl hdb
      · have hcost : sendCost envelope db.mail = 1 := by rw [sendCost, hfresh]; rfl
        have hother : (Mail.toProject event).payload.projector ≠ .review := by
          change Projector.mail ≠ .review
          decide
        rw [hcost]
        exact .commit hdb hother hcommit
    · refine not_not.2 ⟨hfault, ⟨payload, hvalid⟩, ?_⟩
      rcases Mail.InProcessDelivery.deliverWithStatus_eq_ok hdeliver with
        ⟨rfl, old, hold, -⟩ | ⟨hfresh, -, event, -, hcommit⟩
      · rw [sendCost, hold]
        exact Nat.zero_le _
      · rw [sendCost, hfresh]
        exact roomFor_iff.1 (room_of_commit hcommit).1

end

/-! ## The launch of a seat -/

section

variable (deps : ReviewTriggerDeps) (faults : TriggerFaults) (req : ReviewTriggerRequest)
  (scope : ReviewScope)

/-- The events that a launch appends. -/
def launchCost (agent : String) (t : Mail.MailTables) : ℕ :=
  if deps.reviewerSpawnGate = true ∧ deps.mail.isSome = true then
    sendCost (Review.reviewerKickoff req agent scope) t
  else 0

/-- The kickoff of a seat that is to be launched is not sent. -/
def LaunchFails (agent : String) (t : Mail.MailTables) (free : ℕ) : Prop :=
  deps.reviewerSpawnGate = true ∧ deps.mail.isSome = true ∧
    SendFails faults.kickoff (Review.reviewerKickoff req agent scope) t free

instance {agent : String} {t : Mail.MailTables} {free : ℕ} :
    Decidable (LaunchFails deps faults req scope agent t free) :=
  inferInstanceAs (Decidable (_ ∧ _))

variable {deps faults req scope}

theorem launchSeat_ends {projectId : String} {placement : PlacementRecord} {s : Reviewing}
    (hdb : Consistent s.db) :
    (∃ s', Review.launchSeat deps faults req scope projectId placement s = (.ok (), s') ∧
        Aside (launchCost deps req scope placement.agent s.db.mail) s.db s'.db) ∧
        ¬ LaunchFails deps faults req scope placement.agent s.db.mail (room s.db) ∨
      (∃ e, Review.launchSeat deps faults req scope projectId placement s = (.error e, s)) ∧
        LaunchFails deps faults req scope placement.agent s.db.mail (room s.db) := by
  unfold launchCost LaunchFails Review.launchSeat Review.seedReviewerKickoff
  cases hgate : deps.reviewerSpawnGate with
  | false => exact .inl ⟨⟨s, rfl, .refl hdb⟩, nofun⟩
  | true =>
    cases hmail : deps.mail with
    | none =>
      rw [Proc.when_true]
      exact .inl ⟨⟨_, rfl, .refl hdb⟩, nofun⟩
    | some delivery =>
      rw [Proc.when_true]
      rcases @send_ends delivery (Review.reviewerKickoff req placement.agent scope) s.db
        faults.kickoff hdb nofun nofun with ⟨⟨mail, db, hsent, haside⟩, hcan⟩ | ⟨⟨e, hfailed⟩, hcannot⟩
      · have hseeded : unlessFault faults.kickoff (do
            let _ ← Mail.MailStore.send delivery (Review.reviewerKickoff req placement.agent scope))
              s.db = (.ok (), db) := by
          obtain ⟨hfault, hsent⟩ := Proc.unlessFault_eq_ok.1 hsent
          exact Proc.unlessFault_eq_ok.2 ⟨hfault, Proc.bind_eq_ok.2 ⟨_, _, hsent, rfl⟩⟩
        refine .inl ⟨⟨_, Proc.bind_eq_ok.2 ⟨(), _, Proc.on_eq.2 ⟨db, hseeded, rfl⟩, rfl⟩, ?_⟩,
          fun h => hcan h.2.2⟩
        exact haside
      · have hseeded : unlessFault faults.kickoff (do
            let _ ← Mail.MailStore.send delivery (Review.reviewerKickoff req placement.agent scope))
              s.db = (.error e, s.db) := by
          rcases Proc.unlessFault_eq_error.1 hfailed with ⟨hfault, -⟩ | ⟨hfault, hfailed⟩
          · exact Proc.unlessFault_eq_error.2 (.inl ⟨hfault, rfl⟩)
          · exact Proc.unlessFault_eq_error.2 (.inr ⟨hfault, Proc.bind_error hfailed⟩)
        exact .inr ⟨⟨e, Proc.bind_error (Proc.on_eq.2 ⟨s.db, hseeded, rfl⟩)⟩, rfl, rfl, hcannot⟩

end

/-! ## Recording -/

/-- The review is open, and nothing has answered it. -/
structure Opened (r : ReviewRequested) (db db' : Db) : Prop where
  record : ∃ record, selectReviewRequest db'.review r.target r.branch = some record ∧
    record.reviewId = r.reviewId
  unanswered : ∀ scope, selectVerdict db'.review r.target r.branch scope = none
  others : ∀ target branch scope, (target, branch) ≠ (r.target, r.branch) →
    selectVerdict db'.review target branch scope = selectVerdict db.review target branch scope
  consistent : Consistent db'

theorem opened_of_commit {r : ReviewRequested} {db db' : Db} {event : NewEvent Payload}
    (hdb : Consistent db) (hevent : Carries event (.requested r)) (hnew : NewId db r.reviewId)
    (h : db.commit event = .ok db') : Opened r db db' := by
  obtain ⟨⟨record, hrecord, hid, -⟩, hunanswered⟩ := opened_of_request hevent hnew h
  refine ⟨⟨record, hrecord, hid⟩, hunanswered, fun target branch scope hother => ?_, hdb.commit h⟩
  exact selectVerdict_of_request hevent hnew h hother

theorem Opened.of_aside {r : ReviewRequested} {db mid db' : Db} {n : ℕ} (h : Opened r db mid)
    (haside : Aside n mid db') : Opened r db db' := by
  obtain ⟨hreview, -, -, hconsistent⟩ := haside
  refine ⟨?_, ?_, ?_, hconsistent⟩
  · rw [hreview]
    exact h.record
  · rw [hreview]
    exact h.unanswered
  · rw [hreview]
    exact h.others

theorem Opened.after_aside {r : ReviewRequested} {db mid db' : Db} {n : ℕ} (haside : Aside n db mid)
    (h : Opened r mid db') : Opened r db db' := by
  refine ⟨h.record, h.unanswered, fun target branch scope hother => ?_, h.consistent⟩
  rw [h.others target branch scope hother, haside.review]

section

variable {faults : TriggerFaults} {requested : ReviewRequested} {s : Reviewing}

/-- The request alone cannot be recorded. -/
def RecordFails (faults : TriggerFaults) (requested : ReviewRequested) (free : ℕ) : Prop :=
  ¬ (faults.record = none ∧ Requestable requested ∧ 1 ≤ free)

instance {free : ℕ} : Decidable (RecordFails faults requested free) :=
  inferInstanceAs (Decidable (¬ _))

theorem recordRequest_ends (hdb : Consistent s.db) (hnew : NewId s.db requested.reviewId) :
    (∃ result s', Review.recordRequest faults requested s = (.ok result, s') ∧
        Opened requested s.db s'.db) ∧ ¬ RecordFails faults requested (room s.db) ∨
      (∃ e, Review.recordRequest faults requested s = (.error e, s)) ∧
        RecordFails faults requested (room s.db) := by
  have hroom : RoomFor 1 s.db ↔ 1 ≤ room s.db := roomFor_iff
  rcases @recordReviewRequested_new faults.record requested s.db hdb hnew with
    ⟨⟨record, db, event, hrun, hevent, hcommit, -⟩, hfault, hschema, hfree⟩ | ⟨⟨e, hrun⟩, hcannot⟩
  · refine .inl ⟨⟨_, _, Proc.bind_eq_ok.2 ⟨record, _, Proc.on_eq.2 ⟨db, hrun, rfl⟩, rfl⟩, ?_⟩, ?_⟩
    · exact opened_of_commit hdb hevent hnew hcommit
    · exact not_not.2 ⟨hfault, hschema, hroom.1 hfree⟩
  · refine .inr ⟨⟨e, Proc.bind_error (Proc.on_eq.2 ⟨s.db, hrun, rfl⟩)⟩, ?_⟩
    rwa [RecordFails, ← hroom]

end

/-- The seat and the request cannot be recorded together. -/
def PlaceFails (faults : TriggerFaults) (requested : ReviewRequested) (seat : String)
    (placement : PlacementDecided) (free : ℕ) : Prop :=
  ¬ (faults.record = none ∧ Placeable seat placement ∧ Requestable requested ∧ 2 ≤ free)

instance {faults : TriggerFaults} {requested : ReviewRequested} {seat : String}
    {placement : PlacementDecided} {free : ℕ} :
    Decidable (PlaceFails faults requested seat placement free) :=
  inferInstanceAs (Decidable (¬ _))

section

variable {deps : ReviewTriggerDeps} {faults : TriggerFaults} {req : ReviewTriggerRequest}
  {scope : ReviewScope} {projectId seat : String} {placement : PlacementDecided}
  {requested : ReviewRequested} {s : Reviewing}

/-- What recording a seat with its request leaves behind. -/
inductive SeatRecorded (deps : ReviewTriggerDeps) (faults : TriggerFaults)
    (req : ReviewTriggerRequest) (scope : ReviewScope) (seat : String)
    (placement : PlacementDecided) (requested : ReviewRequested) (s : Reviewing) :
    Except String (Option ReviewRequestRecord) → Reviewing → Prop where
  | opened {opened : ReviewRequestRecord} {s' : Reviewing}
      (hcan : ¬ PlaceFails faults requested seat placement (room s.db))
      (hlaunch : ¬ (placement.kind = "placed" ∧
        LaunchFails deps faults req scope seat s.db.mail (room s.db - 2)))
      (hopened : Opened requested s.db s'.db) :
      SeatRecorded deps faults req scope seat placement requested s (.ok (some opened)) s'
  | unlaunched {e : String} {s' : Reviewing}
      (hcan : ¬ PlaceFails faults requested seat placement (room s.db))
      (hlaunch : placement.kind = "placed" ∧
        LaunchFails deps faults req scope seat s.db.mail (room s.db - 2))
      (hopened : Opened requested s.db s'.db) :
      SeatRecorded deps faults req scope seat placement requested s (.error e) s'
  | failed {e : String} (hcannot : PlaceFails faults requested seat placement (room s.db)) :
      SeatRecorded deps faults req scope seat placement requested s (.error e) s

theorem recordSeat_ends (hdb : Consistent s.db) (hseat : seat ≠ "")
    (hnew : NewId s.db requested.reviewId) :
    ∃ result s', Review.recordSeat deps faults req scope projectId seat placement (some requested) s =
      (result, s') ∧ SeatRecorded deps faults req scope seat placement requested s result s' := by
  have hroom : RoomFor 2 s.db ↔ 2 ≤ room s.db := roomFor_iff
  rcases @recordPlacementWithReviewRequest_new faults.record seat placement requested s.db hdb hseat
      hnew with ⟨⟨record, opened, db, hrun, hopened⟩, hcan⟩ | ⟨⟨e, hrun⟩, hcannot⟩
  · obtain ⟨⟨placed, request, mid, hplaces, hrequest, hplaced, hrequested⟩, hagent, -, -⟩ := hopened
    have hmid : Consistent mid := hdb.commit hplaced
    have haside : Aside 1 s.db mid := by
      refine .commit hdb ?_ hplaced
      rw [hplaces.1]
      intro h
      cases h
    have hnewMid : NewId mid requested.reviewId := by rwa [NewId, haside.review]
    have hopened : Opened requested s.db db :=
      .after_aside haside (opened_of_commit hmid hrequest hnewMid hrequested)
    have hmail : db.mail = s.db.mail := by
      have hkept : mid.mail = s.db.mail :=
        same_of_placement (p := .mail) hplaces (by decide) hplaced
      have hkept' : db.mail = mid.mail :=
        same_of_request (p := .mail) hrequest (by decide) hrequested
      exact hkept'.trans hkept
    have hfree : room db = room s.db - 2 := by
      rw [room_commit hrequested, room_commit hplaced, Nat.sub_sub]
    have hcan : ¬ PlaceFails faults requested seat placement (room s.db) := by
      rw [PlaceFails, not_not, ← hroom]
      exact hcan
    have hrecorded : onStores (unlessFault faults.record (transaction
        (Dispatch.recordPlacementWithReviewRequest seat placement requested))) s =
          (.ok (record, opened), { s with db }) := Proc.on_eq.2 ⟨db, hrun, rfl⟩
    rw [Review.recordSeat]
    simp only [Proc.bind_apply hrecorded]
    by_cases hkind : placement.kind = "placed"
    · rw [hkind, beq_self_eq_true, Proc.when_true]
      have hlaunched := @launchSeat_ends deps faults req scope projectId record { s with db }
        hopened.consistent
      simp only [hagent, hmail, hfree] at hlaunched
      rcases hlaunched with ⟨⟨s', hlaunch, hlater⟩, hcould⟩ | ⟨⟨e, hlaunch⟩, hcould⟩
      · refine ⟨_, s', Proc.bind_eq_ok.2 ⟨(), s', hlaunch, rfl⟩, ?_⟩
        exact .opened hcan (fun h => hcould h.2) (hopened.of_aside hlater)
      · exact ⟨_, _, Proc.bind_error hlaunch, .unlaunched hcan ⟨hkind, hcould⟩ hopened⟩
    · rw [beq_eq_false_iff_ne.2 hkind, Proc.when_false]
      exact ⟨_, _, rfl, .opened hcan (fun h => hkind h.1) hopened⟩
  · refine ⟨_, s, Proc.bind_error (Proc.on_eq.2 ⟨s.db, hrun, rfl⟩), .failed ?_⟩
    rwa [PlaceFails, ← hroom]

end

/-! ## The work under the slot -/

/-- What becomes of the seat of a review that is opened. -/
inductive SeatStep where
  /-- Nothing can be found out about it. -/
  | failed
  /-- No seat is recorded; one that is placed already is launched. -/
  | launch (agent : Option String)
  /-- A seat is recorded with the request. -/
  | place (seat : String) (placement : PlacementDecided)

section

variable (deps : ReviewTriggerDeps) (faults : TriggerFaults) (req : ReviewTriggerRequest)

def seatStep (t : Projections) : SeatStep :=
  match req.projectId with
  | none => .launch none
  | some projectId =>
    if faults.openConfig.isSome then .failed
    else if deps.dispatch then
      match decideReviewerSeat deps.placer t.usage t.placement req req.reviewScope projectId with
      | .error _ => .failed
      | .ok .stay => .launch none
      | .ok (.resume placement) => .launch (some placement.agent)
      | .ok (.record seat placement) => .place seat placement
    else .launch none

/-- The config store, if it is opened, does not close. -/
def CloseFails : Prop := req.projectId.isSome = true ∧ faults.closeConfig ≠ none

instance : Decidable (CloseFails faults req) := inferInstanceAs (Decidable (_ ∧ _))

/-- How the work under the slot ends. -/
inductive WorkEnd where
  /-- The review is opened. -/
  | opened
  /-- The work fails before the request is recorded; it has appended `n` events. -/
  | nothing (n : ℕ)
  /-- The work fails when the request is recorded already. -/
  | inVain
deriving DecidableEq, Repr

/-- The end of the work shows in the project before it. -/
def workEnd (requested : ReviewRequested) (t : Projections) (free : ℕ) : WorkEnd :=
  match seatStep deps faults req t with
  | .failed => .nothing 0
  | .launch none =>
    if CloseFails faults req ∨ RecordFails faults requested free then .nothing 0 else .opened
  | .launch (some agent) =>
    let cost := launchCost deps req req.reviewScope agent t.mail
    if LaunchFails deps faults req req.reviewScope agent t.mail free then .nothing 0
    else if CloseFails faults req ∨ RecordFails faults requested (free - cost) then .nothing cost
    else .opened
  | .place seat placement =>
    if PlaceFails faults requested seat placement free then .nothing 0
    else if placement.kind = "placed" ∧
          LaunchFails deps faults req req.reviewScope seat t.mail (free - 2) ∨
        CloseFails faults req then .inVain
    else .opened

/-- What the work under the slot leaves behind. -/
inductive WorkEnds (requested : ReviewRequested) (s : Reviewing) :
    Except String Review.ReviewTriggerResult → Reviewing → Prop where
  | opened {result : Review.ReviewTriggerResult} {s' : Reviewing}
      (hend : workEnd deps faults req requested s.db.toProjections (room s.db) = .opened)
      (hopened : Opened requested s.db s'.db) : WorkEnds requested s (.ok result) s'
  | nothing {e : String} {s' : Reviewing} {n : ℕ}
      (hend : workEnd deps faults req requested s.db.toProjections (room s.db) = .nothing n)
      (haside : Aside n s.db s'.db) : WorkEnds requested s (.error e) s'
  | inVain {e : String} {s' : Reviewing}
      (hend : workEnd deps faults req requested s.db.toProjections (room s.db) = .inVain)
      (hopened : Opened requested s.db s'.db) : WorkEnds requested s (.error e) s'

end

section

variable {deps : ReviewTriggerDeps} {faults : TriggerFaults} {req : ReviewTriggerRequest}
  {requested : ReviewRequested} {s s' : Reviewing}

/-! ### The config store -/

variable {α : Type} {p : TriggerProc α} {projectId : String}

theorem withConfig_unopened (hopen : faults.openConfig ≠ none) :
    ∃ e, Review.withConfig faults p s = (.error e, s) := by
  obtain ⟨e, he⟩ := Option.ne_none_iff_exists'.1 hopen
  refine ⟨e, Proc.bind_error ?_⟩
  rw [he]
  rfl

theorem withConfig_error (hopen : faults.openConfig = none) {e : String} (h : p s = (.error e, s')) :
    ∃ e', Review.withConfig faults p s = (.error e', s') := by
  have hcleaned : ∃ e', onError p (unlessFault faults.closeConfig (pure ())) s = (.error e', s') := by
    cases hclose : faults.closeConfig with
    | none => exact ⟨e, Proc.onError_eq_error.2 ⟨e, s', h, .inl ⟨rfl, rfl⟩⟩⟩
    | some f => exact ⟨f, Proc.onError_eq_error.2 ⟨e, s', h, .inr rfl⟩⟩
  obtain ⟨e', hcleaned⟩ := hcleaned
  refine ⟨e', ?_⟩
  rw [Review.withConfig, hopen]
  exact Proc.bind_eq_error.2 (.inr ⟨(), s, rfl, Proc.bind_error hcleaned⟩)

theorem withConfig_ok (hopen : faults.openConfig = none) {a : α} (h : p s = (.ok a, s')) :
    Review.withConfig faults p s = (.ok a, s') ∧ faults.closeConfig = none ∨
      (∃ e, Review.withConfig faults p s = (.error e, s')) ∧ faults.closeConfig ≠ none := by
  have hdone : ∀ close, onError p (unlessFault close (pure ())) s = (.ok a, s') :=
    fun _ => Proc.onError_eq_ok.2 h
  rw [Review.withConfig, hopen]
  cases hclose : faults.closeConfig with
  | none =>
    refine .inl ⟨Proc.bind_eq_ok.2 ⟨(), s, rfl, Proc.bind_eq_ok.2 ⟨a, s', hdone _, ?_⟩⟩, rfl⟩
    exact Proc.bind_eq_ok.2 ⟨(), s', rfl, rfl⟩
  | some f =>
    refine .inr ⟨⟨f, Proc.bind_eq_error.2 (.inr ⟨(), s, rfl, ?_⟩)⟩, nofun⟩
    exact Proc.bind_eq_error.2 (.inr ⟨a, s', hdone _, rfl⟩)

/-! ### Opening -/

theorem NewId.of_aside {db db' : Db} {n : ℕ} {reviewId : String} (h : NewId db reviewId)
    (haside : Aside n db db') : NewId db' reviewId := by
  rwa [NewId, haside.review]

/-- The request alone, recorded after what was done for the seat. -/
theorem recordRequest_after {n : ℕ} {mid : Reviewing} (haside : Aside n s.db mid.db)
    (hnew : NewId s.db requested.reviewId) :
    (∃ result s', Review.recordRequest faults requested mid = (.ok result, s') ∧
        Opened requested s.db s'.db) ∧ ¬ RecordFails faults requested (room s.db - n) ∨
      (∃ e, Review.recordRequest faults requested mid = (.error e, mid)) ∧
        RecordFails faults requested (room s.db - n) := by
  rw [← haside.room]
  rcases @recordRequest_ends faults requested mid haside.consistent (hnew.of_aside haside) with
    ⟨⟨result, last, hrun, hopened⟩, hcan⟩ | hcannot
  · exact .inl ⟨⟨result, last, hrun, .after_aside haside hopened⟩, hcan⟩
  · exact .inr hcannot

/-- What is done about a seat follows from what the tables say of it. -/
theorem recordReviewerPlacement_eq (hdispatch : deps.dispatch = true)
    {request : Option ReviewRequested} {scope : ReviewScope} :
    Review.recordReviewerPlacement deps faults req scope projectId request s =
      match decideReviewerSeat deps.placer s.db.usage s.db.placement req scope projectId with
      | .error e => (.error e, s)
      | .ok decision => Review.followSeat deps faults req scope projectId request decision s := by
  have hread : onStores (transaction get) s = (.ok s.db, s) := Proc.on_eq.2 ⟨s.db, rfl, rfl⟩
  rw [Review.recordReviewerPlacement, if_pos hdispatch, Proc.bind_apply hread]
  cases decideReviewerSeat deps.placer s.db.usage s.db.placement req scope projectId <;> rfl

/-- What is done about the seat, with the config store open. -/
theorem openUnderSlot_placing (hdb : Consistent s.db) (hnew : NewId s.db requested.reviewId)
    (hproject : req.projectId = some projectId) (hopen : faults.openConfig = none)
    (hdispatch : deps.dispatch = true) {seat : String} {placement : PlacementDecided}
    (hdecide : decideReviewerSeat deps.placer s.db.usage s.db.placement req req.reviewScope
      projectId = .ok (.record seat placement)) :
    ∃ result s', Review.openUnderSlot deps faults req requested s = (result, s') ∧
      WorkEnds deps faults req requested s result s' := by
  have hstep : seatStep deps faults req s.db.toProjections = .place seat placement := by
    simp only [seatStep, hproject, hopen, hdispatch, hdecide]
    rfl
  obtain ⟨role, -, -, rfl, -⟩ := (Review.seats_of_record hdecide).role
  obtain ⟨result, last, hrecord, hrecorded⟩ := @recordSeat_ends deps faults req req.reviewScope
    projectId _ placement requested s hdb (Review.reviewerSeat_ne_empty role req.reviewId) hnew
  have hplacer : Review.recordReviewerPlacement deps faults req req.reviewScope projectId
      (some requested) s = (result, last) := by
    rw [recordReviewerPlacement_eq hdispatch, hdecide]
    exact hrecord
  have hclosing : CloseFails faults req ↔ faults.closeConfig ≠ none := by
    simp [CloseFails, hproject]
  rw [Review.openUnderSlot, hproject]
  cases hrecorded with
  | failed hcannot =>
    obtain ⟨e, hwith⟩ := withConfig_error hopen hplacer
    refine ⟨_, _, Proc.bind_error hwith, .nothing ?_ (.refl hdb)⟩
    simp only [workEnd, hstep, if_pos hcannot]
  | unlaunched hcan hlaunch hopened =>
    obtain ⟨e, hwith⟩ := withConfig_error hopen hplacer
    refine ⟨_, _, Proc.bind_error hwith, .inVain ?_ hopened⟩
    simp only [workEnd, hstep, if_neg hcan]
    exact if_pos (.inl hlaunch)
  | opened hcan hlaunch hopened =>
    rcases withConfig_ok hopen hplacer with ⟨hwith, hclose⟩ | ⟨⟨e, hwith⟩, hclose⟩
    · refine ⟨_, _, (Proc.bind_apply hwith).trans rfl, .opened ?_ hopened⟩
      simp only [workEnd, hstep, if_neg hcan]
      exact if_neg (not_or.2 ⟨hlaunch, fun h => hclosing.1 h hclose⟩)
    · refine ⟨_, _, Proc.bind_error hwith, .inVain ?_ hopened⟩
      simp only [workEnd, hstep, if_neg hcan]
      exact if_pos (.inr (hclosing.2 hclose))

/-- The seat is left alone, or launched once more, and the request is recorded after that. -/
theorem openUnderSlot_recording (hnew : NewId s.db requested.reviewId)
    (hproject : req.projectId = some projectId) (hopen : faults.openConfig = none) {n : ℕ}
    {mid : Reviewing} (hplacer : Review.recordReviewerPlacement deps faults req req.reviewScope
      projectId (some requested) s = (.ok none, mid)) (haside : Aside n s.db mid.db)
    (hend : workEnd deps faults req requested s.db.toProjections (room s.db) =
      if CloseFails faults req ∨ RecordFails faults requested (room s.db - n) then .nothing n
      else .opened) :
    ∃ result s', Review.openUnderSlot deps faults req requested s = (result, s') ∧
      WorkEnds deps faults req requested s result s' := by
  have hclosing : CloseFails faults req ↔ faults.closeConfig ≠ none := by
    simp [CloseFails, hproject]
  rw [Review.openUnderSlot, hproject]
  rcases withConfig_ok hopen hplacer with ⟨hwith, hclose⟩ | ⟨⟨e, hwith⟩, hclose⟩
  · rcases @recordRequest_after faults requested s n mid haside hnew with
      ⟨⟨result, s', hrun, hopened⟩, hcan⟩ | ⟨⟨e, hrun⟩, hcannot⟩
    · refine ⟨_, s', (Proc.bind_apply hwith).trans hrun, .opened (hend.trans (if_neg ?_)) hopened⟩
      exact not_or.2 ⟨fun h => hclosing.1 h hclose, hcan⟩
    · exact ⟨_, mid, (Proc.bind_apply hwith).trans hrun,
        .nothing (hend.trans (if_pos (.inr hcannot))) haside⟩
  · exact ⟨_, mid, Proc.bind_error hwith,
      .nothing (hend.trans (if_pos (.inl (hclosing.2 hclose)))) haside⟩

theorem openUnderSlot_ends (hdb : Consistent s.db) (hnew : NewId s.db requested.reviewId) :
    ∃ result s', Review.openUnderSlot deps faults req requested s = (result, s') ∧
      WorkEnds deps faults req requested s result s' := by
  cases hproject : req.projectId with
  | none =>
    have hend : workEnd deps faults req requested s.db.toProjections (room s.db) =
        if RecordFails faults requested (room s.db) then .nothing 0 else .opened := by
      simp only [workEnd, seatStep, CloseFails, hproject, Option.isSome_none, Bool.false_eq_true,
        false_and, false_or]
    rw [Review.openUnderSlot, hproject]
    rcases @recordRequest_ends faults requested s hdb hnew with
      ⟨⟨result, s', hrun, hopened⟩, hcan⟩ | ⟨⟨e, hrun⟩, hcannot⟩
    · exact ⟨_, _, hrun, .opened (hend.trans (if_neg hcan)) hopened⟩
    · exact ⟨_, _, hrun, .nothing (hend.trans (if_pos hcannot)) (.refl hdb)⟩
  | some projectId =>
    by_cases hopen : faults.openConfig = none
    · cases hdispatch : deps.dispatch with
      | false =>
        have hstep : seatStep deps faults req s.db.toProjections = .launch none := by
          simp only [seatStep, hproject, hopen, hdispatch]
          rfl
        have hplacer : Review.recordReviewerPlacement deps faults req req.reviewScope projectId
            (some requested) s = (.ok none, s) := by
          rw [Review.recordReviewerPlacement, hdispatch]
          rfl
        refine openUnderSlot_recording (n := 0) hnew hproject hopen hplacer (.refl hdb) ?_
        simp only [workEnd, hstep, Nat.sub_zero]
      | true =>
        have hread := @recordReviewerPlacement_eq deps faults req s projectId hdispatch
          (some requested) req.reviewScope
        cases hdecide : decideReviewerSeat deps.placer s.db.usage s.db.placement req
            req.reviewScope projectId with
        | error e =>
          have hstep : seatStep deps faults req s.db.toProjections = .failed := by
            simp only [seatStep, hproject, hopen, hdispatch, hdecide]
            rfl
          rw [hdecide] at hread
          obtain ⟨e', hwith⟩ := withConfig_error hopen hread
          rw [Review.openUnderSlot, hproject]
          refine ⟨_, _, Proc.bind_error hwith, .nothing ?_ (.refl hdb)⟩
          simp only [workEnd, hstep]
        | ok decision =>
          rw [hdecide] at hread
          cases decision with
          | stay =>
            have hstep : seatStep deps faults req s.db.toProjections = .launch none := by
              simp only [seatStep, hproject, hopen, hdispatch, hdecide]
              rfl
            refine openUnderSlot_recording (n := 0) hnew hproject hopen (hread.trans rfl) (.refl hdb)
              ?_
            simp only [workEnd, hstep, Nat.sub_zero]
          | resume placement =>
            have hstep : seatStep deps faults req s.db.toProjections =
                .launch (some placement.agent) := by
              simp only [seatStep, hproject, hopen, hdispatch, hdecide]
              rfl
            rcases @launchSeat_ends deps faults req req.reviewScope projectId placement s hdb with
              ⟨⟨mid, hlaunch, haside⟩, hcan⟩ | ⟨⟨e, hlaunch⟩, hcannot⟩
            · refine openUnderSlot_recording hnew hproject hopen
                (hread.trans (Proc.bind_apply hlaunch)) haside ?_
              simp only [workEnd, hstep, if_neg hcan]
            · obtain ⟨e', hwith⟩ := withConfig_error hopen (hread.trans (Proc.bind_error hlaunch))
              rw [Review.openUnderSlot, hproject]
              refine ⟨_, _, Proc.bind_error hwith, .nothing ?_ (.refl hdb)⟩
              simp only [workEnd, hstep, if_pos hcannot]
          | record seat placement =>
            exact openUnderSlot_placing hdb hnew hproject hopen hdispatch hdecide
    · have hstep : seatStep deps faults req s.db.toProjections = .failed := by
        simp only [seatStep, hproject, Option.isSome_iff_ne_none.2 hopen, if_pos]
      obtain ⟨e, hwith⟩ := withConfig_unopened hopen
      rw [Review.openUnderSlot, hproject]
      refine ⟨_, _, Proc.bind_error hwith, .nothing ?_ (.refl hdb)⟩
      simp only [workEnd, hstep]

end

end Orchestration.Replay
