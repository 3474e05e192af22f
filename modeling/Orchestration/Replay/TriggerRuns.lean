import Orchestration.Replay.TriggerCalls

/-!
# What a trigger leaves behind

A trigger that fails gives the slot back that it took, and leaves the verdict alone that was
there before it, unless it loses the slot on the way out or fails when the review is opened
already.
-/

namespace Orchestration.Replay

open Fallible Transaction
open Transaction.Proc (onError unlessFault when)
open Orchestration.Review (Carries MergeSlotResult ReviewRequested ReviewRequestRecord
  ReviewTriggerDeps ReviewTriggerRequest ReviewTriggerResult Reviewing TriggerFaults TriggerPath
  restoreSlot selectReviewRequest selectReviewRequestById selectVerdict snapshot triggerChecks
  triggerReview)
open Orchestration.Review.TriggerProc (onStores)

/-! ## Giving the slot back -/

section

variable {faults : TriggerFaults} {req : ReviewTriggerRequest} {slot : MergeSlotResult}
  {s : Reviewing}

theorem snapshot_eq {db : Db} (hdb : Consistent db) : snapshot db = (.ok db, db) := by
  rw [snapshot, transaction_eq_ok, Review.ensureReviewTables_bind hdb]
  rfl

/-- The event that gives the slot back can be appended. -/
def CanRestore (faults : TriggerFaults) (free : ℕ) : Prop :=
  faults.recheck = none ∧ faults.release = none ∧ 1 ≤ free

/-- A slot that was held before, or that a review was opened under, is kept. -/
theorem restoreSlot_idle (hdb : Consistent s.db)
    (hidle : slot.fresh = false ∨ Review.requestPersisted req s.db = true) :
    ∃ result, restoreSlot faults req slot s = (result, s) := by
  rw [restoreSlot]
  cases hrecheck : faults.recheck with
  | some e => exact ⟨_, Proc.bind_error rfl⟩
  | none =>
    have hread : onStores (unlessFault none snapshot) s = (.ok s.db, s) :=
      Proc.on_eq.2 ⟨s.db, snapshot_eq hdb, rfl⟩
    rw [Proc.bind_apply hread]
    rcases hidle with hfresh | hpersisted
    · rw [hfresh]
      exact ⟨_, rfl⟩
    · rw [hpersisted, Bool.not_true, Bool.and_false]
      exact ⟨_, rfl⟩

/-- A slot that the call took for nothing is given back, if that can be recorded. -/
theorem restoreSlot_due (hdb : Consistent s.db) (htarget : req.target ≠ "")
    (hbranch : req.branch ≠ "") (hfresh : slot.fresh = true)
    (hnothing : Review.requestPersisted req s.db = false)
    (hheld : slots s.db req.target = some req.branch) :
    (∃ db event, restoreSlot faults req slot s = (.ok (), { s with db }) ∧
        Carries event (.serialized req.slot) ∧ s.db.commit event = .ok db ∧
        slots db req.target = none) ∧ CanRestore faults (room s.db) ∨
      (∃ e, restoreSlot faults req slot s = (.error e, s)) ∧ ¬ CanRestore faults (room s.db) := by
  rw [restoreSlot]
  cases hrecheck : faults.recheck with
  | some e => exact .inr ⟨⟨e, Proc.bind_error rfl⟩, fun h => nomatch hrecheck.symm.trans h.1⟩
  | none =>
    have hread : onStores (unlessFault none snapshot) s = (.ok s.db, s) :=
      Proc.on_eq.2 ⟨s.db, snapshot_eq hdb, rfl⟩
    have hactive : Review.activeSerializedFromEvents s.db req.target = some req.branch := hheld
    rw [Proc.bind_apply hread, hfresh, hnothing, hactive, beq_self_eq_true, Bool.not_false,
      Bool.and_self, Bool.and_self, Proc.when_true]
    have hroom : RoomFor 1 s.db ↔ 1 ≤ room s.db := roomFor_iff
    rcases @release_held faults.release req.slot s.db hdb htarget hbranch hheld with
      ⟨db, hrelease, ⟨event, hevent, hcommit⟩, hfree, hfault, hone⟩ | ⟨⟨e, hrelease⟩, hcannot⟩
    · refine .inl ⟨⟨db, event, Proc.on_eq.2 ⟨db, hrelease, rfl⟩, hevent, hcommit, hfree⟩, ?_⟩
      exact ⟨hrecheck, hfault, hroom.1 hone⟩
    · refine .inr ⟨⟨e, Proc.on_eq.2 ⟨s.db, hrelease, rfl⟩⟩, fun hcan => hcannot ?_⟩
      exact ⟨hcan.2.1, hroom.2 hcan.2.2⟩

end

/-! ## Whether a request is there -/

section

variable {db db' : Db} {reviewId target branch : String}

/-- The latest request of a pair is found by its id. -/
theorem selectById_of_latest {record : ReviewRequestRecord}
    (h : selectReviewRequest db.review target branch = some record)
    (hid : record.reviewId = reviewId) (hdb : Consistent db) :
    selectReviewRequestById db.review reviewId ≠ none := by
  obtain ⟨row, hrow, hrest⟩ := Option.bind_eq_some_iff.1 h
  obtain ⟨ts, hts, hrecord⟩ := Option.bind_eq_some_iff.1 hrest
  obtain rfl := Option.some.inj hrecord
  obtain ⟨id, hrowId, -⟩ := (Review.registered_of_consistent hdb).rows _ row hrow
    (by rw [hts]; rfl)
  have hsame : id = reviewId := by simpa [Review.rowToReviewRequestRecord, hrowId] using hid
  have hfound : (db.review.reviews.rows.find? fun row =>
      row.reviewId == some reviewId && row.requestedTs.isSome).isSome = true := by
    rw [List.find?_isSome]
    refine ⟨row, (Table.find?_eq_some.1 hrow).1, ?_⟩
    simp [hrowId, hsame, hts]
  obtain ⟨found, hfound⟩ := Option.isSome_iff_exists.1 hfound
  have hopen := List.find?_some hfound
  simp only [Bool.and_eq_true] at hopen
  obtain ⟨ts', hts'⟩ := Option.isSome_iff_exists.1 hopen.2
  rw [selectReviewRequestById, hfound]
  simp [hts']

theorem persisted_of_latest {req : ReviewTriggerRequest} {record : ReviewRequestRecord}
    (h : selectReviewRequest db.review req.target req.branch = some record)
    (hid : record.reviewId = req.reviewId) : Review.requestPersisted req db = true := by
  rw [Review.requestPersisted, h]
  simp [hid]

theorem not_persisted_of_new (hdb : Consistent db) {req : ReviewTriggerRequest}
    (hnew : NewId db req.reviewId) : Review.requestPersisted req db = false := by
  have hlatest := @latest_of_new db req.reviewId req.target req.branch hdb hnew
  rw [Option.filter_eq_none_iff] at hlatest
  rw [Review.requestPersisted]
  cases hselect : selectReviewRequest db.review req.target req.branch with
  | none => rfl
  | some record => exact Bool.eq_false_iff.2 (hlatest record hselect)

end

/-! ## What the checks promise -/

section

variable {deps : ReviewTriggerDeps} {req : ReviewTriggerRequest} {requested : ReviewRequested}
  {db : Db}

/-- The request is the one that the call is about. -/
def RequestFor (req : ReviewTriggerRequest) (requested : ReviewRequested) : Prop :=
  requested.reviewId = req.reviewId ∧ requested.target = req.target ∧
    requested.branch = req.branch

theorem requestFor_reviewRequested {kind : Review.ReviewerKind} {specRef : Review.ReviewSpecRef} :
    RequestFor req (Review.reviewRequested req kind specRef) := ⟨rfl, rfl, rfl⟩

/-- The checks end in one of the two ways of a call: the review is there, or it is new. -/
theorem triggerChecks_cases {path : TriggerPath} (h : triggerChecks deps req db = .ok path) :
    (∃ existing, selectReviewRequest db.review req.target req.branch = some existing ∧
      existing.reviewId = req.reviewId ∧ Review.repeatedTrigger deps req db existing = .ok path) ∨
    ((selectReviewRequest db.review req.target req.branch).filter
        (·.reviewId == req.reviewId) = none ∧
      Review.freshTrigger deps req db (selectReviewRequest db.review req.target req.branch) =
        .ok path) := by
  rw [triggerChecks] at h
  cases hlatest : (selectReviewRequest db.review req.target req.branch).filter
      (·.reviewId == req.reviewId) with
  | some existing =>
    simp only [hlatest] at h
    obtain ⟨hselect, hid⟩ := Option.filter_eq_some_iff.1 hlatest
    exact .inl ⟨existing, hselect, beq_iff_eq.1 hid, h⟩
  | none =>
    simp only [hlatest] at h
    exact .inr ⟨rfl, h⟩

theorem freshTrigger_cases {existing : Option ReviewRequestRecord} {path : TriggerPath}
    (h : Review.freshTrigger deps req db existing = .ok path) :
    (∃ u db', Review.assertReviewIdAvailableInDb req.reviewId req.target req.branch db =
      .ok (u, db')) ∧ ∃ requested, RequestFor req requested ∧
        (path = .human requested ∨ path = .fresh requested) := by
  simp only [Review.freshTrigger, bind_eq_ok] at h
  obtain ⟨_, -, kind, -, _, -, _, -, h⟩ := h
  have havailable : ∀ {u : Unit}, Review.assertReviewIdAvailable req db = .ok u →
      ∃ u db', Review.assertReviewIdAvailableInDb req.reviewId req.target req.branch db =
        .ok (u, db') := by
    intro u hcheck
    rw [Review.assertReviewIdAvailable] at hcheck
    cases hrun : Review.assertReviewIdAvailableInDb req.reviewId req.target req.branch db with
    | error e =>
      rw [hrun] at hcheck
      cases hcheck
    | ok result => exact ⟨result.1, result.2, rfl⟩
  cases kind with
  | human =>
    obtain ⟨_, -, _, hcheck, hpath⟩ := by simpa only [bind_eq_ok] using h
    exact ⟨havailable hcheck, _, requestFor_reviewRequested, .inl (pure_eq_ok.1 hpath).symm⟩
  | agent =>
    obtain ⟨_, hcheck, hpath⟩ := by simpa only [bind_eq_ok] using h
    exact ⟨havailable hcheck, _, requestFor_reviewRequested, .inr (pure_eq_ok.1 hpath).symm⟩

/-- A review that is there already is not opened. -/
theorem repeatedTrigger_cases {existing : ReviewRequestRecord} {path : TriggerPath}
    (h : Review.repeatedTrigger deps req db existing = .ok path) :
    path = .settled existing ∨ (∃ requested, RequestFor req requested ∧ path = .human requested) ∨
      ∃ projectId, path = .seat existing projectId := by
  simp only [Review.repeatedTrigger, bind_eq_ok] at h
  obtain ⟨_, -, h⟩ := h
  split at h
  · exact .inl (pure_eq_ok.1 h).symm
  · obtain ⟨_, -, h⟩ := bind_eq_ok.1 h
    split at h
    · obtain ⟨_, -, h⟩ := bind_eq_ok.1 h
      exact .inr (.inl ⟨_, requestFor_reviewRequested, (pure_eq_ok.1 h).symm⟩)
    · obtain ⟨_, -, h⟩ := bind_eq_ok.1 h
      exact .inr (.inr ⟨_, (pure_eq_ok.1 h).symm⟩)
    · exact .inl (pure_eq_ok.1 h).symm

/-- What is opened under the slot is new. -/
theorem new_of_fresh (hdb : Consistent db) (h : triggerChecks deps req db = .ok (.fresh requested)) :
    RequestFor req requested ∧ NewId db req.reviewId := by
  rcases triggerChecks_cases h with ⟨existing, -, -, hrepeated⟩ | ⟨hlatest, hfresh⟩
  · rcases repeatedTrigger_cases hrepeated with hpath | ⟨_, -, hpath⟩ | ⟨_, hpath⟩ <;> cases hpath
  · obtain ⟨⟨u, db', havailable⟩, requested', hfor, hpath | hpath⟩ := freshTrigger_cases hfresh
    · cases hpath
    · cases hpath
      exact ⟨hfor, new_of_available hdb hlatest havailable⟩

theorem requestFor_of_human (h : triggerChecks deps req db = .ok (.human requested)) :
    RequestFor req requested := by
  rcases triggerChecks_cases h with ⟨existing, -, -, hrepeated⟩ | ⟨-, hfresh⟩
  · rcases repeatedTrigger_cases hrepeated with hpath | ⟨_, hfor, hpath⟩ | ⟨_, hpath⟩ <;> cases hpath
    exact hfor
  · obtain ⟨-, requested', hfor, hpath | hpath⟩ := freshTrigger_cases hfresh <;> cases hpath
    exact hfor

end

/-! ## Opening under the slot -/

/-- A call keeps no slot that it took while there is no request, and changes no verdict when it
fails. -/
structure LeavesNothing (req : ReviewTriggerRequest) (db : Db)
    (result : Except String ReviewTriggerResult) (db' : Db) : Prop where
  slot : ¬ (slots db req.target = none ∧ slots db' req.target = some req.branch ∧
    selectReviewRequestById db'.review req.reviewId = none)
  verdict : ∀ e, result = .error e → ∀ target branch scope,
    selectVerdict db'.review target branch scope = selectVerdict db.review target branch scope

/-- The branch can have the slot. -/
def SlotAvailable (faults : TriggerFaults) (req : ReviewTriggerRequest) (db : Db) : Prop :=
  faults.acquire = none ∧ (slots db req.target = some req.branch ∨
    slots db req.target = none ∧ req.target ≠ "" ∧ req.branch ≠ "" ∧ 1 ≤ room db)

/-- The room in the log when the branch has the slot. -/
def roomUnderSlot (req : ReviewTriggerRequest) (db : Db) : ℕ :=
  if slots db req.target = none then room db - 1 else room db

/-- How the work ends that the call does under the slot. -/
def endUnderSlot (deps : ReviewTriggerDeps) (faults : TriggerFaults) (req : ReviewTriggerRequest)
    (requested : ReviewRequested) (db : Db) : WorkEnd :=
  workEnd deps faults req requested db.toProjections (roomUnderSlot req db)

/-- The call takes the slot, opens nothing under it and cannot give it back. -/
def KeepsSlot (deps : ReviewTriggerDeps) (faults : TriggerFaults) (req : ReviewTriggerRequest)
    (requested : ReviewRequested) (db : Db) : Prop :=
  slots db req.target = none ∧ ∃ n, endUnderSlot deps faults req requested db = .nothing n ∧
    ¬ CanRestore faults (roomUnderSlot req db - n)

/-- The call opens the review over a verdict of the branch, and fails after that. -/
def ClearsVerdict (deps : ReviewTriggerDeps) (faults : TriggerFaults) (req : ReviewTriggerRequest)
    (requested : ReviewRequested) (db : Db) : Prop :=
  endUnderSlot deps faults req requested db = .inVain ∧
    ∃ scope, selectVerdict db.review req.target req.branch scope ≠ none

/-- The call leaves something behind. -/
def Leaks (deps : ReviewTriggerDeps) (faults : TriggerFaults) (req : ReviewTriggerRequest)
    (db : Db) : Prop :=
  faults.checks = none ∧ ∃ requested, triggerChecks deps req db = .ok (.fresh requested) ∧
    SlotAvailable faults req db ∧
      (KeepsSlot deps faults req requested db ∨ ClearsVerdict deps faults req requested db)

section

variable {deps : ReviewTriggerDeps} {faults : TriggerFaults} {req : ReviewTriggerRequest}
  {requested : ReviewRequested}

/-- How the work ends depends on the mail, the usage and the placements only. -/
theorem workEnd_congr {t t' : Projections} {free : ℕ} (hmail : t'.mail = t.mail)
    (husage : t'.usage = t.usage) (hplacement : t'.placement = t.placement) :
    workEnd deps faults req requested t' free = workEnd deps faults req requested t free := by
  have hstep : seatStep deps faults req t' = seatStep deps faults req t := by
    simp only [seatStep, husage, hplacement]
  simp only [workEnd, hstep, hmail]

/-- What taking the slot leaves as it was. -/
structure SlotJustTaken (req : ReviewTriggerRequest) (db mid : Db) : Prop where
  consistent : Consistent mid
  held : slots mid req.target = some req.branch
  mail : mid.mail = db.mail
  usage : mid.usage = db.usage
  placement : mid.placement = db.placement
  ids : mid.review.reviewRequestIds = db.review.reviewRequestIds
  verdicts : ∀ target branch scope,
    selectVerdict mid.review target branch scope = selectVerdict db.review target branch scope
  room : room mid = room db - 1

theorem slotJustTaken {db mid : Db} {event : NewEvent Payload} (hdb : Consistent db)
    (hfree : slots db req.target = none) (hevent : Carries event (.serialized req.slot))
    (hcommit : db.commit event = .ok mid) : SlotJustTaken req db mid where
  consistent := hdb.commit hcommit
  held := by
    rw [slots_of_acquire hevent hfree hcommit]
    exact Function.update_self ..
  mail := same_of_toggle (p := .mail) nofun hevent hcommit
  usage := same_of_toggle (p := .usage) nofun hevent hcommit
  placement := same_of_toggle (p := .placement) nofun hevent hcommit
  ids := by
    rw [review_of_toggle hevent hcommit]
    rfl
  verdicts target branch scope := by
    rw [review_of_toggle hevent hcommit]
    exact selectVerdict_applySerialized _ _ _ _
  room := room_commit hcommit

/-- A call that leaves the project alone leaves nothing behind. -/
theorem LeavesNothing.same {db : Db} {result : Except String ReviewTriggerResult} :
    LeavesNothing req db result db where
  slot := fun ⟨hfree, hheld, _⟩ => nomatch hfree.symm.trans hheld
  verdict _ _ _ _ _ := rfl

/-- A call that returns with the review there leaves nothing behind. -/
theorem LeavesNothing.of_ok {db db' : Db} {result : ReviewTriggerResult}
    (h : selectReviewRequestById db'.review req.reviewId ≠ none) :
    LeavesNothing req db (.ok result) db' where
  slot := fun hlost => h hlost.2.2
  verdict := nofun

/-- The review that was opened is there. -/
theorem Opened.persisted (hfor : RequestFor req requested) {db db' : Db}
    (h : Opened requested db db') : Review.requestPersisted req db' = true ∧
      selectReviewRequestById db'.review req.reviewId ≠ none := by
  obtain ⟨hreviewId, htarget, hbranch⟩ := hfor
  obtain ⟨record, hrecord, hid⟩ := h.record
  rw [htarget, hbranch] at hrecord
  have hid := hid.trans hreviewId
  exact ⟨persisted_of_latest hrecord hid, selectById_of_latest hrecord hid h.consistent⟩

/-- Work that failed over a verdict changes it; over none it changes nothing. -/
theorem Opened.leavesNothing_iff (hfor : RequestFor req requested) {db mid db' : Db}
    (h : Opened requested mid db') (hverdicts : ∀ target branch scope,
      selectVerdict mid.review target branch scope = selectVerdict db.review target branch scope)
    {e : String} : LeavesNothing req db (.error e) db' ↔
      ¬ ∃ scope, selectVerdict db.review req.target req.branch scope ≠ none := by
  have hpersisted := (h.persisted hfor).2
  obtain ⟨-, htarget, hbranch⟩ := hfor
  constructor
  · rintro ⟨-, hverdict⟩ ⟨scope, hvisible⟩
    have hnone := h.unanswered scope
    rw [htarget, hbranch, hverdict e rfl] at hnone
    exact hvisible hnone
  · intro hnone
    refine ⟨fun hlost => hpersisted hlost.2.2, fun _ _ target branch scope => ?_⟩
    by_cases hpair : (target, branch) = (requested.target, requested.branch)
    · obtain ⟨rfl, rfl⟩ := Prod.mk.inj hpair
      rw [h.unanswered scope, htarget, hbranch]
      by_contra hvisible
      exact hnone ⟨scope, fun heq => hvisible heq.symm⟩
    · rw [h.others target branch scope hpair, hverdicts]

/-! ### The two ways to have the slot -/

variable {s : Reviewing}

/-- What is opened in the slot that the branch holds already. -/
theorem openHeld_ends (hdb : Consistent s.db) (hfor : RequestFor req requested)
    (hnew : NewId s.db req.reviewId) (hheld : slots s.db req.target = some req.branch) :
    ∃ result s', onError (Review.openUnderSlot deps faults req requested)
        (restoreSlot faults req ⟨true, false, req.branch, false⟩) s = (result, s') ∧
      (LeavesNothing req s.db result s'.db ↔
        ¬ (KeepsSlot deps faults req requested s.db ∨
          ClearsVerdict deps faults req requested s.db)) := by
  have hkeeps : ¬ KeepsSlot deps faults req requested s.db :=
    fun h => nomatch h.1.symm.trans hheld
  have hfree : roomUnderSlot req s.db = room s.db := by
    rw [roomUnderSlot, hheld]
    exact if_neg nofun
  have hnew : NewId s.db requested.reviewId := by rwa [hfor.1]
  obtain ⟨result, last, hrun, hends⟩ := @openUnderSlot_ends deps faults req requested s hdb hnew
  cases hends with
  | opened hend hopened =>
    refine ⟨_, last, Proc.onError_eq_ok.2 hrun, ?_⟩
    refine iff_of_true (.of_ok (hopened.persisted hfor).2) (not_or.2 ⟨hkeeps, fun h => ?_⟩)
    rw [ClearsVerdict, endUnderSlot, hfree, hend] at h
    exact nomatch h.1
  | @nothing e _ n hend haside =>
    obtain ⟨restored, hrestore⟩ := @restoreSlot_idle faults req ⟨true, false, req.branch, false⟩ last
      haside.consistent (.inl rfl)
    obtain ⟨e', hfailed⟩ := Proc.onError_of_error hrun hrestore
    refine ⟨_, last, hfailed, iff_of_true ⟨?_, ?_⟩ (not_or.2 ⟨hkeeps, fun h => ?_⟩)⟩
    · exact fun hlost => nomatch hlost.1.symm.trans hheld
    · intro _ _ target branch scope
      rw [haside.review]
    · rw [ClearsVerdict, endUnderSlot, hfree, hend] at h
      exact nomatch h.1
  | @inVain e _ hend hopened =>
    obtain ⟨restored, hrestore⟩ := @restoreSlot_idle faults req ⟨true, false, req.branch, false⟩ last
      hopened.consistent (.inl rfl)
    obtain ⟨e', hfailed⟩ := Proc.onError_of_error hrun hrestore
    refine ⟨_, last, hfailed, (hopened.leavesNothing_iff hfor fun _ _ _ => rfl).trans ?_⟩
    rw [not_or, ClearsVerdict, endUnderSlot, hfree, hend]
    simp [hkeeps]

/-- What is opened in the slot that the call has just taken. -/
theorem openTaken_ends (hfor : RequestFor req requested)
    (hnew : NewId s.db req.reviewId) (hfree : slots s.db req.target = none)
    (htarget : req.target ≠ "") (hbranch : req.branch ≠ "") {mid : Reviewing}
    (hmid : SlotJustTaken req s.db mid.db) :
    ∃ result s', onError (Review.openUnderSlot deps faults req requested)
        (restoreSlot faults req ⟨true, false, req.branch, true⟩) mid = (result, s') ∧
      (LeavesNothing req s.db result s'.db ↔
        ¬ (KeepsSlot deps faults req requested s.db ∨
          ClearsVerdict deps faults req requested s.db)) := by
  have hroom : roomUnderSlot req s.db = room mid.db := by
    rw [roomUnderSlot, if_pos hfree, hmid.room]
  have hends : endUnderSlot deps faults req requested s.db =
      workEnd deps faults req requested mid.db.toProjections (room mid.db) := by
    rw [endUnderSlot, hroom, workEnd_congr hmid.mail hmid.usage hmid.placement]
  have hnewMid : NewId mid.db req.reviewId := by rwa [NewId, hmid.ids]
  obtain ⟨result, last, hrun, hwork⟩ := @openUnderSlot_ends deps faults req requested mid
    hmid.consistent (by rwa [hfor.1])
  cases hwork with
  | opened hend hopened =>
    refine ⟨_, last, Proc.onError_eq_ok.2 hrun, ?_⟩
    refine iff_of_true (.of_ok (hopened.persisted hfor).2) ?_
    rw [KeepsSlot, ClearsVerdict, hends, hend]
    simp
  | @nothing e _ n hend haside =>
    have hnewLast : NewId last.db req.reviewId := hnewMid.of_aside haside
    have hheld : slots last.db req.target = some req.branch := by rw [haside.slots, hmid.held]
    have hkept : ∀ target branch scope, selectVerdict last.db.review target branch scope =
        selectVerdict s.db.review target branch scope := by
      intro target branch scope
      rw [haside.review, hmid.verdicts]
    have hclears : ¬ ClearsVerdict deps faults req requested s.db := by
      rw [ClearsVerdict, hends, hend]
      intro h
      cases h.1
    have hkeeps : KeepsSlot deps faults req requested s.db ↔ ¬ CanRestore faults (room last.db) := by
      rw [KeepsSlot, hends, hend, hroom, haside.room]
      simp [hfree]
    rcases @restoreSlot_due faults req ⟨true, false, req.branch, true⟩ last haside.consistent
        htarget hbranch rfl (not_persisted_of_new haside.consistent hnewLast) hheld with
      ⟨⟨db, event, hrestore, hevent, hcommit, hgiven⟩, hcan⟩ | ⟨⟨e', hrestore⟩, hcannot⟩
    · obtain ⟨e', hfailed⟩ := Proc.onError_of_error hrun hrestore
      refine ⟨_, _, hfailed, iff_of_true ⟨?_, fun _ _ target branch scope => ?_⟩ ?_⟩
      · intro hlost
        cases hgiven.symm.trans hlost.2.1
      · rw [review_of_toggle hevent hcommit, selectVerdict_applySerialized, hkept]
      · exact not_or.2 ⟨fun h => hkeeps.1 h hcan, hclears⟩
    · obtain ⟨e', hfailed⟩ := Proc.onError_of_error hrun hrestore
      refine ⟨_, _, hfailed, iff_of_false (fun h => h.slot ⟨hfree, hheld, ?_⟩) ?_⟩
      · exact selectById_of_new haside.consistent hnewLast
      · exact not_not.2 (.inl (hkeeps.2 hcannot))
  | @inVain e _ hend hopened =>
    obtain ⟨restored, hrestore⟩ := @restoreSlot_idle faults req ⟨true, false, req.branch, true⟩ last
      hopened.consistent (.inr (hopened.persisted hfor).1)
    obtain ⟨e', hfailed⟩ := Proc.onError_of_error hrun hrestore
    refine ⟨_, last, hfailed, (hopened.leavesNothing_iff hfor hmid.verdicts).trans ?_⟩
    rw [not_or, KeepsSlot, ClearsVerdict, hends, hend]
    simp

/-- A new review is opened without a trace of failure, unless the call leaks. -/
theorem openReview_leavesNothing (hdb : Consistent s.db) (hfor : RequestFor req requested)
    (hnew : NewId s.db req.reviewId) :
    ∃ result s', Review.openReview deps faults req requested s = (result, s') ∧
      (LeavesNothing req s.db result s'.db ↔ ¬ (SlotAvailable faults req s.db ∧
        (KeepsSlot deps faults req requested s.db ∨
          ClearsVerdict deps faults req requested s.db))) := by
  rw [Review.openReview]
  rcases hacquire : unlessFault faults.acquire (transaction (Review.acquireSerialized req.slot)) s.db
    with ⟨e | slot, mid⟩
  · -- the acquiring transaction fails
    obtain rfl := ((Proc.atomic_transaction _).unlessFault _) _ _ _ hacquire
    refine ⟨_, s, Proc.bind_error (Proc.on_eq.2 ⟨_, hacquire, rfl⟩), iff_of_true .same ?_⟩
    rintro ⟨⟨hfault, hslot⟩, -⟩
    rcases hslot with hheld | ⟨hfree, htarget, hbranch, hroom⟩
    · rw [@acquire_held faults.acquire req.slot s.db hdb hheld hfault] at hacquire
      cases hacquire
    · obtain ⟨db, event, hrun, -⟩ := @acquire_free faults.acquire req.slot s.db hdb hfree htarget
        hbranch hfault (roomFor_iff.2 hroom)
      rw [hrun] at hacquire
      cases hacquire
  · have hstep : onStores (unlessFault faults.acquire
        (transaction (Review.acquireSerialized req.slot))) s = (.ok slot, { s with db := mid }) :=
      Proc.on_eq.2 ⟨mid, hacquire, rfl⟩
    obtain ⟨hfault, htaken⟩ := slotTaken hdb hacquire
    cases htaken with
    | @fresh _ event hfree hevent hcommit =>
      obtain ⟨htarget, hbranch⟩ := named_of_toggle hevent hcommit
      have havailable : SlotAvailable faults req s.db :=
        ⟨hfault, .inr ⟨hfree, htarget, hbranch, roomFor_iff.1 (room_of_commit hcommit).1⟩⟩
      obtain ⟨result, s', hrun, hiff⟩ := @openTaken_ends deps faults req requested s hfor hnew
        hfree htarget hbranch { s with db := mid } (slotJustTaken hdb hfree hevent hcommit)
      refine ⟨result, s', (Proc.bind_apply hstep).trans hrun, hiff.trans ?_⟩
      simp [havailable]
    | @held active hheld =>
      by_cases hactive : active = req.branch
      · subst hactive
        have havailable : SlotAvailable faults req s.db := ⟨hfault, .inl hheld⟩
        obtain ⟨result, s', hrun, hiff⟩ := @openHeld_ends deps faults req requested s hdb hfor hnew
          hheld
        have hslot : (⟨req.branch = req.slot.branch, req.branch ≠ req.slot.branch, req.branch,
            false⟩ : MergeSlotResult) = ⟨true, false, req.branch, false⟩ := by
          simp [ReviewTriggerRequest.slot]
        rw [hslot] at hstep
        refine ⟨result, s', (Proc.bind_apply hstep).trans hrun, hiff.trans ?_⟩
        simp [havailable]
      · have hslot : (⟨active = req.slot.branch, active ≠ req.slot.branch, active, false⟩ :
            MergeSlotResult) = ⟨false, true, active, false⟩ := by
          simp [ReviewTriggerRequest.slot, hactive]
        rw [hslot] at hstep
        refine ⟨_, s, (Proc.bind_apply hstep).trans (Proc.bind_error rfl), iff_of_true .same ?_⟩
        · rintro ⟨⟨-, hslot⟩, -⟩
          rcases hslot with hmine | ⟨hfree, -⟩
          · exact hactive (Option.some.inj (hheld.symm.trans hmine))
          · exact nomatch hheld.symm.trans hfree

end

/-! ## The other ways of a trigger -/

section

variable {req : ReviewTriggerRequest} {requested : ReviewRequested} {db db' : Db}

/-- After the event of a request the latest request of the pair carries its id. -/
theorem latest_of_request {event : NewEvent Payload}
    (hevent : Carries event (.requested requested)) (h : db.commit event = .ok db') :
    ∃ record, selectReviewRequest db'.review requested.target requested.branch = some record ∧
      record.reviewId = requested.reviewId := by
  cases hids : db.review.reviewRequestIds.find? requested.reviewId with
  | none =>
    obtain ⟨⟨record, hrecord, hid, -⟩, -⟩ := opened_of_request hevent hids h
    exact ⟨record, hrecord, hid⟩
  | some existing =>
    -- a repetition folds only where the latest request is the same
    obtain ⟨-, tables, hfold, rfl⟩ := commit_eq_ok.1 h
    rcases foldEvent_review hfold with ⟨payload, hstored, happly⟩ | ⟨hnone, -⟩
    · obtain rfl : Review.ReviewEvent.requested requested = payload :=
        Payload.review.inj (hevent.payload_eq.symm.trans hstored)
      simp only [Review.ReviewProjector.apply, StoredEvent.withPayload, Review.applyRequested, hids,
        bind_eq_ok, refuse_eq_ok, pure_eq_ok] at happly
      obtain ⟨_, -, _, hsame, htables⟩ := happly
      simp only [Bool.not_eq_true', Bool.not_eq_false] at hsame
      cases hrow : db.review.reviews.find? (requested.target, requested.branch) with
      | none =>
        rw [hrow] at hsame
        cases hsame
      | some row =>
        rw [hrow, Option.any_some, Review.isSameRequest] at hsame
        simp only [Bool.and_eq_true, beq_iff_eq] at hsame
        obtain ⟨⟨⟨⟨⟨⟨hopen, hid⟩, -⟩, -⟩, -⟩, -⟩, -⟩ := hsame
        obtain ⟨ts, hts⟩ := Option.isSome_iff_exists.1 hopen
        refine ⟨Review.rowToReviewRequestRecord row ts, ?_, ?_⟩
        · change selectReviewRequest tables.review requested.target requested.branch = _
          rw [← htables]
          exact Option.bind_eq_some_iff.2 ⟨row, hrow, Option.bind_eq_some_iff.2 ⟨ts, hts, rfl⟩⟩
        · simp [Review.rowToReviewRequestRecord, hid]
    · exact absurd hevent.payload_eq (hnone _)

/-- The slot that a human review takes changes no request. -/
theorem TakesSlot.latest {slot : List (NewEvent Payload)} {target branch : String}
    (hslot : Mail.TakesSlot db target branch slot) (h : db.commitAll slot = .ok db')
    (target' branch' : String) : selectReviewRequest db'.review target' branch' =
      selectReviewRequest db.review target' branch' := by
  cases hslot with
  | held _ =>
    obtain rfl := Except.ok.inj h
    rfl
  | free _ hevent =>
    obtain ⟨last, hcommit, hnil⟩ := Db.commitAll_cons.1 h
    obtain rfl := Except.ok.inj hnil
    rw [review_of_toggle hevent hcommit]
    exact selectReviewRequest_applySerialized _ _ _

/-- A mail that is there already is repeated only for the request that it stands for. -/
theorem repeated_of_existing (hdb : Consistent db) {envelope : Mail.MailEnvelope}
    {result : Mail.DeliveredMail × ReviewRequestRecord}
    (h : Mail.MailStore.requestHumanReview envelope requested db = (.ok result, db'))
    (hexisting : (Mail.existingForKey db.mail envelope).isSome = true) :
    ∃ record, selectReviewRequest db.review requested.target requested.branch = some record ∧
      record.reviewId = requested.reviewId := by
  obtain ⟨existing, hexisting⟩ := Option.isSome_iff_exists.1 hexisting
  simp only [Mail.MailStore.requestHumanReview, Proc.liftM_bind_eq_ok] at h
  obtain ⟨_, -, _, -, _, -, _, -, _, -, h⟩ := h
  rw [transaction_eq_ok, Review.ensureReviewTables_bind hdb, Mail.reading_bind] at h
  simp only [hexisting, Mail.repeatHumanReview, Review.reading_bind hdb] at h
  cases hsame : (selectReviewRequest db.review requested.target requested.branch).filter
      (·.reviewId == requested.reviewId) with
  | none => simp [hsame] at h
  | some record =>
    obtain ⟨hselect, hid⟩ := Option.filter_eq_some_iff.1 hsame
    exact ⟨record, hselect, beq_iff_eq.1 hid⟩

/-- After a human was asked the request is there. -/
theorem latest_of_human (hdb : Consistent db) {envelope : Mail.MailEnvelope}
    {result : Mail.DeliveredMail × ReviewRequestRecord}
    (h : Mail.MailStore.requestHumanReview envelope requested db = (.ok result, db')) :
    Consistent db' ∧
      ∃ record, selectReviewRequest db'.review requested.target requested.branch = some record ∧
        record.reviewId = requested.reviewId := by
  obtain ⟨-, -, -, -, slot, hslot, ⟨hexisting, hcommit⟩ | ⟨-, request, mail, hrequest, -, hcommit⟩⟩ :=
    Mail.requestHumanReview_spec hdb h
  · refine ⟨hdb.commitAll hcommit, ?_⟩
    rw [TakesSlot.latest hslot hcommit]
    exact repeated_of_existing hdb h hexisting
  · obtain ⟨mid, hmid, hrest⟩ := Db.commitAll_append.1 hcommit
    obtain ⟨mid', hrequested, hlast⟩ := Db.commitAll_cons.1 hrest
    obtain ⟨last, hmailed, hnil⟩ := Db.commitAll_cons.1 hlast
    obtain rfl := Except.ok.inj hnil
    have hother : (Mail.toProject mail).payload.projector ≠ .review := fun h => nomatch h
    have hkept : last.review = mid'.review := same_of_commit (p := .review) hother hmailed
    refine ⟨hdb.commitAll hcommit, ?_⟩
    rw [hkept]
    exact latest_of_request hrequest hrequested

theorem Aside.trans {mid : Db} {n m : ℕ} (h : Aside n db mid) (h' : Aside m mid db') :
    Aside (n + m) db db' where
  review := h'.review.trans h.review
  slots := h'.slots.trans h.slots
  room := by rw [h'.room, h.room, Nat.sub_sub]
  consistent := h'.consistent

end

section

variable {deps : ReviewTriggerDeps} {faults : TriggerFaults} {req : ReviewTriggerRequest}
  {scope : Review.ReviewScope} {projectId : String} {s s' : Reviewing}

/-- To look after the seat of a review that is open already appends nothing about reviews. -/
theorem recordReviewerPlacement_aside (hdb : Consistent s.db)
    {result : Except String (Option ReviewRequestRecord)}
    (h : Review.recordReviewerPlacement deps faults req scope projectId none s = (result, s')) :
    ∃ n, Aside n s.db s'.db := by
  have hlaunch : ∀ {placement : Dispatch.PlacementRecord} {mid last : Reviewing}
      {result : Except String Unit}, Consistent mid.db →
      Review.launchSeat deps faults req scope projectId placement mid = (result, last) →
      ∃ n, Aside n mid.db last.db := by
    intro placement mid last result hmid hrun
    rcases @launchSeat_ends deps faults req scope projectId placement mid hmid with
      ⟨⟨s', hlaunched, haside⟩, -⟩ | ⟨⟨e, hfailed⟩, -⟩
    · obtain ⟨-, rfl⟩ := Prod.mk.inj (hlaunched.symm.trans hrun)
      exact ⟨_, haside⟩
    · obtain ⟨-, rfl⟩ := Prod.mk.inj (hfailed.symm.trans hrun)
      exact ⟨0, .refl hmid⟩
  cases hdispatch : deps.dispatch with
  | false =>
    rw [Review.recordReviewerPlacement, hdispatch] at h
    obtain ⟨-, rfl⟩ := Prod.mk.inj h
    exact ⟨0, .refl hdb⟩
  | true =>
    rw [recordReviewerPlacement_eq hdispatch] at h
    cases hdecide : Review.decideReviewerSeat deps.placer s.db.usage s.db.placement req scope
        projectId with
    | error e =>
      rw [hdecide] at h
      obtain ⟨-, rfl⟩ := Prod.mk.inj h
      exact ⟨0, .refl hdb⟩
    | ok decision =>
      rw [hdecide] at h
      cases decision with
      | stay =>
        obtain ⟨-, rfl⟩ := Prod.mk.inj h
        exact ⟨0, .refl hdb⟩
      | resume placement =>
        rcases Proc.bind_cases h with ⟨_, hfailed, -⟩ | ⟨_, mid, hlaunched, hpure⟩
        · exact hlaunch hdb hfailed
        · obtain ⟨-, rfl⟩ := Prod.mk.inj hpure
          exact hlaunch hdb hlaunched
      | record seat placement =>
        rcases Proc.bind_cases h with ⟨_, hfailed, -⟩ | ⟨record, mid, hrecorded, hrest⟩
        · obtain ⟨db, hrun, rfl⟩ := Proc.on_eq.1 hfailed
          rw [((Proc.atomic_transaction _).unlessFault _) _ _ _ hrun]
          exact ⟨0, .refl hdb⟩
        · obtain ⟨db, hrun, rfl⟩ := Proc.on_eq.1 hrecorded
          obtain ⟨-, hrun⟩ := Proc.unlessFault_eq_ok.1 hrun
          have hemits := Dispatch.recordPlacement_spec (transaction_eq_ok.1 hrun)
          have haside : ∃ n, Aside n s.db db := by
            refine (hemits.preserves (fun db => ∃ n, Aside n s.db db) ?_ ⟨0, .refl hdb⟩)
            rintro event mid mid' ⟨payload, hpayload⟩ ⟨n, haside⟩ hcommit
            have hother : event.payload.projector ≠ .review := by
              rw [hpayload]
              cases payload <;> (intro h; cases h)
            exact ⟨n + 1, haside.trans (.commit haside.consistent hother hcommit)⟩
          obtain ⟨n, haside⟩ := haside
          rcases Proc.bind_cases hrest with ⟨_, hfailed, -⟩ | ⟨_, last, hwhen, hpure⟩
          · cases hkind : placement.kind == "placed" with
            | false =>
              rw [hkind] at hfailed
              cases hfailed
            | true =>
              rw [hkind] at hfailed
              obtain ⟨m, hlater⟩ := hlaunch haside.consistent hfailed
              exact ⟨n + m, haside.trans hlater⟩
          · obtain ⟨-, rfl⟩ := Prod.mk.inj hpure
            cases hkind : placement.kind == "placed" with
            | false =>
              rw [hkind] at hwhen
              obtain ⟨-, rfl⟩ := Prod.mk.inj hwhen
              exact ⟨n, haside⟩
            | true =>
              rw [hkind] at hwhen
              obtain ⟨m, hlater⟩ := hlaunch haside.consistent hwhen
              exact ⟨n + m, haside.trans hlater⟩

/-- Opening and closing the config store appends nothing. -/
theorem withConfig_state {α : Type} {p : Review.TriggerProc α} {result : Except String α}
    (h : Review.withConfig faults p s = (result, s')) : s' = s ∨ s' = (p s).2 := by
  by_cases hopen : faults.openConfig = none
  · rcases hrun : p s with ⟨e | a, last⟩
    · obtain ⟨e', hwith⟩ := withConfig_error hopen hrun
      obtain ⟨-, rfl⟩ := Prod.mk.inj (hwith.symm.trans h)
      exact .inr rfl
    · rcases withConfig_ok hopen hrun with ⟨hwith, -⟩ | ⟨⟨e, hwith⟩, -⟩ <;>
        obtain ⟨-, rfl⟩ := Prod.mk.inj (hwith.symm.trans h) <;> exact .inr rfl
  · obtain ⟨e, hwith⟩ := withConfig_unopened hopen
    obtain ⟨-, rfl⟩ := Prod.mk.inj (hwith.symm.trans h)
    exact .inl rfl

/-- A call that appends nothing about reviews leaves nothing behind. -/
theorem LeavesNothing.of_aside {db db' : Db} {n : ℕ} (h : Aside n db db')
    {result : Except String ReviewTriggerResult} : LeavesNothing req db result db' where
  slot := by
    rintro ⟨hfree, hheld, -⟩
    rw [h.slots, hfree] at hheld
    cases hheld
  verdict _ _ _ _ _ := by rw [h.review]

end

/-! ## A whole trigger -/

section

variable {deps : ReviewTriggerDeps} {faults : TriggerFaults} {req : ReviewTriggerRequest}
  {s : Reviewing}

/-- A path that opens nothing under the slot leaves nothing behind. -/
theorem followPath_leavesNothing (hdb : Consistent s.db) {path : TriggerPath}
    (hpath : triggerChecks deps req s.db = .ok path) (hfresh : ∀ requested, path ≠ .fresh requested)
    {result : Except String ReviewTriggerResult} {s' : Reviewing}
    (h : Review.followPath deps faults req path s = (result, s')) :
    LeavesNothing req s.db result s'.db := by
  cases path with
  | settled existing =>
    obtain ⟨-, rfl⟩ := Prod.mk.inj h
    exact .same
  | human requested =>
    obtain ⟨hreviewId, htarget, hbranch⟩ := requestFor_of_human hpath
    rcases Proc.bind_cases h with ⟨e, hfailed, -⟩ | ⟨asked, mid, hasked, hpure⟩
    · obtain ⟨db, hrun, rfl⟩ := Proc.on_eq.1 hfailed
      rw [(Mail.requestHumanReview_atomic _ _).unlessFault _ _ _ _ hrun]
      exact .same
    · obtain ⟨db, hrun, rfl⟩ := Proc.on_eq.1 hasked
      obtain ⟨rfl, rfl⟩ := Prod.mk.inj hpure
      obtain ⟨-, hrun⟩ := Proc.unlessFault_eq_ok.1 hrun
      obtain ⟨hdb', record, hrecord, hid⟩ := latest_of_human hdb hrun
      exact .of_ok (selectById_of_latest hrecord (hid.trans hreviewId) hdb')
  | seat existing projectId =>
    have haside : ∃ n, Aside n s.db s'.db := by
      have hstate : s' = s ∨ s' = (Review.recordReviewerPlacement deps faults req req.reviewScope
          projectId none s).2 := by
        rcases Proc.bind_cases h with ⟨e, hfailed, -⟩ | ⟨_, mid, hwith, hpure⟩
        · exact withConfig_state hfailed
        · obtain ⟨-, rfl⟩ := Prod.mk.inj hpure
          exact withConfig_state hwith
      rcases hstate with rfl | rfl
      · exact ⟨0, .refl hdb⟩
      · exact recordReviewerPlacement_aside hdb rfl
    obtain ⟨n, haside⟩ := haside
    exact .of_aside haside
  | fresh requested => exact absurd rfl (hfresh requested)

theorem triggerReview_leavesNothing (hdb : Consistent s.db) :
    LeavesNothing req s.db (triggerReview deps faults req s).1 (triggerReview deps faults req s).2.db ↔
      ¬ Leaks deps faults req s.db := by
  cases hchecks : faults.checks with
  | some e =>
    have hrun : triggerReview deps faults req s = (.error e, s) := by
      rw [triggerReview, hchecks]
      exact Proc.bind_error rfl
    rw [hrun]
    exact iff_of_true .same fun hleaks => nomatch hchecks.symm.trans hleaks.1
  | none =>
    have hread : onStores (unlessFault none snapshot) s = (.ok s.db, s) :=
      Proc.on_eq.2 ⟨s.db, snapshot_eq hdb, rfl⟩
    have hrun : triggerReview deps faults req s =
        ((liftM (triggerChecks deps req s.db) : Review.TriggerProc TriggerPath) >>=
          Review.followPath deps faults req) s := by
      rw [triggerReview, hchecks]
      exact Proc.bind_apply hread
    cases hpath : triggerChecks deps req s.db with
    | error e =>
      have hrun : triggerReview deps faults req s = (.error e, s) := by
        rw [hrun, hpath]
        rfl
      rw [hrun]
      refine iff_of_true .same ?_
      rintro ⟨-, requested, hfresh, -⟩
      cases hpath.symm.trans hfresh
    | ok path =>
      have hrun : triggerReview deps faults req s = Review.followPath deps faults req path s := by
        rw [hrun, hpath]
        rfl
      rw [hrun]
      by_cases hfresh : ∃ requested, path = .fresh requested
      · obtain ⟨requested, rfl⟩ := hfresh
        obtain ⟨hfor, hnew⟩ := new_of_fresh hdb hpath
        obtain ⟨result, s', hopen, hiff⟩ := @openReview_leavesNothing deps faults req requested s hdb
          hfor hnew
        have hopens : Review.followPath deps faults req (.fresh requested) s = (result, s') := hopen
        rw [hopens, hiff, Leaks, hchecks, hpath]
        simp
      · refine iff_of_true (followPath_leavesNothing hdb hpath ?_ rfl) ?_
        · exact fun requested heq => hfresh ⟨requested, heq⟩
        · rintro ⟨-, requested, heq, -⟩
          exact hfresh ⟨requested, Except.ok.inj (hpath.symm.trans heq)⟩

end

/-- A trigger in any project that the stores may reach keeps no slot without a request, and changes
no verdict when it fails, unless it takes the slot, opens nothing and cannot give it back, or opens
the review over a verdict and fails after that. -/
theorem failed_trigger_leaves_nothing_iff (clock : ℕ → ℕ) (before : List StoreCall)
    (deps : ReviewTriggerDeps) (faults : TriggerFaults) (req : ReviewTriggerRequest) :
    let s : Reviewing := { db := storeRun before { clock } }
    LeavesNothing req s.db (triggerReview deps faults req s).1 (triggerReview deps faults req s).2.db ↔
      ¬ Leaks deps faults req s.db := by
  intro s
  have hdb : Consistent s.db := storeRun_consistent (.empty clock)
  exact triggerReview_leavesNothing hdb

/-- A runtime that reads one text as the present, and any other as the next day. -/
def oneDay : Js.Runtime where
  dateParse text := some (if text = "now" then 0 else 86400000)
  localeCompare a b := compare a b
  numberText := toString

/-- A project with an account that is free, and a branch whose review found issues. -/
def reviewedOnce : List StoreCall := [
  .dispatch (.recordUsageObserved (.available {
    provider := .claude
    account := "claude:max"
    windowKind := "weekly"
    usedPct := some 10
    resetAt := "tomorrow"
    source := "cli"
    sampledAt := "now" })),
  .review (.recordReviewRequested {
    reviewId := "r1"
    target := "main"
    branch := "parser"
    requestedBy := "lead" }),
  .review (.recordVerdict {
    reviewId := "r1"
    target := "main"
    branch := "parser"
    verdict := .issues
    blockers := [{ summary := "no tests" }]
    suggestions := []
    reviewer := "reviewer@r1" })]

/-- A project where agents review, on one account. -/
def oneAccount : ReviewTriggerDeps where
  mail := some .inProcess
  dispatch := true
  reviewerSpawnGate := true
  placer := {
    js := oneDay
    config := fun _ => {
      dispatch := {
        enabledProviders := .ok [.claude]
        pins := .ok []
        models := .ok fun _ _ => none
        maxedThresholdPct := .ok 100 }
      profiles := .ok none }
    accounts := [(.claude, "claude:max")]
    nowMs := 0 }
  reviewerKind := fun _ _ => .ok .agent

def reviewAgain : ReviewTriggerRequest where
  reviewId := "r2"
  target := "main"
  branch := "parser"
  requestedBy := "lead"
  projectId := some "p1"

/-- The kickoff meets a locked database. -/
def lockedMail : TriggerFaults where
  kickoff := some "database is locked"

/-- A trigger whose kickoff is not sent fails, and the verdict of the round before is gone. -/
theorem failed_trigger_clears_verdict :
    ¬ ∀ (clock : ℕ → ℕ) (before : List StoreCall) (deps : ReviewTriggerDeps)
      (faults : TriggerFaults) (req : ReviewTriggerRequest),
      let s : Reviewing := { db := storeRun before { clock } }
      LeavesNothing req s.db (triggerReview deps faults req s).1
        (triggerReview deps faults req s).2.db := by
  intro hall
  have hleaves := hall (fun _ => 0) reviewedOnce oneAccount lockedMail reviewAgain
  have hfails : (triggerReview oneAccount lockedMail reviewAgain
      { db := storeRun reviewedOnce .atRest }).1 = .error "database is locked" := by
    decide +kernel
  have hkept := hleaves.verdict _ hfails "main" "parser" none
  exact absurd hkept (by decide +kernel)

/-- A full disk keeps the slot: neither the request nor the give-back is recorded. -/
example : slots (triggerReview oneAccount
    { record := some "disk is full", release := some "disk is full" } reviewAgain
    { db := .atRest }).2.db "main" = some "parser" := by
  decide +kernel

end Orchestration.Replay
