import Orchestration.Library.Mutex
import Orchestration.Replay.Recovery

/-!
# Mutual exclusion of the merge slot

Every store of a project appends to the log that the slots are folded from. Each
call that guards the slot checks it in the transaction that toggles it, so the
folded log goes through the states of a mutex for each target.
-/

namespace Orchestration.Replay

open Fallible Transaction
open Orchestration.Review (MergeSerialized MergeSlotResult ReviewRequested ReviewVerdictRecorded
  ReviewRequestRecord Carries acquireSerialized releaseSerialized recordVerdictAndRelease
  activeSerializedFromEvents slotBranch? slotEntries reviewScope)
open Orchestration.Mail (MailEnvelope DeliveredMail ReplyDraft TakesSlot ReleasesSlot)

/-- Who holds the slot of each target. -/
def slots (db : Db) : Mutex.Holders String String := activeSerializedFromEvents db

theorem slots_eq (db : Db) (target : String) :
    slots db target = Mutex.holder (slotEntries target db.events) := rfl

/-! ## One event -/

theorem slotEntries_of_commit {db db' : Db} {event : NewEvent Payload}
    (h : db.commit event = .ok db') (target : String) :
    slotEntries target db'.events =
      slotEntries target db.events ++ (slotBranch? target (db.stored event)).toList := by
  rw [(folded_of_commit h).2, slotEntries, List.filterMap_append]
  cases hbranch : slotBranch? target (db.stored event) <;> simp [hbranch, slotEntries]

/-- An event that is no toggle leaves every log of toggles alone. -/
theorem slotEntries_of_other {db db' : Db} {event : NewEvent Payload}
    (hother : ∀ m, event.payload ≠ .review (.serialized m)) (h : db.commit event = .ok db')
    (target : String) : slotEntries target db'.events = slotEntries target db.events := by
  have hnone : slotBranch? target (db.stored event) = none := by
    unfold slotBranch?
    split
    · next m hpayload => exact absurd hpayload (hother m)
    · rfl
  rw [slotEntries_of_commit h target, hnone, Option.toList_none, List.append_nil]

/-- A toggle is an entry of its own target's log only. -/
theorem slotEntries_of_toggle {db db' : Db} {event : NewEvent Payload} {m : MergeSerialized}
    (hevent : Carries event (.serialized m)) (h : db.commit event = .ok db') (target : String) :
    slotEntries target db'.events =
      if target = m.target then slotEntries target db.events ++ [m.branch]
      else slotEntries target db.events := by
  have hscope : (db.stored event).scope = reviewScope m.target := hevent.scope_eq
  have hpayload : (db.stored event).payload = .review (.serialized m) := hevent.payload_eq
  rw [slotEntries_of_commit h target, slotBranch?, hpayload]
  simp only [hscope, Review.reviewScope_inj]
  by_cases htarget : target = m.target
  · simp [htarget]
  · simp [htarget, Ne.symm htarget]

/-- What the stores append while they guard the slots: a toggle only of a slot that may be taken
for the pair `acquires` or given back for the pair `releases`. -/
inductive SlotEvents (acquires releases : Option MergeSerialized) (db : Db) :
    NewEvent Payload → Prop where
  | other {event : NewEvent Payload} (hother : ∀ m, event.payload ≠ .review (.serialized m)) :
      SlotEvents acquires releases db event
  | acquire {event : NewEvent Payload} {m : MergeSerialized} (hm : acquires = some m)
      (hevent : Carries event (.serialized m)) (hfree : slots db m.target = none) :
      SlotEvents acquires releases db event
  | release {event : NewEvent Payload} {m : MergeSerialized} (hm : releases = some m)
      (hevent : Carries event (.serialized m)) (hheld : slots db m.target = some m.branch) :
      SlotEvents acquires releases db event

section

variable {db db' : Db} {event : NewEvent Payload} {m : MergeSerialized}

theorem slots_of_other (hother : ∀ m, event.payload ≠ .review (.serialized m))
    (h : db.commit event = .ok db') : slots db' = slots db := by
  funext target
  rw [slots_eq, slots_eq, slotEntries_of_other hother h]

theorem slots_of_toggle (hevent : Carries event (.serialized m)) (h : db.commit event = .ok db') :
    slots db' = Function.update (slots db) m.target
      (Mutex.toggle (slots db m.target) m.branch) := by
  funext target
  rw [slots_eq, slotEntries_of_toggle hevent h]
  by_cases htarget : target = m.target
  · subst htarget
    rw [if_pos rfl, Mutex.holder_concat, Function.update_self, slots_eq]
  · rw [if_neg htarget, Function.update_of_ne htarget, slots_eq]

/-- The logs of all targets are disciplined. -/
def Guarded (db : Db) : Prop := ∀ target, Mutex.Disciplined (slotEntries target db.events)

theorem guarded_of_toggle (hguarded : Guarded db) (hevent : Carries event (.serialized m))
    (hslot : slots db m.target = none ∨ slots db m.target = some m.branch)
    (h : db.commit event = .ok db') : Guarded db' := by
  intro target
  rw [slotEntries_of_toggle hevent h]
  by_cases htarget : target = m.target
  · subst htarget
    rw [if_pos rfl]
    exact .concat (hguarded _) hslot
  · rw [if_neg htarget]
    exact hguarded target

end

/-! ## One call -/

/-- The pair that a call takes the slot for, if it takes any. -/
def StoreCall.acquires : StoreCall → Option MergeSerialized
  | review (.acquireSerialized m) => some m
  | mail _ (.requestHumanReview _ request) => some ⟨request.target, request.branch⟩
  | _ => none

/-- The pair that a call gives the slot back for, if it gives any back. -/
def StoreCall.releases : StoreCall → Option MergeSerialized
  | review (.releaseSerialized m) => some m
  | review (.recordVerdictAndRelease v) => some ⟨v.target, v.branch⟩
  | mail _ (.replyWithReviewVerdict _ _ v) => some ⟨v.target, v.branch⟩
  | _ => none

/-- Every call but the bare toggle, which asks nobody. -/
def StoreCall.guarded : StoreCall → Bool
  | review (.recordSerialized _) => false
  | _ => true

section

variable {acquires releases : Option MergeSerialized} {db db' : Db}

theorem emits_of_others {events : List (NewEvent Payload)}
    (hother : ∀ event ∈ events, ∀ m, event.payload ≠ .review (.serialized m))
    (h : db.commitAll events = .ok db') : Emits (SlotEvents acquires releases) db db' :=
  Emits.of_commitAll (fun event hevent _ => .other (hother event hevent)) h

theorem emits_of_takesSlot {m : MergeSerialized} {slot : List (NewEvent Payload)}
    (hslot : TakesSlot db m.target m.branch slot) (h : db.commitAll slot = .ok db') :
    Emits (SlotEvents (some m) releases) db db' := by
  cases hslot with
  | held => exact emits_of_others (by simp) h
  | free hfree hevent =>
    obtain ⟨mid, hcommit, hnil⟩ := Db.commitAll_cons.1 h
    obtain rfl := Except.ok.inj hnil
    exact Emits.single (.acquire rfl hevent hfree) hcommit

theorem emits_of_releasesSlot {v : ReviewVerdictRecorded} {release : List (NewEvent Payload)}
    (hrelease : ReleasesSlot db v release) (h : db.commitAll release = .ok db') :
    Emits (SlotEvents acquires (some ⟨v.target, v.branch⟩)) db db' := by
  cases hrelease with
  | free | pass => exact emits_of_others (by simp) h
  | issues _ hheld hevent =>
    obtain ⟨mid, hcommit, hnil⟩ := Db.commitAll_cons.1 h
    obtain rfl := Except.ok.inj hnil
    exact Emits.single (.release rfl hevent hheld) hcommit

end

theorem carries_not_toggle {event : NewEvent Payload} {payload : Review.ReviewEvent}
    (hevent : Carries event payload) (hpayload : ∀ m, payload ≠ .serialized m) :
    ∀ m, event.payload ≠ .review (.serialized m) := by
  intro m h
  rw [hevent.payload_eq] at h
  exact hpayload m (Payload.review.inj h)

theorem mail_not_toggle {event : NewEvent Mail.MailEvent} :
    ∀ m, (Mail.toProject event).payload ≠ .review (.serialized m) := fun _ h => nomatch h

theorem ReleasesSlot.congr {db db' : Db} {v : ReviewVerdictRecorded}
    {release : List (NewEvent Payload)} (h : ReleasesSlot db v release)
    (hslots : slots db' = slots db) : ReleasesSlot db' v release := by
  have hslot : activeSerializedFromEvents db' v.target = activeSerializedFromEvents db v.target :=
    congrFun hslots v.target
  cases h with
  | issues hissues hheld hevent => exact .issues hissues (hslot.trans hheld) hevent
  | free hissues hfree => exact .free hissues (hslot.trans hfree)
  | pass hpass => exact .pass hpass

section

variable {db : Db} (hdb : Consistent db)
include hdb

theorem requestHumanReview_slotEvents (delivery : Mail.Delivery) (envelope : MailEnvelope)
    (request : ReviewRequested) :
    Emits (SlotEvents (some ⟨request.target, request.branch⟩) none) db
      (Mail.MailCall.exec delivery (.requestHumanReview envelope request) db) := by
  refine (Mail.requestHumanReview_atomic envelope request).exec .refl fun result db' h => ?_
  obtain ⟨-, -, -, -, slot, hslot, ⟨-, hcommit⟩ |
    ⟨-, requested, mail, hrequested, -, hcommit⟩⟩ := Mail.requestHumanReview_spec hdb h
  · exact emits_of_takesSlot hslot hcommit
  · obtain ⟨mid, hmid, hrest⟩ := Db.commitAll_append.1 hcommit
    refine (emits_of_takesSlot hslot hmid).trans (emits_of_others ?_ hrest)
    intro event hevent
    rcases List.mem_cons.1 hevent with rfl | hevent
    · exact carries_not_toggle hrequested (by simp)
    · rw [List.mem_singleton.1 hevent]
      exact mail_not_toggle

theorem replyWithReviewVerdict_slotEvents (delivery : Mail.Delivery) (toMail : DeliveredMail)
    (draft : ReplyDraft) (v : ReviewVerdictRecorded) :
    Emits (SlotEvents none (some ⟨v.target, v.branch⟩)) db
      (Mail.MailCall.exec delivery (.replyWithReviewVerdict toMail draft v) db) := by
  refine (Mail.replyWithReviewVerdict_atomic toMail draft v).exec .refl fun delivered db' h => ?_
  obtain ⟨current, envelope, -, -, -, -, ⟨-, -, rfl⟩ |
    ⟨-, -, -, scope, verdict, release, mail, hverdict, hrelease, -, hcommit⟩⟩ :=
      Mail.replyWithReviewVerdict_spec hdb h
  · exact .refl
  · -- the verdict is in the log before the slot is given back, and leaves the slots alone
    have hother := carries_not_toggle hverdict (by simp)
    obtain ⟨mid, hmid, hrest⟩ := Db.commitAll_cons.1 hcommit
    obtain ⟨last, hlast, hmail⟩ := Db.commitAll_append.1 hrest
    have hrelease' := ReleasesSlot.congr hrelease (slots_of_other hother hmid)
    refine .head ⟨verdict, .other hother, hmid⟩ ?_
    refine (emits_of_releasesSlot hrelease' hlast).trans (emits_of_others ?_ hmail)
    intro event hevent
    rw [List.mem_singleton.1 hevent]
    exact mail_not_toggle

theorem reviewCall_slotEvents (call : Review.ReviewCall)
    (hguarded : (StoreCall.review call).guarded = true) :
    Emits (SlotEvents (StoreCall.review call).acquires (StoreCall.review call).releases) db
      (call.exec db) := by
  have hone : ∀ {acquires releases : Option MergeSerialized} {db' : Db} {payload},
      (∀ m, payload ≠ .serialized m) →
      (db = db' ∨ ∃ event, Carries event payload ∧ db.commit event = .ok db') →
      Emits (SlotEvents acquires releases) db db' := by
    rintro acquires releases db' payload hpayload (rfl | ⟨event, hevent, hcommit⟩)
    · exact .refl
    · exact Emits.single (.other (carries_not_toggle hevent hpayload)) hcommit
  cases call with
  | recordVerdict v =>
    refine Proc.exec_transaction .refl fun row db' h => ?_
    obtain ⟨scope, hevent⟩ := Review.recordVerdict_spec hdb h
    exact hone (by simp) (.inr hevent)
  | recordReviewRequested r =>
    exact Proc.exec_transaction .refl fun _ _ h =>
      hone (by simp) (Review.recordReviewRequested_spec hdb h)
  | recordStrike strike =>
    exact Proc.exec_transaction .refl fun _ _ h => hone (by simp) (Review.recordStrike_spec hdb h)
  | recordSerialized m => cases hguarded
  | acquireSerialized m =>
    refine Proc.exec_transaction .refl fun result db' h => ?_
    rcases Review.acquireSerialized_spec hdb h with ⟨hfree, -, event, hevent, hcommit⟩ | ⟨rfl, -⟩
    · exact Emits.single (.acquire rfl hevent hfree) hcommit
    · exact .refl
  | releaseSerialized m =>
    refine Proc.exec_transaction .refl fun result db' h => ?_
    rcases Review.releaseSerialized_spec hdb h with ⟨-, rfl⟩ | ⟨hheld, event, hevent, hcommit⟩
    · exact .refl
    · exact Emits.single (.release rfl hevent hheld) hcommit
  | recordVerdictAndRelease v =>
    refine Proc.exec_transaction .refl fun result db' h => ?_
    obtain ⟨scope, event, hevent, hrelease⟩ := Review.recordVerdictAndRelease_spec hdb h
    have hother := carries_not_toggle hevent (by simp)
    rcases hrelease with ⟨-, hcommit⟩ | ⟨hheld, release, hrelease, hcommit⟩
    · refine emits_of_others (fun e he => ?_) hcommit
      exact List.mem_singleton.1 he ▸ hother
    · obtain ⟨mid, hmid, hlast⟩ := Db.commitAll_cons.1 hcommit
      obtain ⟨last, hcommit', hnil⟩ := Db.commitAll_cons.1 hlast
      obtain rfl := Except.ok.inj hnil
      have hheld' : slots mid v.target = some v.branch := by
        rw [slots_of_other hother hmid]
        exact hheld
      exact .head ⟨event, .other hother, hmid⟩ (Emits.single (.release rfl hrelease hheld') hcommit')
  | recordOverride o =>
    exact Proc.exec_transaction .refl fun _ _ h =>
      hone (by simp) (.inr (Review.recordOverride_spec hdb h))
  | read =>
    refine Proc.exec_transaction .refl fun result db' h => ?_
    rw [← bind_pure Review.ensureReviewTables, Review.ensureReviewTables_bind hdb, Tx.pure_eq_ok] at h
    exact h.2 ▸ .refl

/-- A call that guards the slots toggles at most the slot of the pair it names. -/
theorem StoreCall.exec_slotEvents {call : StoreCall} (hguarded : call.guarded = true) :
    Emits (SlotEvents call.acquires call.releases) db (call.exec db) := by
  have hforeign : ∀ {P : EventClass} {db' : Db},
      (∀ s event, P s event → ∀ m, event.payload ≠ .review (.serialized m)) → Emits P db db' →
      Emits (SlotEvents call.acquires call.releases) db db' :=
    fun hP h => h.mono fun s event hevent => .other (hP s event hevent)
  cases call with
  | review call => exact reviewCall_slotEvents hdb call hguarded
  | worktree call =>
    refine hforeign ?_ call.exec_emits
    rintro s event (⟨payload, hpayload⟩ | ⟨type, payload, hpayload⟩) <;> simp [hpayload]
  | dispatch call =>
    refine hforeign ?_ (call.exec_emits hdb)
    rintro s event (⟨payload, hpayload⟩ | ⟨request, hrequested⟩)
    · simp [hpayload]
    · exact carries_not_toggle hrequested (by simp)
  | plan call | roster call | session call | archive call =>
    refine hforeign ?_ call.exec_emits
    rintro s event ⟨payload, hpayload⟩
    simp [hpayload]
  | mail delivery call =>
    cases hreviews : call.reviews with
    | false =>
      refine hforeign ?_ (Mail.MailCall.exec_mails hdb hreviews)
      rintro s event ⟨payload, hpayload⟩
      simp [hpayload]
    | true =>
      cases call with
      | requestHumanReview envelope request =>
        exact requestHumanReview_slotEvents hdb delivery envelope request
      | replyWithReviewVerdict toMail draft v =>
        exact replyWithReviewVerdict_slotEvents hdb delivery toMail draft v
      | _ => cases hreviews

end

/-- How a call may change who holds the slots: not at all, or by taking the free slot of its own
pair, or by giving back the slot that its own branch holds. -/
inductive SlotStep (call : StoreCall) (before : Mutex.Holders String String) :
    Mutex.Holders String String → Prop where
  | idle : SlotStep call before before
  | acquire {m : MergeSerialized} (hm : call.acquires = some m) (hfree : before m.target = none) :
      SlotStep call before (Function.update before m.target (some m.branch))
  | release {m : MergeSerialized} (hm : call.releases = some m)
      (hheld : before m.target = some m.branch) :
      SlotStep call before (Function.update before m.target none)

/-- The steps of a call are steps of the mutex. -/
theorem SlotStep.reaches {call : StoreCall} {before after : Mutex.Holders String String}
    (h : SlotStep call before after) : Mutex.Reaches before after := by
  cases h with
  | idle => exact .refl
  | acquire _ hfree => exact .single (.acquire hfree)
  | release _ hheld => exact .single (.release hheld)

/-- A slot that a call took from a branch was given back for that branch. -/
theorem SlotStep.releases_of_lost {call : StoreCall} {before after : Mutex.Holders String String}
    (h : SlotStep call before after) {target branch : String} (hheld : before target = some branch)
    (hlost : after target ≠ some branch) : call.releases = some ⟨target, branch⟩ := by
  cases h with
  | idle => exact absurd hheld hlost
  | @acquire m hm hfree =>
    by_cases htarget : target = m.target
    · subst htarget
      rw [hfree] at hheld
      cases hheld
    · rw [Function.update_of_ne htarget] at hlost
      exact absurd hheld hlost
  | @release m hm hheld' =>
    by_cases htarget : target = m.target
    · subst htarget
      obtain rfl := Option.some.inj (hheld'.symm.trans hheld)
      exact hm
    · rw [Function.update_of_ne htarget] at hlost
      exact absurd hheld hlost

theorem slots_of_acquire {db db' : Db} {event : NewEvent Payload} {m : MergeSerialized}
    (hevent : Carries event (.serialized m)) (hfree : slots db m.target = none)
    (h : db.commit event = .ok db') :
    slots db' = Function.update (slots db) m.target (some m.branch) := by
  rw [slots_of_toggle hevent h, hfree]
  rfl

theorem slots_of_release {db db' : Db} {event : NewEvent Payload} {m : MergeSerialized}
    (hevent : Carries event (.serialized m)) (hheld : slots db m.target = some m.branch)
    (h : db.commit event = .ok db') : slots db' = Function.update (slots db) m.target none := by
  rw [slots_of_toggle hevent h, hheld, Mutex.toggle, if_pos rfl]

/-- No call both takes and gives back. -/
theorem StoreCall.acquires_or_releases (call : StoreCall) :
    call.acquires = none ∨ call.releases = none := by
  cases call with
  | mail delivery call => cases call <;> simp [acquires, releases]
  | review call => cases call <;> simp [acquires, releases]
  | _ => exact .inl rfl

theorem StoreCall.exec_slotStep {db : Db} (hdb : Consistent db) {call : StoreCall}
    (hguarded : call.guarded = true) : SlotStep call (slots db) (slots (call.exec db)) := by
  have honce := call.acquires_or_releases
  refine (exec_slotEvents hdb hguarded).preserves (fun s => SlotStep call (slots db) (slots s))
    (fun event s s' hevent hs hcommit => ?_) .idle
  cases hevent with
  | other hother =>
    rw [slots_of_other hother hcommit]
    exact hs
  | @acquire m hm hevent hfree =>
    rw [slots_of_acquire hevent hfree hcommit]
    generalize slots s = mid at hs hfree
    cases hs with
    | idle => exact .acquire hm hfree
    | acquire hm' =>
      obtain rfl := Option.some.inj (hm.symm.trans hm')
      simp at hfree
    | release hm' => simp [hm, hm'] at honce
  | @release m hm hevent hheld =>
    rw [slots_of_release hevent hheld hcommit]
    generalize slots s = mid at hs hheld
    cases hs with
    | idle => exact .release hm hheld
    | acquire hm' => simp [hm, hm'] at honce
    | release hm' =>
      obtain rfl := Option.some.inj (hm.symm.trans hm')
      simp at hheld

theorem StoreCall.exec_guarded {db : Db} (hdb : Consistent db) {call : StoreCall}
    (hguarded : call.guarded = true) (h : Guarded db) : Guarded (call.exec db) := by
  refine (exec_slotEvents hdb hguarded).preserves Guarded (fun event s s' hevent hs hcommit => ?_) h
  cases hevent with
  | other hother =>
    intro target
    rw [slotEntries_of_other hother hcommit]
    exact hs target
  | acquire _ hevent hfree => exact guarded_of_toggle hs hevent (.inl hfree) hcommit
  | release _ hevent hheld => exact guarded_of_toggle hs hevent (.inr hheld) hcommit

/-! ## Every run -/

/-- What mutual exclusion says of one state of the log. -/
structure SlotMutex (db : Db) : Prop where
  /-- The holder is the branch whose toggles do not pair up. -/
  holder_iff : ∀ target branch, slots db target = some branch ↔
    (slotEntries target db.events).count branch % 2 = 1
  /-- There is at most one. -/
  unique : ∀ target a b, (slotEntries target db.events).count a % 2 = 1 →
    (slotEntries target db.events).count b % 2 = 1 → a = b
  /-- Every guarded call toggles at most the slot of its own pair, as the mutex allows. -/
  step : ∀ call : StoreCall, call.guarded = true → SlotStep call (slots db) (slots (call.exec db))
  /-- Only a call for the holder frees a slot. -/
  release : ∀ call : StoreCall, call.guarded = true → ∀ target branch,
    slots db target = some branch → slots (call.exec db) target ≠ some branch →
    call.releases = some ⟨target, branch⟩
  /-- An acquire succeeds exactly on a slot that is free or its branch's, and changes nothing when
  it does not. -/
  acquireSerialized : ∀ m result db', transaction (acquireSerialized m) db = (.ok result, db') →
    (result.acquired = true ↔ slots db m.target = none ∨ slots db m.target = some m.branch) ∧
    (result.acquired = true → slots db' m.target = some m.branch) ∧
    (result.acquired = false → db' = db)
  /-- So does a human-review request. -/
  requestHumanReview : ∀ envelope request result db',
    Mail.MailStore.requestHumanReview envelope request db = (.ok result, db') →
    (slots db request.target = none ∨ slots db request.target = some request.branch) ∧
    slots db' request.target = some request.branch
  /-- A release for a branch that is not the holder is refused. -/
  releaseSerialized : ∀ m other, slots db m.target = some other → other ≠ m.branch →
    ∃ e, transaction (releaseSerialized m) db = (.error e, db)
  /-- So is a verdict with its release. -/
  recordVerdictAndRelease : ∀ v other, slots db v.target = some other → other ≠ v.branch →
    ∃ e, transaction (recordVerdictAndRelease v) db = (.error e, db)

/-- A transaction that cannot succeed is refused. -/
theorem refused_of_not_ok {α : Type} {body : StoreTx α} {db : Db}
    (h : ∀ a db', body db ≠ .ok (a, db')) : ∃ e, transaction body db = (.error e, db) := by
  rcases hrun : transaction body db with ⟨e | a, db'⟩
  · obtain rfl := transaction_error hrun
    exact ⟨e, rfl⟩
  · exact absurd (transaction_eq_ok.1 hrun) (h a db')

theorem acquireSerialized_slots {db db' : Db} (hdb : Consistent db) {m : MergeSerialized}
    {result : MergeSlotResult} (h : acquireSerialized m db = .ok (result, db')) :
    (result.acquired = true ↔ slots db m.target = none ∨ slots db m.target = some m.branch) ∧
    (result.acquired = true → slots db' m.target = some m.branch) ∧
    (result.acquired = false → db' = db) := by
  rcases Review.acquireSerialized_spec hdb h with
    ⟨hfree, rfl, event, hevent, hcommit⟩ | ⟨rfl, active, hheld, rfl⟩
  · have hslot : slots db m.target = none := hfree
    have hslot' : slots db' m.target = some m.branch := by
      rw [slots_of_acquire hevent hfree hcommit, Function.update_self]
    simp [hslot, hslot']
  · have hslot : slots db m.target = some active := hheld
    simp [hslot]

theorem requestHumanReview_slots {db db' : Db} (hdb : Consistent db) {envelope : MailEnvelope}
    {request : ReviewRequested} {result : DeliveredMail × ReviewRequestRecord}
    (h : Mail.MailStore.requestHumanReview envelope request db = (.ok result, db')) :
    (slots db request.target = none ∨ slots db request.target = some request.branch) ∧
    slots db' request.target = some request.branch := by
  obtain ⟨-, -, -, -, slot, hslot, hcommits⟩ := Mail.requestHumanReview_spec hdb h
  -- the slot is the branch's as soon as the slot event, if any, is in the log
  have htaken : ∀ {mid : Db}, db.commitAll slot = .ok mid →
      slots mid request.target = some request.branch := by
    intro mid hmid
    cases hslot with
    | held hheld =>
      obtain rfl := Except.ok.inj hmid
      exact hheld
    | free hfree hevent =>
      obtain ⟨last, hcommit, hnil⟩ := Db.commitAll_cons.1 hmid
      obtain rfl := Except.ok.inj hnil
      rw [slots_of_acquire hevent hfree hcommit, Function.update_self]
  constructor
  · cases hslot with
    | held hheld => exact .inr hheld
    | free hfree => exact .inl hfree
  · rcases hcommits with ⟨-, hcommit⟩ | ⟨-, requested, mail, hrequested, -, hcommit⟩
    · exact htaken hcommit
    · obtain ⟨mid, hmid, hrest⟩ := Db.commitAll_append.1 hcommit
      obtain ⟨mid', hmid', hlast⟩ := Db.commitAll_cons.1 hrest
      obtain ⟨last, hlast', hnil⟩ := Db.commitAll_cons.1 hlast
      obtain rfl := Except.ok.inj hnil
      rw [slots_of_other mail_not_toggle hlast',
        slots_of_other (carries_not_toggle hrequested (by simp)) hmid']
      exact htaken hmid

theorem slotMutex {db : Db} (hdb : Consistent db) (hguarded : Guarded db) : SlotMutex db where
  holder_iff target branch := (hguarded target).holder_eq_some branch
  unique target _ _ := (hguarded target).unique
  step _ hcall := StoreCall.exec_slotStep hdb hcall
  release _ hcall _ _ := (StoreCall.exec_slotStep hdb hcall).releases_of_lost
  acquireSerialized _ _ _ h := acquireSerialized_slots hdb (transaction_eq_ok.1 h)
  requestHumanReview _ _ _ _ := requestHumanReview_slots hdb
  releaseSerialized m other hheld hother := by
    refine refused_of_not_ok fun u db' h => ?_
    have hslot : activeSerializedFromEvents db m.target = some other := hheld
    rcases Review.releaseSerialized_spec hdb h with ⟨hfree, -⟩ | ⟨hheld', -⟩
    · simp [hslot] at hfree
    · exact hother (Option.some.inj (hslot.symm.trans hheld'))
  recordVerdictAndRelease v other hheld hother := by
    refine refused_of_not_ok fun u db' h => ?_
    have hslot : activeSerializedFromEvents db v.target = some other := hheld
    obtain ⟨-, -, -, ⟨hfree, -⟩ | ⟨hheld', -⟩⟩ := Review.recordVerdictAndRelease_spec hdb h
    · simp [hslot] at hfree
    · exact hother (Option.some.inj (hslot.symm.trans hheld'))

/-- In every run of guarded calls by any number of callers the slots go through the states of a
mutex, one for each target. -/
theorem merge_slot_mutex (clock : ℕ → ℕ) {calls : List StoreCall}
    (hcalls : ∀ call ∈ calls, call.guarded = true) :
    Mutex.Reaches Mutex.free (slots (storeRun calls { clock })) ∧
      SlotMutex (storeRun calls { clock }) := by
  have hinv : Consistent (storeRun calls { clock }) ∧ Guarded (storeRun calls { clock }) ∧
      Mutex.Reaches Mutex.free (slots (storeRun calls { clock })) := by
    refine Run.invariant (fun db => Consistent db ∧ Guarded db ∧ Mutex.Reaches Mutex.free (slots db))
      ?_ (Run.guarded_of_forall hcalls) ⟨.empty clock, fun _ => .nil, .refl⟩
    rintro call db hcall ⟨hdb, hguarded, hreaches⟩
    exact ⟨StoreCall.exec_consistent hdb call, StoreCall.exec_guarded hdb hcall hguarded,
      hreaches.trans (StoreCall.exec_slotStep hdb hcall).reaches⟩
  exact ⟨hinv.2.2, slotMutex hinv.1 hinv.2.1⟩

/-- Two branches that want the slot of one target: the second waits, its release is refused, and
the first gives the slot back. -/
def twoBranches : List StoreCall :=
  [.review (.acquireSerialized ⟨"main", "parser"⟩), .review (.acquireSerialized ⟨"main", "lexer"⟩),
    .review (.releaseSerialized ⟨"main", "lexer"⟩), .review (.releaseSerialized ⟨"main", "parser"⟩)]

theorem merge_slot_mutex_of_twoBranches :
    SlotMutex (storeRun twoBranches { clock := fun _ => 0 }) :=
  (merge_slot_mutex (fun _ => 0) (by decide)).2

end Orchestration.Replay
