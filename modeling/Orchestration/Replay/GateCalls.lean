import Orchestration.Replay.SlotTransactions
import Orchestration.Review.Gate

/-!
# Calls of the publish gate

What the parts of a gate call do to the project: the checks write nothing, the slot is
taken from nobody, an override is one event, and the give-back frees the slot unless its
event cannot be appended.
-/

namespace Orchestration.Replay

open Fallible Transaction
open Transaction.Proc (onError unlessFault)
open Orchestration.Review (Carries GateFaults GateOutcome GateProc GateRequest MergeSlotResult
  Publishing ReviewOverride acquireMergeSlot releaseMergeSlot releaseOwnSlot
  recordSuccessfulOverride readTables stores enact)

/-! ## Procedures of the stores -/

section

variable {α : Type} {p : StoreProc α} {s s' : Publishing}

theorem stores_eq {result : Except String α} :
    stores p s = (result, s') ↔ ∃ db, p s.db = (result, db) ∧ s' = { s with db } :=
  Proc.on_eq

theorem stores_atomic (h : Proc.Atomic p) : Proc.Atomic (stores p) := by
  intro s e s' hrun
  obtain ⟨db, hp, rfl⟩ := stores_eq.1 hrun
  obtain rfl := h s.db e db hp
  rfl

end

theorem readTables_eq {db : Db} (hdb : Consistent db) :
    readTables db = (.ok ⟨db.review, db.worktrees⟩, db) := by
  have hreview : (transaction (Review.reading id) : StoreProc Review.ReviewTables) db =
      (.ok db.review, db) := by
    rw [transaction_eq_ok, ← bind_pure (Review.reading id), Review.reading_bind hdb]
    rfl
  have hworktrees : (transaction (Worktrees.reading id) : StoreProc Worktrees.WorktreeTables) db =
      (.ok db.worktrees, db) := by
    rw [transaction_eq_ok, ← bind_pure (Worktrees.reading id), Worktrees.reading_bind]
    rfl
  refine Proc.bind_eq_ok.2 ⟨_, db, hreview, ?_⟩
  exact Proc.bind_eq_ok.2 ⟨_, db, hworktrees, rfl⟩

/-! ## Taking the slot -/

section

variable {faults : GateFaults} {req : GateRequest} {s s' : Publishing}

/-- What taking the slot does. -/
inductive Acquired (req : GateRequest) (s : Publishing) : MergeSlotResult → Publishing → Prop where
  /-- The slot was free, and is the branch's now. -/
  | fresh {db : Db} {event : NewEvent Payload} (hfree : slots s.db req.into = none)
      (hevent : Carries event (.serialized req.slot)) (hcommit : s.db.commit event = .ok db) :
      Acquired req s ⟨true, false, req.branch, true⟩ { s with db }
  /-- The slot was held, by the branch or by another. -/
  | held {active : String} (hheld : slots s.db req.into = some active) :
      Acquired req s ⟨active = req.branch, active ≠ req.branch, active, false⟩ s

theorem acquireMergeSlot_eq_ok (hdb : Consistent s.db) {slot : MergeSlotResult}
    (h : acquireMergeSlot faults req s = (.ok slot, s')) : Acquired req s slot s' := by
  obtain ⟨db, hacquire, rfl⟩ := stores_eq.1 h
  cases (slotTaken hdb hacquire).2 with
  | fresh hfree hevent hcommit => exact .fresh hfree hevent hcommit
  | held hheld => exact .held hheld

theorem acquireMergeSlot_atomic : Proc.Atomic (acquireMergeSlot faults req) :=
  stores_atomic ((Proc.atomic_transaction _).unlessFault _)

/-- The call takes the slot of its target, which is free. -/
structure Takes (faults : GateFaults) (req : GateRequest) (db : Db) : Prop where
  free : slots db req.into = none
  target : req.into ≠ ""
  branch : req.branch ≠ ""
  fault : faults.acquire = none
  room : RoomFor 1 db

instance (faults : GateFaults) (req : GateRequest) (db : Db) : Decidable (Takes faults req db) :=
  decidable_of_iff (slots db req.into = none ∧ req.into ≠ "" ∧ req.branch ≠ "" ∧
    faults.acquire = none ∧ RoomFor 1 db)
    ⟨fun ⟨hfree, htarget, hbranch, hfault, hroom⟩ => ⟨hfree, htarget, hbranch, hfault, hroom⟩,
      fun ⟨hfree, htarget, hbranch, hfault, hroom⟩ => ⟨hfree, htarget, hbranch, hfault, hroom⟩⟩

theorem takes_of_fresh (hdb : Consistent s.db) {slot : MergeSlotResult}
    (h : acquireMergeSlot faults req s = (.ok slot, s')) (hfree : slots s.db req.into = none) :
    Takes faults req s.db := by
  obtain ⟨db, hacquire, rfl⟩ := stores_eq.1 h
  obtain ⟨hfault, htaken⟩ := slotTaken hdb hacquire
  cases htaken with
  | fresh _ hevent hcommit =>
    have hnamed := named_of_toggle hevent hcommit
    exact ⟨hfree, hnamed.1, hnamed.2, hfault, (room_of_commit hcommit).1⟩
  | held hheld =>
    exact absurd (hfree.symm.trans hheld) (by simp)

theorem Takes.acquired (h : Takes faults req s.db) (hdb : Consistent s.db) :
    ∃ db event, acquireMergeSlot faults req s =
        (.ok ⟨true, false, req.branch, true⟩, { s with db }) ∧
      Carries event (.serialized req.slot) ∧ s.db.commit event = .ok db := by
  obtain ⟨db, event, hrun, hevent, hcommit⟩ :=
    @acquire_free faults.acquire req.slot _ hdb h.free h.target h.branch h.fault h.room
  exact ⟨db, event, stores_eq.2 ⟨db, hrun, rfl⟩, hevent, hcommit⟩

end

/-! ## Giving it back -/

section

variable {faults : GateFaults} {req : GateRequest} {s s' : Publishing}

theorem releaseMergeSlot_atomic : Proc.Atomic (releaseMergeSlot faults req) :=
  stores_atomic ((Proc.atomic_transaction _).unlessFault _)

/-- Giving the held slot back works unless its event cannot be appended. -/
theorem releaseMergeSlot_held (hdb : Consistent s.db) (htarget : req.into ≠ "")
    (hbranch : req.branch ≠ "") (hheld : slots s.db req.into = some req.branch) :
    (∃ db, releaseMergeSlot faults req s = (.ok (), { s with db }) ∧ slots db req.into = none ∧
        faults.release = none ∧ RoomFor 1 s.db) ∨
      (∃ e, releaseMergeSlot faults req s = (.error e, s)) ∧
        ¬ (faults.release = none ∧ RoomFor 1 s.db) := by
  rcases @release_held faults.release req.slot _ hdb htarget hbranch hheld with
    ⟨db, hrun, -, hfree, hcan⟩ | ⟨⟨e, hrun⟩, hcannot⟩
  · exact .inl ⟨db, stores_eq.2 ⟨db, hrun, rfl⟩, hfree, hcan⟩
  · exact .inr ⟨⟨e, stores_eq.2 ⟨s.db, hrun, rfl⟩⟩, hcannot⟩

theorem releaseOwnSlot_eq : releaseOwnSlot faults req s =
    if slots s.db req.into = some req.branch then releaseMergeSlot faults req s else (.ok (), s) := by
  have hread : stores (transaction (Review.readingSlot req.into)) s =
      (.ok (slots s.db req.into), s) := rfl
  rw [releaseOwnSlot, Proc.bind_apply hread]
  by_cases hheld : slots s.db req.into = some req.branch
  · simp [hheld]
  · simp [hheld]

end

/-! ## The guarded work -/

section

variable {faults : GateFaults} {req : GateRequest} {gate : GateOutcome} {s s' : Publishing}

/-- An override event is no toggle. -/
theorem recordOverride_commits {o : ReviewOverride} {db db' : Db} (hdb : Consistent db) {u : Unit}
    (h : Review.recordOverride o db = .ok (u, db')) :
    ∃ event, Carries event (.override o) ∧ db.commit event = .ok db' :=
  Review.recordOverride_spec hdb h

/-- An override with a reason and an author is recorded while there is room. -/
theorem commit_override {o : ReviewOverride} {db : Db} (htarget : o.target ≠ "")
    (hbranch : o.branch ≠ "") (hreason : o.reason ≠ "") (hby : o.overriddenBy ≠ "")
    (hroom : RoomFor 1 db) : ∃ e db', Review.makeReviewOverrideEvent o = .ok e ∧
      db.commit (Review.toProject e) = .ok db' := by
  have hschema : Review.reviewSchemas (.override o) = .ok (.override o) := by
    unfold Review.reviewSchemas
    simp only [minLength1, if_neg htarget, if_neg hbranch, if_neg hreason, if_neg hby]
    rfl
  have hmake : Review.makeReviewOverrideEvent o = .ok {
      scope := Review.reviewScope o.target, v := 1, payload := .override o
      actor := o.overriddenBy } := by
    rw [Review.makeReviewOverrideEvent, hschema]
    rfl
  obtain ⟨db', hcommit⟩ := Review.commit_review hroom (e := {
      scope := Review.reviewScope o.target, v := 1, payload := .override o
      actor := o.overriddenBy }) rfl hschema rfl
  exact ⟨_, db', hmake, hcommit⟩

theorem recordSuccessfulOverride_atomic :
    Proc.Atomic (recordSuccessfulOverride faults req gate) := by
  unfold recordSuccessfulOverride
  split
  · exact stores_atomic ((Proc.atomic_transaction _).unlessFault _)
  · exact (Proc.readOnly_pure _).atomic

/-- What a recorded override leaves behind, if there was one to record. -/
theorem recordSuccessfulOverride_eq_ok (hdb : Consistent s.db) {u : Unit}
    (h : recordSuccessfulOverride faults req gate s = (.ok u, s')) :
    (gate.override? req = none ∧ s' = s) ∨
    ∃ o event db, gate.override? req = some o ∧ faults.override = none ∧
      Carries event (.override o) ∧ s.db.commit event = .ok db ∧ s' = { s with db } := by
  unfold recordSuccessfulOverride at h
  cases hoverride : gate.override? req with
  | none =>
    simp only [hoverride] at h
    exact .inl ⟨rfl, (Prod.mk.inj h).2.symm⟩
  | some o =>
    simp only [hoverride] at h
    obtain ⟨db, hrecord, rfl⟩ := stores_eq.1 h
    obtain ⟨hfault, hrecord⟩ := Proc.unlessFault_eq_ok.1 hrecord
    obtain ⟨event, hevent, hcommit⟩ := recordOverride_commits hdb (transaction_eq_ok.1 hrecord)
    exact .inr ⟨o, event, db, rfl, hfault, hevent, hcommit, rfl⟩

/-- The override that a passed gate stands for can be recorded. -/
def Presentable (req : GateRequest) (gate : GateOutcome) : Prop :=
  ∀ o, gate.override? req = some o → o.reason ≠ "" ∧ o.overriddenBy ≠ ""

theorem override?_pair {o : ReviewOverride} (h : gate.override? req = some o) :
    o.target = req.into ∧ o.branch = req.branch := by
  unfold GateOutcome.override? at h
  split at h
  · obtain rfl := Option.some.inj h
    exact ⟨rfl, rfl⟩
  · cases h

theorem recordSuccessfulOverride_succeeds (hdb : Consistent s.db) (htarget : req.into ≠ "")
    (hbranch : req.branch ≠ "") (hgate : Presentable req gate) (hfault : faults.override = none)
    (hroom : RoomFor 1 s.db) : ∃ s', recordSuccessfulOverride faults req gate s = (.ok (), s') := by
  unfold recordSuccessfulOverride
  cases hoverride : gate.override? req with
  | none => exact ⟨s, rfl⟩
  | some o =>
    obtain ⟨hinto, hown⟩ := override?_pair hoverride
    obtain ⟨hreason, hby⟩ := hgate o hoverride
    obtain ⟨e, db, hmake, hcommit⟩ := commit_override (o := o) (hinto ▸ htarget) (hown ▸ hbranch)
      hreason hby hroom
    refine ⟨{ s with db }, stores_eq.2 ⟨db, ?_, rfl⟩⟩
    rw [hfault, Proc.unlessFault_none, transaction_eq_ok, Review.recordOverride,
      Review.ensureReviewTables_bind hdb]
    exact Tx.bind_eq_ok.2 ⟨_, db, Review.recordReview_eq_ok.2 ⟨e, hmake, rfl, hcommit⟩, rfl⟩

end

/-! ## The work under the slot -/

section

variable {α : Type} {faults : GateFaults} {req : GateRequest} {gate : GateOutcome}
  {operation : Review.Enacted} {mode : Worktrees.RepoMode} {result : Except String α}
  {s : Publishing}

/-- Record the override, if there is one, and enact. -/
def work (faults : GateFaults) (req : GateRequest) (gate : GateOutcome)
    (operation : Review.Enacted) (mode : Worktrees.RepoMode) (result : Except String α) :
    GateProc α := do
  recordSuccessfulOverride faults req gate
  enact operation mode result

/-- How the work ends. -/
inductive Worked (req : GateRequest) (gate : GateOutcome) (faults : GateFaults)
    (operation : Review.Enacted) (mode : Worktrees.RepoMode) (result : Except String α)
    (s : Publishing) : Except String α → Publishing → Prop where
  /-- The override cannot be recorded, and nothing is enacted. -/
  | unrecorded {e : String} (hoverride : (gate.override? req).isSome = true) :
      Worked req gate faults operation mode result s (.error e) s
  /-- There is no override to record. -/
  | plain (hplain : gate.override? req = none) :
      Worked req gate faults operation mode result s result
        { s with enacted := s.enacted ++ [⟨operation, mode, s.db⟩] }
  /-- The override is recorded before anything is enacted. -/
  | overridden {o : ReviewOverride} {event : NewEvent Payload} {db : Db}
      (hoverride : gate.override? req = some o) (hfault : faults.override = none)
      (hevent : Carries event (.override o)) (hcommit : s.db.commit event = .ok db) :
      Worked req gate faults operation mode result s result
        { db, enacted := s.enacted ++ [⟨operation, mode, db⟩] }

theorem worked (hdb : Consistent s.db) {r : Except String α} {s' : Publishing}
    (h : work faults req gate operation mode result s = (r, s')) :
    Worked req gate faults operation mode result s r s' := by
  rcases Proc.bind_cases h with ⟨e, hfailed, rfl⟩ | ⟨_, mid, hrecorded, henact⟩
  · obtain rfl := recordSuccessfulOverride_atomic s e s' hfailed
    refine .unrecorded (Option.isSome_iff_ne_none.2 fun hnone => ?_)
    rw [recordSuccessfulOverride, hnone] at hfailed
    cases hfailed
  · obtain ⟨rfl, rfl⟩ := Prod.mk.inj henact
    rcases recordSuccessfulOverride_eq_ok hdb hrecorded with
      ⟨hplain, rfl⟩ | ⟨o, event, db, hoverride, hfault, hevent, hcommit, rfl⟩
    · exact .plain hplain
    · exact .overridden hoverride hfault hevent hcommit

/-- The work leaves the slots alone. -/
theorem Worked.slots {r : Except String α} {s' : Publishing}
    (h : Worked req gate faults operation mode result s r s') (hdb : Consistent s.db) :
    Consistent s'.db ∧ Replay.slots s'.db = Replay.slots s.db := by
  cases h with
  | unrecorded => exact ⟨hdb, rfl⟩
  | plain => exact ⟨hdb, rfl⟩
  | overridden _ _ hevent hcommit =>
    exact ⟨hdb.commit hcommit, slots_of_other (by simp [hevent.payload_eq]) hcommit⟩

theorem work_slots (hdb : Consistent s.db) :
    Consistent (work faults req gate operation mode result s).2.db ∧
      Replay.slots (work faults req gate operation mode result s).2.db = Replay.slots s.db := by
  rcases hrun : work faults req gate operation mode result s with ⟨r, s'⟩
  exact Worked.slots (worked hdb hrun) hdb

/-- How much room in the log the work and one more event need. -/
def roomNeeded (faults : GateFaults) (req : GateRequest) (gate : GateOutcome) (db : Db) : ℕ :=
  if (gate.override? req).isSome = true ∧ faults.override = none ∧ RoomFor 1 db then 2 else 1

theorem Worked.room {r : Except String α} {s' : Publishing}
    (h : Worked req gate faults operation mode result s r s')
    (hroom : RoomFor (roomNeeded faults req gate s.db) s.db) : RoomFor 1 s'.db := by
  have hone : RoomFor 1 s.db := by
    refine hroom.mono ?_
    unfold roomNeeded
    split <;> omega
  cases h with
  | unrecorded => exact hone
  | plain => exact hone
  | overridden hoverride hfault _ hcommit =>
    rw [roomNeeded, if_pos ⟨by simp [hoverride], hfault, hone⟩] at hroom
    exact ((room_of_commit hcommit).2 1).2 hroom

/-- Where the room does not suffice, the work leaves no room. -/
theorem work_full (hdb : Consistent s.db) (htarget : req.into ≠ "") (hbranch : req.branch ≠ "")
    (hgate : Presentable req gate) (hroom : ¬ RoomFor (roomNeeded faults req gate s.db) s.db) :
    ¬ RoomFor 1 (work faults req gate operation mode result s).2.db := by
  rcases hrun : work faults req gate operation mode result s with ⟨r, s'⟩
  unfold roomNeeded at hroom
  split at hroom
  · next hrecorded =>
    obtain ⟨last, hsucceeds⟩ := recordSuccessfulOverride_succeeds hdb htarget hbranch hgate
      hrecorded.2.1 hrecorded.2.2
    cases worked hdb hrun with
    | unrecorded =>
      rw [work, Proc.bind_apply hsucceeds] at hrun
      obtain ⟨-, hlast⟩ := Prod.mk.inj hrun
      rcases recordSuccessfulOverride_eq_ok hdb hsucceeds with
        ⟨hplain, -⟩ | ⟨o, event, db, -, -, -, hcommit, rfl⟩
      · rw [hplain] at hrecorded
        cases hrecorded.1
      · intro hone
        rw [← hlast] at hone
        exact hroom (((room_of_commit hcommit).2 1).1 hone)
    | plain hplain =>
      rw [hplain] at hrecorded
      cases hrecorded.1
    | overridden _ _ _ hcommit => exact fun hone => hroom (((room_of_commit hcommit).2 1).1 hone)
  · cases worked hdb hrun with
    | unrecorded => exact hroom
    | plain => exact hroom
    | overridden _ _ _ hcommit => exact absurd (room_of_commit hcommit).1 hroom

end

end Orchestration.Replay
