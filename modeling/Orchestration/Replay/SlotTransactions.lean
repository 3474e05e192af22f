import Orchestration.Library.Cleanup
import Orchestration.Replay.MergeSlot
import Orchestration.Review.Registered

/-!
# Taking the slot and giving it back

Both are single transactions, struck by a fault or not: the slot is taken from nobody, and the
holder's give-back frees it, unless the event cannot be appended.
-/

namespace Orchestration.Replay

open Fallible Transaction
open Transaction.Proc (unlessFault)
open Orchestration.Review (Carries MergeSerialized MergeSlotResult ReviewTables applySerialized)

/-! ## Room in the log -/

/-- `n` more events fit into the log. -/
def RoomFor (n : ℕ) (db : Db) : Prop := db.events.length + n ≤ Js.maxSafeInteger

instance (n : ℕ) (db : Db) : Decidable (RoomFor n db) :=
  inferInstanceAs (Decidable (_ ≤ _))

theorem nextSeq_le_iff {db : Db} : db.nextSeq ≤ Js.maxSafeInteger ↔ RoomFor 1 db := Iff.rfl

theorem RoomFor.mono {n m : ℕ} {db : Db} (h : RoomFor n db) (hle : m ≤ n) : RoomFor m db := by
  unfold RoomFor at h ⊢
  omega

theorem room_of_commit {db db' : Db} {event : NewEvent Payload} (h : db.commit event = .ok db') :
    RoomFor 1 db ∧ ∀ n, RoomFor n db' ↔ RoomFor (n + 1) db := by
  refine ⟨(commit_eq_ok.1 h).1, fun n => ?_⟩
  have hlength : db'.events.length = db.events.length + 1 := by
    rw [(folded_of_commit h).2, List.length_append, List.length_singleton]
  unfold RoomFor
  omega

/-! ## Taking the slot -/

section

variable {fault : Option String} {m : MergeSerialized} {db db' : Db}

/-- What taking the slot does. -/
inductive SlotTaken (m : MergeSerialized) (db : Db) : MergeSlotResult → Db → Prop where
  /-- The slot was free, and is the branch's now. -/
  | fresh {db' : Db} {event : NewEvent Payload} (hfree : slots db m.target = none)
      (hevent : Carries event (.serialized m)) (hcommit : db.commit event = .ok db') :
      SlotTaken m db ⟨true, false, m.branch, true⟩ db'
  /-- The slot was held, by the branch or by another. -/
  | held {active : String} (hheld : slots db m.target = some active) :
      SlotTaken m db ⟨active = m.branch, active ≠ m.branch, active, false⟩ db

theorem slotTaken (hdb : Consistent db) {slot : MergeSlotResult}
    (h : unlessFault fault (transaction (Review.acquireSerialized m)) db = (.ok slot, db')) :
    fault = none ∧ SlotTaken m db slot db' := by
  obtain ⟨hfault, hacquire⟩ := Proc.unlessFault_eq_ok.1 h
  refine ⟨hfault, ?_⟩
  rcases Review.acquireSerialized_spec hdb (transaction_eq_ok.1 hacquire) with
    ⟨hfree, rfl, event, hevent, hcommit⟩ | ⟨rfl, active, hheld, rfl⟩
  · exact .fresh hfree hevent hcommit
  · exact .held hheld

/-- A toggle that was committed had names and room. -/
theorem named_of_toggle {event : NewEvent Payload} (hevent : Carries event (.serialized m))
    (h : db.commit event = .ok db') : m.target ≠ "" ∧ m.branch ≠ "" := by
  obtain ⟨-, tables, hfold, rfl⟩ := commit_eq_ok.1 h
  have hpayload : (db.stored event).payload = .review (.serialized m) := hevent.payload_eq
  cases folded_of_foldEvent hfold with
  | review hstored hschema _ =>
    rw [hpayload] at hstored
    cases hstored
    exact Review.named_of_schema hschema
  | mail hstored | worktree hstored | usage hstored | cost hstored | placement hstored
  | toolUsage hstored | plan hstored | roles hstored | session hstored | archive hstored =>
    rw [hpayload] at hstored
    cases hstored

/-- A free slot is taken unless the event cannot be appended. -/
theorem acquire_free (hdb : Consistent db) (hfree : slots db m.target = none)
    (htarget : m.target ≠ "") (hbranch : m.branch ≠ "") (hfault : fault = none)
    (hroom : RoomFor 1 db) : ∃ db' event,
      unlessFault fault (transaction (Review.acquireSerialized m)) db =
        (.ok ⟨true, false, m.branch, true⟩, db') ∧
      Carries event (.serialized m) ∧ db.commit event = .ok db' := by
  have hslot : Review.activeSerializedFromEvents db m.target = none := hfree
  have hmake := Review.makeMergeSerializedEvent_eq htarget hbranch
  obtain ⟨db', hcommit⟩ := Review.commit_serialized hroom hmake
  refine ⟨db', _, ?_, Review.carries_serialized hmake, hcommit⟩
  rw [hfault, Proc.unlessFault_none, transaction_eq_ok]
  simp only [Review.acquireSerialized, Review.ensureReviewTables_bind hdb, Review.readingSlot_bind,
    hslot]
  exact Tx.bind_eq_ok.2 ⟨_, db', Review.recordReview_eq_ok.2 ⟨_, hmake, rfl, hcommit⟩, rfl⟩

/-- The slot that the branch holds is taken again. -/
theorem acquire_held (hdb : Consistent db) (hheld : slots db m.target = some m.branch)
    (hfault : fault = none) : unlessFault fault (transaction (Review.acquireSerialized m)) db =
      (.ok ⟨true, false, m.branch, false⟩, db) := by
  have hslot : Review.activeSerializedFromEvents db m.target = some m.branch := hheld
  rw [hfault, Proc.unlessFault_none, transaction_eq_ok]
  simp only [Review.acquireSerialized, Review.ensureReviewTables_bind hdb, Review.readingSlot_bind,
    hslot, if_pos]
  rfl

end

/-! ## Giving it back -/

section

variable {fault : Option String} {m : MergeSerialized} {db : Db}

/-- Giving the held slot back works unless its event cannot be appended. -/
theorem release_held (hdb : Consistent db) (htarget : m.target ≠ "") (hbranch : m.branch ≠ "")
    (hheld : slots db m.target = some m.branch) :
    (∃ db', unlessFault fault (transaction (Review.releaseSerialized m)) db = (.ok (), db') ∧
        (∃ event, Carries event (.serialized m) ∧ db.commit event = .ok db') ∧
        slots db' m.target = none ∧ fault = none ∧ RoomFor 1 db) ∨
      (∃ e, unlessFault fault (transaction (Review.releaseSerialized m)) db = (.error e, db)) ∧
        ¬ (fault = none ∧ RoomFor 1 db) := by
  have hslot : Review.activeSerializedFromEvents db m.target = some m.branch := hheld
  have hmake := Review.makeMergeSerializedEvent_eq htarget hbranch
  by_cases hcan : fault = none ∧ RoomFor 1 db
  · obtain ⟨db', hcommit⟩ := Review.commit_serialized hcan.2 hmake
    have hevent := Review.carries_serialized hmake
    refine .inl ⟨db', ?_, ⟨_, hevent, hcommit⟩, ?_, hcan⟩
    · rw [hcan.1, Proc.unlessFault_none, transaction_eq_ok]
      simp only [Review.releaseSerialized, Review.ensureReviewTables_bind hdb,
        Review.readingSlot_bind, hslot, Tx.liftM_bind_eq_ok, refuse_eq_ok]
      refine ⟨(), not_not.2 rfl, ?_⟩
      exact Tx.bind_eq_ok.2 ⟨_, db', Review.recordReview_eq_ok.2 ⟨_, hmake, rfl, hcommit⟩, rfl⟩
    · rw [slots_of_release hevent hheld hcommit]
      exact Function.update_self ..
  · refine .inr ⟨?_, hcan⟩
    rcases hrun : unlessFault fault (transaction (Review.releaseSerialized m)) db with ⟨e | u, last⟩
    · exact ⟨e, by rw [(Proc.atomic_transaction _).unlessFault _ _ _ _ hrun]⟩
    · obtain ⟨hfault, hrelease⟩ := Proc.unlessFault_eq_ok.1 hrun
      rcases Review.releaseSerialized_spec hdb (transaction_eq_ok.1 hrelease) with
        ⟨hfree, -⟩ | ⟨-, event, -, hcommit⟩
      · rw [hslot] at hfree
        cases hfree
      · exact absurd ⟨hfault, (room_of_commit hcommit).1⟩ hcan

end

/-! ## What a toggle leaves alone -/

section

variable {m : MergeSerialized} {db db' : Db} {event : NewEvent Payload}

/-- A toggle folds into the review tables only. -/
theorem review_of_toggle (hevent : Carries event (.serialized m)) (h : db.commit event = .ok db') :
    db'.review = applySerialized db.review m := by
  obtain ⟨-, tables, hfold, rfl⟩ := commit_eq_ok.1 h
  rcases foldEvent_review hfold with ⟨payload, hstored, happly⟩ | ⟨hnone, -⟩
  · obtain rfl : Review.ReviewEvent.serialized m = payload :=
      Payload.review.inj (hevent.payload_eq.symm.trans hstored)
    exact (pure_eq_ok.1 happly).symm
  · exact absurd hevent.payload_eq (hnone _)

theorem same_of_toggle {p : Projector} (hp : p ≠ .review) (hevent : Carries event (.serialized m))
    (h : db.commit event = .ok db') : db.toProjections.Same db'.toProjections p := by
  refine same_of_commit ?_ h
  rw [hevent.payload_eq]
  exact fun heq => hp heq.symm

/-- The row of a toggled pair is marked, and reads as it did. -/
theorem selectReviewRequest_applySerialized (t : ReviewTables) (target branch : String) :
    Review.selectReviewRequest (applySerialized t m) target branch =
      Review.selectReviewRequest t target branch := by
  unfold Review.selectReviewRequest applySerialized
  rw [Table.find?_upsert]
  split
  · cases t.reviews.find? (target, branch) <;> rfl
  · rfl

theorem selectVerdict_applySerialized (t : ReviewTables) (target branch : String)
    (scope : Option Review.ReviewScope) :
    Review.selectVerdict (applySerialized t m) target branch scope =
      Review.selectVerdict t target branch scope := by
  unfold Review.selectVerdict applySerialized
  rw [Table.find?_upsert]
  split
  · cases t.reviews.find? (target, branch) <;> rfl
  · rfl

end

end Orchestration.Replay
