import Orchestration.Review.Backfill

/-!
# The review store

Requests, verdicts, strikes, the merge slot and overrides, each recorded by one
transaction that appends the event and folds it. What a transaction may append
is decided inside it: the check and the append never come apart.
-/

namespace Orchestration.Review

open Fallible Transaction

/-! ## Checks -/

/-- The verdict as it may be recorded: it answers the latest request in the requested scope, and
is not recorded yet. -/
def prepareReviewVerdictForDb (v : ReviewVerdictRecorded) (source : String) :
    StoreTx ReviewVerdictRecorded := do
  ensureReviewTables
  let request ← reading (selectReviewRequest · v.target v.branch)
  whenSome request fun request => do
    refuse (request.reviewId ≠ v.reviewId)
      (s!"{source}: stale review verdict '{v.reviewId}' for '{v.branch}' into '{v.target}' " ++
        s!"does not match the latest request '{request.reviewId}'")
    whenSome v.scope fun scope =>
      refuse (scope ≠ request.scope)
        (s!"{source}: verdict scope '{scope}' for '{v.branch}' into '{v.target}' does not " ++
          s!"match the latest request scope '{request.scope}'")
  let verdict := { v with scope := v.scope.or (request.map (·.scope)) }
  let existing ← reading (selectVerdict · verdict.target verdict.branch verdict.scope)
  whenSome existing fun existing =>
    refuse (existing.reviewId = verdict.reviewId)
      (s!"{source}: review verdict '{verdict.reviewId}' for '{verdict.branch}' into " ++
        s!"'{verdict.target}' is already recorded; create a new review request before " ++
        "recording another verdict.")
  return verdict

/-- A spec reference as a conflict message prints it. -/
def specRefText (kind : SpecRefKind) (ref : Option String) : String :=
  match kind with
  | .criteria => "criteria:" ++ ref.getD ""
  | .noLockedSpec => toString kind

def ReviewSpecRef.ref : ReviewSpecRef → Option String
  | .criteria ref => some ref
  | .noLockedSpec => none

/-- A repeated request must agree with the stored one in every field. -/
def assertSameRequest (source : String) (existing : ReviewRequestRecord)
    (requested : ReviewRequested) : Except String Unit := do
  let conflict (field stored incoming : String) : String :=
    s!"{source}: duplicate reviewId '{requested.reviewId}' " ++
      s!"conflicts on {field}: stored '{stored}', requested '{incoming}'."
  let scope := requested.scope.getD .workerMerge
  refuse (existing.scope ≠ scope) (conflict "scope" (toString existing.scope) (toString scope))
  refuse (existing.requestedBy ≠ requested.requestedBy)
    (conflict "requestedBy" existing.requestedBy requested.requestedBy)
  let requestedReviewerKind := requested.reviewerKind.getD .agent
  refuse (existing.reviewerKind ≠ requestedReviewerKind)
    (conflict "reviewerKind" (toString existing.reviewerKind) (toString requestedReviewerKind))
  let requestedKind := requested.specRefKind.getD .noLockedSpec
  let requestedRef := requested.specRefRef
  refuse (existing.specRef.kind ≠ requestedKind ∨
      existing.specRef.kind = .criteria ∧ existing.specRef.ref ≠ requestedRef)
    (conflict "specRef" (specRefText existing.specRef.kind existing.specRef.ref)
      (specRefText requestedKind requestedRef))

def assertSameReviewRequest (existing : ReviewRequestRecord) (requested : ReviewRequested) :
    Except String Unit :=
  assertSameRequest "openReviewStore.recordReviewRequested" existing requested

/-- The open or answered request that carries `reviewId`. -/
def selectReviewRequestById (t : ReviewTables) (reviewId : String) :
    Option ReviewRequestRecord := do
  let row ← t.reviews.rows.find? fun row =>
    row.reviewId == some reviewId && row.requestedTs.isSome
  let requestedTs ← row.requestedTs
  some (rowToReviewRequestRecord row requestedTs)

/-- The pair of the first request event that carries `reviewId`. -/
def selectHistoricalReviewRequestById (events : List (StoredEvent Payload)) (reviewId : String) :
    Option (String × String) :=
  events.findSome? fun event =>
    match event.payload with
    | .review (.requested r) => if r.reviewId = reviewId then some (r.target, r.branch) else none
    | _ => none

/-- A review id belongs to one pair, and once superseded it is not requested again. -/
def assertReviewIdAvailableInDb (reviewId target branch : String) : StoreTx Unit := do
  let duplicate (target branch : String) : String :=
    s!"openReviewStore.recordReviewRequested: duplicate reviewId '{reviewId}' already " ++
      s!"belongs to '{branch}' into '{target}'."
  match ← reading (selectReviewRequestById · reviewId) with
  | some existingById =>
    refuse (existingById.target ≠ target ∨ existingById.branch ≠ branch)
      (duplicate existingById.target existingById.branch)
  | none =>
    let db ← get
    match selectHistoricalReviewRequestById db.events reviewId with
    | some (historicalTarget, historicalBranch) =>
      throw (duplicate historicalTarget historicalBranch)
    | none => return

/-! ## Operations -/

/-- Record a verdict and read it back. -/
def recordVerdict (v : ReviewVerdictRecorded) : StoreTx ReviewVerdictRecord := do
  let verdict ← prepareReviewVerdictForDb v "openReviewStore.recordVerdict"
  let _ ← recordReview (makeReviewVerdictEvent verdict)
  let row ← reading (selectVerdict · verdict.target verdict.branch verdict.scope)
  orThrow row
    ("openReviewStore.recordVerdict: row missing after projection " ++
      s!"(target='{verdict.target}', branch='{verdict.branch}')")

/-- Record a request; repeating the latest one records nothing. -/
def recordReviewRequested (r : ReviewRequested) : StoreTx ReviewRequestRecord := do
  ensureReviewTables
  let existing ← reading (selectReviewRequest · r.target r.branch)
  match existing.filter (·.reviewId == r.reviewId) with
  | some existing =>
    assertSameReviewRequest existing r
    return existing
  | none =>
    assertReviewIdAvailableInDb r.reviewId r.target r.branch
    let _ ← recordReview (makeReviewRequestedEvent r)
    let row ← reading (selectReviewRequest · r.target r.branch)
    orThrow row
      ("openReviewStore.recordReviewRequested: row missing after projection " ++
        s!"(target='{r.target}', branch='{r.branch}')")

/-- Record a strike, once for a review. -/
def recordStrike (s : ReviewStrike) : StoreTx Unit := do
  ensureReviewTables
  if ← reading (selectReviewStrike · s.target s.branch s.reviewId) then return
  else
    let _ ← recordReview (makeReviewStrikeEvent s)

/-- Toggle the merge slot, whoever holds it. -/
def recordSerialized (m : MergeSerialized) : StoreTx Unit := do
  ensureReviewTables
  let _ ← recordReview (makeMergeSerializedEvent m)

/-- Acquire the target's merge slot for the branch, or queue behind its holder. -/
def acquireSerialized (m : MergeSerialized) : StoreTx MergeSlotResult := do
  ensureReviewTables
  match ← readingSlot m.target with
  | none =>
    let _ ← recordReview (makeMergeSerializedEvent m)
    return { acquired := true, queued := false, active := m.branch, fresh := true }
  | some active =>
    if active = m.branch then
      return { acquired := true, queued := false, active, fresh := false }
    else return { acquired := false, queued := true, active, fresh := false }

/-- Release the target's merge slot; releasing a free slot is nothing, another's a failure. -/
def releaseSerialized (m : MergeSerialized) : StoreTx Unit := do
  ensureReviewTables
  match ← readingSlot m.target with
  | none => return
  | some active =>
    refuse (active ≠ m.branch)
      (s!"openReviewStore.releaseSerialized: '{m.branch}' does not hold the merge slot " ++
        s!"for '{m.target}' (active holder: {active}).")
    let _ ← recordReview (makeMergeSerializedEvent m)

/-- Record a verdict and release the slot that the reviewed branch holds. -/
def recordVerdictAndRelease (v : ReviewVerdictRecorded) : StoreTx Unit := do
  let verdict ← prepareReviewVerdictForDb v "openReviewStore.recordVerdictAndRelease"
  let active ← readingSlot verdict.target
  whenSome active fun active =>
    refuse (active ≠ verdict.branch)
      (s!"openReviewStore.recordVerdictAndRelease: '{verdict.branch}' does not hold the " ++
        s!"merge slot for '{verdict.target}' (active holder: {active}).")
  let event ← makeReviewVerdictEvent verdict
  if active = some verdict.branch then
    let release ← makeMergeSerializedEvent { target := verdict.target, branch := verdict.branch }
    let _ ← recordAll reviewProjectors ([event, release].map toProject)
  else
    let _ ← recordAll reviewProjectors ([event].map toProject)

/-- Record an operator's override. -/
def recordOverride (o : ReviewOverride) : StoreTx Unit := do
  ensureReviewTables
  let _ ← recordReview (makeReviewOverrideEvent o)

/-! ## What the operations commit -/

section Specs

variable {db db' : Db} (hdb : Consistent db)
include hdb

/-- A prepared verdict is the given one, in the scope of the request it answers. -/
theorem prepareReviewVerdictForDb_eq_ok {v verdict : ReviewVerdictRecorded} {source : String}
    (h : prepareReviewVerdictForDb v source db = .ok (verdict, db')) :
    db = db' ∧ ∃ scope, verdict = { v with scope } := by
  simp only [prepareReviewVerdictForDb, ensureReviewTables_bind hdb, reading_bind hdb,
    Tx.liftM_bind_eq_ok, Tx.pure_eq_ok] at h
  obtain ⟨-, -, -, -, rfl, rfl⟩ := h
  exact ⟨rfl, _, rfl⟩

theorem recordVerdict_spec {v : ReviewVerdictRecorded} {row : ReviewVerdictRecord}
    (h : recordVerdict v db = .ok (row, db')) : ∃ scope event,
      Carries event (.verdict { v with scope }) ∧ db.commit event = .ok db' := by
  obtain ⟨verdict, _, hprepare, h⟩ := Tx.bind_eq_ok.1 h
  obtain ⟨rfl, scope, rfl⟩ := prepareReviewVerdictForDb_eq_ok hdb hprepare
  obtain ⟨_, mid, hrecord, h⟩ := Tx.bind_eq_ok.1 h
  obtain ⟨event, hevent, -, hcommit⟩ := recordReview_eq_ok.1 hrecord
  rw [reading_bind (hdb.commit hcommit), Tx.liftM_eq_ok] at h
  obtain ⟨-, rfl⟩ := h
  exact ⟨scope, _, carries_verdict hevent, hcommit⟩

omit hdb in
/-- The check writes nothing. -/
theorem assertReviewIdAvailableInDb_eq_ok (hdb : Consistent db) {reviewId target branch : String}
    {u : Unit} (h : assertReviewIdAvailableInDb reviewId target branch db = .ok (u, db')) :
    db = db' := by
  simp only [assertReviewIdAvailableInDb, reading_bind hdb] at h
  cases hcurrent : selectReviewRequestById db.review reviewId with
  | some existing =>
    simp only [hcurrent, Tx.liftM_eq_ok] at h
    exact h.2.symm
  | none =>
    cases hhistory : selectHistoricalReviewRequestById db.events reviewId with
    | some historical => simp [hcurrent, Tx.get_bind, hhistory] at h
    | none =>
      simp only [hcurrent, Tx.get_bind, hhistory, Tx.pure_eq_ok] at h
      exact h.2

theorem recordReviewRequested_spec {r : ReviewRequested} {row : ReviewRequestRecord}
    (h : recordReviewRequested r db = .ok (row, db')) :
    db = db' ∨ ∃ event, Carries event (.requested r) ∧ db.commit event = .ok db' := by
  simp only [recordReviewRequested, ensureReviewTables_bind hdb, reading_bind hdb] at h
  cases hsame : (selectReviewRequest db.review r.target r.branch).filter
      (·.reviewId == r.reviewId) with
  | some existing =>
    simp only [hsame, Tx.liftM_bind_eq_ok, Tx.pure_eq_ok] at h
    obtain ⟨-, -, -, rfl⟩ := h
    exact .inl rfl
  | none =>
    simp only [hsame] at h
    obtain ⟨_, _, havailable, h⟩ := Tx.bind_eq_ok.1 h
    obtain rfl := assertReviewIdAvailableInDb_eq_ok hdb havailable
    obtain ⟨_, mid, hrecord, h⟩ := Tx.bind_eq_ok.1 h
    obtain ⟨event, hevent, -, hcommit⟩ := recordReview_eq_ok.1 hrecord
    rw [reading_bind (hdb.commit hcommit), Tx.liftM_eq_ok] at h
    obtain ⟨-, rfl⟩ := h
    exact .inr ⟨_, carries_requested hevent, hcommit⟩

theorem recordStrike_spec {s : ReviewStrike} {u : Unit} (h : recordStrike s db = .ok (u, db')) :
    db = db' ∨ ∃ event, Carries event (.strike s) ∧ db.commit event = .ok db' := by
  simp only [recordStrike, ensureReviewTables_bind hdb, reading_bind hdb] at h
  by_cases hstruck : selectReviewStrike db.review s.target s.branch s.reviewId = true
  · rw [if_pos hstruck] at h
    exact .inl (Tx.pure_eq_ok.1 h).2
  · simp only [if_neg hstruck, Tx.bind_eq_ok, recordReview_eq_ok, Tx.pure_eq_ok] at h
    obtain ⟨_, _, ⟨event, hevent, -, hcommit⟩, -, rfl⟩ := h
    exact .inr ⟨_, carries_strike hevent, hcommit⟩

theorem recordSerialized_spec {m : MergeSerialized} {u : Unit}
    (h : recordSerialized m db = .ok (u, db')) :
    ∃ event, Carries event (.serialized m) ∧ db.commit event = .ok db' := by
  simp only [recordSerialized, ensureReviewTables_bind hdb, Tx.bind_eq_ok, recordReview_eq_ok,
    Tx.pure_eq_ok] at h
  obtain ⟨_, _, ⟨event, hevent, -, hcommit⟩, -, rfl⟩ := h
  exact ⟨_, carries_serialized hevent, hcommit⟩

/-- An acquire toggles a free slot, and leaves a held one alone. -/
theorem acquireSerialized_spec {m : MergeSerialized} {result : MergeSlotResult}
    (h : acquireSerialized m db = .ok (result, db')) :
    (activeSerializedFromEvents db m.target = none ∧ result = ⟨true, false, m.branch, true⟩ ∧
      ∃ event, Carries event (.serialized m) ∧ db.commit event = .ok db') ∨
    (db = db' ∧ ∃ active, activeSerializedFromEvents db m.target = some active ∧
      result = ⟨active = m.branch, active ≠ m.branch, active, false⟩) := by
  simp only [acquireSerialized, ensureReviewTables_bind hdb, readingSlot_bind] at h
  cases hslot : activeSerializedFromEvents db m.target with
  | none =>
    simp only [hslot, Tx.bind_eq_ok, recordReview_eq_ok, Tx.pure_eq_ok] at h
    obtain ⟨_, _, ⟨event, hevent, -, hcommit⟩, rfl, rfl⟩ := h
    exact .inl ⟨rfl, rfl, _, carries_serialized hevent, hcommit⟩
  | some active =>
    right
    by_cases hsame : active = m.branch <;> simp only [hslot, hsame, if_true, if_false] at h <;>
      obtain ⟨rfl, rfl⟩ := Tx.pure_eq_ok.1 h <;>
      exact ⟨rfl, active, rfl, by simp [hsame]⟩

/-- A release toggles the slot its branch holds, and leaves a free one alone. -/
theorem releaseSerialized_spec {m : MergeSerialized} {u : Unit}
    (h : releaseSerialized m db = .ok (u, db')) :
    (activeSerializedFromEvents db m.target = none ∧ db = db') ∨
    (activeSerializedFromEvents db m.target = some m.branch ∧
      ∃ event, Carries event (.serialized m) ∧ db.commit event = .ok db') := by
  simp only [releaseSerialized, ensureReviewTables_bind hdb, readingSlot_bind] at h
  cases hslot : activeSerializedFromEvents db m.target with
  | none =>
    simp only [hslot, Tx.pure_eq_ok] at h
    exact .inl ⟨rfl, h.2⟩
  | some active =>
    simp only [hslot, Tx.liftM_bind_eq_ok, refuse_eq_ok, Decidable.not_not] at h
    obtain ⟨_, rfl, h⟩ := h
    simp only [Tx.bind_eq_ok, recordReview_eq_ok, Tx.pure_eq_ok] at h
    obtain ⟨_, _, ⟨event, hevent, -, hcommit⟩, -, rfl⟩ := h
    exact .inr ⟨rfl, _, carries_serialized hevent, hcommit⟩

/-- A verdict is recorded alone when the slot is free, and with the release of its branch
otherwise. -/
theorem recordVerdictAndRelease_spec {v : ReviewVerdictRecorded} {u : Unit}
    (h : recordVerdictAndRelease v db = .ok (u, db')) :
    ∃ scope event, Carries event (.verdict { v with scope }) ∧
      ((activeSerializedFromEvents db v.target = none ∧ db.commitAll [event] = .ok db') ∨
      (activeSerializedFromEvents db v.target = some v.branch ∧
        ∃ release, Carries release (.serialized ⟨v.target, v.branch⟩) ∧
          db.commitAll [event, release] = .ok db')) := by
  obtain ⟨verdict, _, hprepare, h⟩ := Tx.bind_eq_ok.1 h
  obtain ⟨rfl, scope, rfl⟩ := prepareReviewVerdictForDb_eq_ok hdb hprepare
  simp only [readingSlot_bind, Tx.liftM_bind_eq_ok, whenSome_eq_ok, refuse_eq_ok,
    Decidable.not_not] at h
  obtain ⟨-, hholder, event, hevent, h⟩ := h
  refine ⟨scope, toProject event, carries_verdict hevent, ?_⟩
  by_cases hheld : activeSerializedFromEvents db v.target = some v.branch
  · rw [if_pos hheld, Tx.liftM_bind_eq_ok] at h
    obtain ⟨release, hrelease, h⟩ := h
    simp only [Tx.bind_eq_ok, Tx.pure_eq_ok] at h
    obtain ⟨_, _, hrecord, -, rfl⟩ := h
    exact .inr ⟨hheld, _, carries_serialized hrelease, (recordReviews_eq_ok hrecord).2⟩
  · rw [if_neg hheld] at h
    simp only [Tx.bind_eq_ok, Tx.pure_eq_ok] at h
    obtain ⟨_, _, hrecord, -, rfl⟩ := h
    refine .inl ⟨?_, (recordReviews_eq_ok hrecord).2⟩
    cases hslot : activeSerializedFromEvents db v.target with
    | none => rfl
    | some active => exact absurd (hholder active hslot ▸ hslot) hheld

theorem recordOverride_spec {o : ReviewOverride} {u : Unit}
    (h : recordOverride o db = .ok (u, db')) :
    ∃ event, Carries event (.override o) ∧ db.commit event = .ok db' := by
  simp only [recordOverride, ensureReviewTables_bind hdb, Tx.bind_eq_ok, recordReview_eq_ok,
    Tx.pure_eq_ok] at h
  obtain ⟨_, _, ⟨event, hevent, -, hcommit⟩, -, rfl⟩ := h
  exact ⟨_, carries_override hevent, hcommit⟩

end Specs

/-! ## Calls -/

/-- A call of the review store. -/
inductive ReviewCall where
  | recordVerdict (v : ReviewVerdictRecorded)
  | recordReviewRequested (r : ReviewRequested)
  | recordStrike (s : ReviewStrike)
  | recordSerialized (m : MergeSerialized)
  | acquireSerialized (m : MergeSerialized)
  | releaseSerialized (m : MergeSerialized)
  | recordVerdictAndRelease (v : ReviewVerdictRecorded)
  | recordOverride (o : ReviewOverride)
  | read
deriving DecidableEq, Repr

/-- The database after a call. -/
def ReviewCall.exec : ReviewCall → Db → Db
  | recordVerdict v => (transaction (Review.recordVerdict v)).exec
  | recordReviewRequested r => (transaction (Review.recordReviewRequested r)).exec
  | recordStrike s => (transaction (Review.recordStrike s)).exec
  | recordSerialized m => (transaction (Review.recordSerialized m)).exec
  | acquireSerialized m => (transaction (Review.acquireSerialized m)).exec
  | releaseSerialized m => (transaction (Review.releaseSerialized m)).exec
  | recordVerdictAndRelease v => (transaction (Review.recordVerdictAndRelease v)).exec
  | recordOverride o => (transaction (Review.recordOverride o)).exec
  | read => (transaction ensureReviewTables).exec

/-- The store appends nothing but review events. -/
def ReviewEvents : EventClass := fun _ event => ∃ payload, event.payload = .review payload

theorem Carries.reviewEvents {event : NewEvent Payload} {payload : ReviewEvent} {db : Db}
    (h : Carries event payload) : ReviewEvents db event := ⟨payload, h.payload_eq⟩

theorem ReviewCall.exec_emits {db : Db} (hdb : Consistent db) (call : ReviewCall) :
    Emits ReviewEvents db (call.exec db) := by
  -- nothing, or one event
  have hone : ∀ {db' : Db} {payload : ReviewEvent},
      (db = db' ∨ ∃ event, Carries event payload ∧ db.commit event = .ok db') →
      Emits ReviewEvents db db' := by
    rintro db' payload (rfl | ⟨event, hevent, hcommit⟩)
    · exact .refl
    · exact Emits.single hevent.reviewEvents hcommit
  cases call with
  | recordVerdict v =>
    refine Proc.exec_transaction .refl fun row db' h => ?_
    obtain ⟨scope, event, hevent, hcommit⟩ := recordVerdict_spec hdb h
    exact hone (.inr ⟨event, hevent, hcommit⟩)
  | recordReviewRequested r =>
    exact Proc.exec_transaction .refl fun _ _ h => hone (recordReviewRequested_spec hdb h)
  | recordStrike s => exact Proc.exec_transaction .refl fun _ _ h => hone (recordStrike_spec hdb h)
  | recordSerialized m =>
    exact Proc.exec_transaction .refl fun _ _ h => hone (.inr (recordSerialized_spec hdb h))
  | acquireSerialized m =>
    refine Proc.exec_transaction .refl fun result db' h => ?_
    rcases acquireSerialized_spec hdb h with ⟨-, -, hevent⟩ | ⟨rfl, -⟩
    · exact hone (.inr hevent)
    · exact .refl
  | releaseSerialized m =>
    refine Proc.exec_transaction .refl fun result db' h => ?_
    rcases releaseSerialized_spec hdb h with ⟨-, rfl⟩ | ⟨-, hevent⟩
    · exact .refl
    · exact hone (.inr hevent)
  | recordVerdictAndRelease v =>
    refine Proc.exec_transaction .refl fun result db' h => ?_
    obtain ⟨scope, event, hevent, hrelease⟩ := recordVerdictAndRelease_spec hdb h
    rcases hrelease with ⟨-, hcommit⟩ | ⟨-, release, hrelease, hcommit⟩
    · refine Emits.of_commitAll (fun e he _ => ?_) hcommit
      exact List.mem_singleton.1 he ▸ hevent.reviewEvents
    · refine Emits.of_commitAll (fun e he _ => ?_) hcommit
      rcases List.mem_cons.1 he with rfl | he
      · exact hevent.reviewEvents
      · exact List.mem_singleton.1 he ▸ hrelease.reviewEvents
  | recordOverride o =>
    exact Proc.exec_transaction .refl fun _ _ h => hone (.inr (recordOverride_spec hdb h))
  | read =>
    refine Proc.exec_transaction .refl fun result db' h => ?_
    rw [← bind_pure ensureReviewTables, ensureReviewTables_bind hdb, Tx.pure_eq_ok] at h
    exact h.2 ▸ .refl

end Orchestration.Review
