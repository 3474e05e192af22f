import Orchestration.Replay.TriggerRuns
import Orchestration.Review.Finalize

/-!
# Finalizing a review again

A call that records its verdict and then fails has not woken the owner of the gate, and no
repetition wakes it: the verdict is there, so every later call is refused before it comes to
the mail.
-/

namespace Orchestration.Replay

open Fallible Transaction
open Transaction.Proc (unlessFault)
open Orchestration.Review (Carries FinalizeContext FinalizeFaults ReviewFinalizeInput
  ReviewFinalizeOutput ReviewRequestRecord ReviewScope ReviewTables ReviewVerdictRecord
  ReviewVerdictRecorded Verdict activeSerializedFromEvents applySerialized applyVerdict
  ensureReviewTables_bind finalizeChecks getVerdict prepareReviewVerdictForDb reading_bind
  readingSlot_bind recordFinal recordIssuesVerdictAndRelease recordVerdict
  recordVerdictAndRelease recordVerdictAndRelease_spec recordVerdict_spec recordedVerdict
  reviewFinalizeTool reviewVerdictWakeKey selectReviewRequest selectVerdict snapshot)

/-! ## An answered request -/

/-- The latest verdict of the pair is the review's. -/
def Answered (input : ReviewFinalizeInput) (t : ReviewTables) : Prop :=
  ∃ row, t.reviews.find? (input.target, input.branch) = some row ∧ row.verdict.isSome = true ∧
    row.reviewId = some input.reviewId

section

variable {ctx : FinalizeContext} {faults : FinalizeFaults} {input : ReviewFinalizeInput}
  {db db' : Db} {scope : ReviewScope}

theorem answered_of_applyVerdict {t t' : ReviewTables} {event : StoredEvent Review.ReviewEvent}
    {scope : Option ReviewScope}
    (h : applyVerdict t event
      { recordedVerdict ctx input .workerMerge with scope } = .ok t') :
    Answered input t' := by
  simp only [applyVerdict, bind_eq_ok, pure_eq_ok] at h
  obtain ⟨-, -, -, -, rfl⟩ := h
  refine ⟨_, Table.find?_upsert_self, ?_⟩
  generalize t.reviews.find? _ = old
  cases old with
  | none => exact ⟨rfl, rfl⟩
  | some row => exact ⟨rfl, rfl⟩

/-- Giving a slot back answers nothing anew. -/
theorem Answered.serialized {t : ReviewTables} (h : Answered input t) (m : Review.MergeSerialized) :
    Answered input (applySerialized t m) := by
  obtain ⟨row, hrow, hverdict, hid⟩ := h
  rw [Answered, applySerialized, Table.find?_upsert, hrow]
  split
  · exact ⟨_, rfl, hverdict, hid⟩
  · exact ⟨row, rfl, hverdict, hid⟩

theorem answered_of_commit {event : NewEvent Payload} {scope : Option ReviewScope}
    (hevent : Carries event (.verdict { recordedVerdict ctx input .workerMerge with scope }))
    (h : db.commit event = .ok db') : Answered input db'.review := by
  obtain ⟨-, t, hfold, rfl⟩ := commit_eq_ok.1 h
  obtain ⟨payload, hpayload, happly⟩ | ⟨hnot, -⟩ := foldEvent_review hfold
  · obtain rfl : payload = _ := Payload.review.inj (hpayload.symm.trans hevent.payload_eq)
    exact answered_of_applyVerdict happly
  · exact absurd hevent.payload_eq (hnot _)

theorem Answered.commit_serialized {event : NewEvent Payload} {m : Review.MergeSerialized}
    (hanswered : Answered input db.review) (hevent : Carries event (.serialized m))
    (h : db.commit event = .ok db') : Answered input db'.review := by
  obtain ⟨-, t, hfold, rfl⟩ := commit_eq_ok.1 h
  obtain ⟨payload, hpayload, happly⟩ | ⟨hnot, -⟩ := foldEvent_review hfold
  · obtain rfl : payload = _ := Payload.review.inj (hpayload.symm.trans hevent.payload_eq)
    have happlied := pure_eq_ok.1 happly
    change Answered input t.review
    rw [← happlied]
    exact hanswered.serialized m
  · exact absurd hevent.payload_eq (hnot _)

/-! ## One call -/

theorem checks_scope {request : ReviewRequestRecord}
    (h : finalizeChecks ctx input db = .ok request) :
    selectReviewRequest db.review input.target input.branch = some request ∧
      input.scope.getD request.scope = request.scope := by
  simp only [finalizeChecks, bind_eq_ok, pure_eq_ok, refuse_eq_ok, orThrow_eq_ok] at h
  obtain ⟨_, -, _, -, _, -, found, hfound, _, -, _, hscope, _, -, _, -, _, -, _, -, _, -, rfl⟩ := h
  exact ⟨hfound, not_not.1 hscope⟩

/-- A verdict that is there already is not recorded again. -/
theorem prepare_refused (hdb : Consistent db) (hanswered : Answered input db.review)
    {request : ReviewRequestRecord} (hchecks : finalizeChecks ctx input db = .ok request)
    (source : String) (verdict : ReviewVerdictRecorded) (mid : Db) :
    prepareReviewVerdictForDb (recordedVerdict ctx input (input.scope.getD request.scope)) source
      db ≠ .ok (verdict, mid) := by
  intro h
  obtain ⟨hrequest, hscope⟩ := checks_scope hchecks
  obtain ⟨row, hrow, hverdict, hid⟩ := hanswered
  obtain ⟨recorded, hrecorded⟩ := Option.isSome_iff_exists.1 hverdict
  simp only [prepareReviewVerdictForDb, ensureReviewTables_bind hdb, reading_bind hdb,
    Tx.liftM_bind_eq_ok] at h
  obtain ⟨-, -, _, hfresh, -⟩ := h
  have hsame : request.scope = row.scope := by
    rw [selectReviewRequest, hrow] at hrequest
    obtain ⟨_, hread, hrequest⟩ := Option.bind_eq_some_iff.1 hrequest
    obtain rfl := Option.some.inj hread
    obtain ⟨ts, -, hrequest⟩ := Option.bind_eq_some_iff.1 hrequest
    exact (Option.some.inj hrequest) ▸ rfl
  have hselected : selectVerdict db.review input.target input.branch (some row.scope) =
      some (Review.rowToReviewVerdictRecord row recorded) := by
    simp [selectVerdict, hrow, hrecorded]
  rw [hscope, hsame] at hfresh
  change whenSome (selectVerdict db.review input.target input.branch (some row.scope)) _ = _
    at hfresh
  rw [hselected] at hfresh
  refine refuse_eq_ok.1 hfresh ?_
  change row.reviewId.getD "null" = input.reviewId
  rw [hid]
  rfl

theorem transaction_refused {α : Type} {body : StoreTx α}
    (h : ∀ a db', body db ≠ .ok (a, db')) : ∃ e, transaction body db = (.error e, db) := by
  cases hrun : transaction body db with
  | mk result db' =>
    cases result with
    | ok a => exact absurd (transaction_eq_ok.1 hrun) (h a db')
    | error e => exact ⟨e, by rw [transaction_error hrun]⟩

theorem unlessFault_refused {α : Type} {p : StoreProc α} (fault : Option String)
    (h : ∃ e, p db = (.error e, db)) : ∃ e, unlessFault fault p db = (.error e, db) := by
  cases fault with
  | none => exact h
  | some e => exact ⟨e, rfl⟩

theorem recordFinal_issues {v : ReviewVerdictRecorded} (h : v.verdict = .issues) :
    recordFinal faults v scope = recordIssuesVerdictAndRelease faults v scope := by
  rw [recordFinal, h]

theorem recordFinal_pass {v : ReviewVerdictRecorded} (h : v.verdict = .pass) :
    recordFinal faults v scope = unlessFault faults.record (transaction (recordVerdict v)) := by
  rw [recordFinal, h]

theorem recordFinal_refused (faults : FinalizeFaults) (scope : ReviewScope) (hdb : Consistent db)
    (hanswered : Answered input db.review) {request : ReviewRequestRecord}
    (hchecks : finalizeChecks ctx input db = .ok request) :
    ∃ e, recordFinal faults (recordedVerdict ctx input (input.scope.getD request.scope)) scope db =
      (.error e, db) := by
  have hrefused := prepare_refused hdb hanswered hchecks
  cases hverdict : input.verdict with
  | issues =>
    have hrecord : ∀ u db', recordVerdictAndRelease
        (recordedVerdict ctx input (input.scope.getD request.scope)) db ≠ .ok (u, db') := by
      intro u db' h
      obtain ⟨verdict, mid, hprepare, -⟩ := Tx.bind_eq_ok.1 h
      exact hrefused _ verdict mid hprepare
    obtain ⟨e, he⟩ := unlessFault_refused faults.record (transaction_refused hrecord)
    rw [recordFinal_issues hverdict]
    exact ⟨e, Proc.bind_error he⟩
  | pass =>
    rw [recordFinal_pass hverdict]
    refine unlessFault_refused faults.record (transaction_refused fun row db' h => ?_)
    obtain ⟨verdict, mid, hprepare, -⟩ := Tx.bind_eq_ok.1 h
    exact hrefused _ verdict mid hprepare

/-- Once the verdict is there, a call is refused and changes nothing, whoever makes it. -/
theorem finalize_refused (ctx : FinalizeContext) (faults : FinalizeFaults) (hdb : Consistent db)
    (hanswered : Answered input db.review) :
    ∃ e, reviewFinalizeTool ctx faults input db = (.error e, db) := by
  cases hfault : faults.checks with
  | some e =>
    refine ⟨e, Proc.bind_error ?_⟩
    rw [hfault]
    rfl
  | none =>
    have hread : unlessFault faults.checks snapshot db = (.ok db, db) := by
      rw [hfault]
      exact snapshot_eq hdb
    rw [reviewFinalizeTool, Proc.bind_apply hread]
    cases hchecks : finalizeChecks ctx input db with
    | error e => exact ⟨e, rfl⟩
    | ok request =>
      obtain ⟨e, he⟩ := recordFinal_refused faults (input.scope.getD request.scope) hdb hanswered
        hchecks
      refine ⟨e, ?_⟩
      change (recordFinal faults _ _ >>= _) db = _
      exact Proc.bind_error he

theorem answered_of_recordVerdictAndRelease (hdb : Consistent db) {u : Unit}
    (h : recordVerdictAndRelease (recordedVerdict ctx input scope) db = .ok (u, db')) :
    Consistent db' ∧ Answered input db'.review := by
  obtain ⟨scope', event, hevent, hcommits⟩ := recordVerdictAndRelease_spec hdb h
  rcases hcommits with ⟨-, hcommits⟩ | ⟨-, release, hrelease, hcommits⟩
  · obtain ⟨mid, hcommit, hrest⟩ := Db.commitAll_cons.1 hcommits
    cases hrest
    exact ⟨hdb.commit hcommit, answered_of_commit hevent hcommit⟩
  · obtain ⟨mid, hcommit, hrest⟩ := Db.commitAll_cons.1 hcommits
    obtain ⟨last, hcommit', hrest⟩ := Db.commitAll_cons.1 hrest
    cases hrest
    exact ⟨(hdb.commit hcommit).commit hcommit',
      (answered_of_commit hevent hcommit).commit_serialized hrelease hcommit'⟩

theorem getVerdict_eq (hdb : Consistent db) (target branch : String) :
    getVerdict target branch scope db =
      (.ok (selectVerdict db.review target branch (some scope)), db) := by
  rw [getVerdict, transaction_eq_ok, ensureReviewTables_bind hdb, ← bind_pure (Review.reading _),
    reading_bind hdb]
  rfl

/-- Reading the verdict back changes nothing, whether it succeeds or not. -/
theorem readBack_exec (hdb : Consistent db) {v : ReviewVerdictRecorded}
    {f : Option ReviewVerdictRecord → Except String ReviewVerdictRecord} :
    ((unlessFault faults.readBack (getVerdict v.target v.branch scope) >>= fun row =>
      liftM (f row)) : StoreProc ReviewVerdictRecord).exec db = db := by
  rw [Proc.exec]
  cases faults.readBack with
  | some e =>
    rw [Proc.bind_error (Proc.unlessFault_some)]
  | none => rw [Proc.unlessFault_none, Proc.bind_apply (getVerdict_eq hdb _ _)]; rfl

/-- What the recording of a verdict leaves: nothing of a refused one, or the verdict. -/
theorem recordFinal_cases (hdb : Consistent db) {result : Except String ReviewVerdictRecord}
    (h : recordFinal faults (recordedVerdict ctx input scope) scope db = (result, db')) :
    (db' = db ∧ ∃ e, result = .error e) ∨ Consistent db' ∧ Answered input db'.review := by
  cases hverdict : input.verdict with
  | issues =>
    rw [recordFinal_issues hverdict] at h
    cases hrecord : unlessFault faults.record
        (transaction (recordVerdictAndRelease (recordedVerdict ctx input scope))) db with
    | mk recorded mid =>
      cases recorded with
      | error e =>
        have hsame := (Proc.atomic_transaction _).unlessFault faults.record db e mid hrecord
        obtain ⟨rfl, rfl⟩ := Prod.mk.inj ((Proc.bind_error hrecord).symm.trans h)
        exact .inl ⟨hsame, e, rfl⟩
      | ok u =>
        obtain ⟨-, hrun⟩ := Proc.unlessFault_eq_ok.1 hrecord
        obtain ⟨hmid, hanswered⟩ := answered_of_recordVerdictAndRelease hdb
          (transaction_eq_ok.1 hrun)
        have hrest := (Proc.bind_apply hrecord).symm.trans h
        have hsame := congrArg Prod.snd hrest
        obtain rfl : mid = db' := (readBack_exec hmid).symm.trans hsame
        exact .inr ⟨hmid, hanswered⟩
  | pass =>
    rw [recordFinal_pass hverdict] at h
    cases result with
    | error e =>
      have hsame := (Proc.atomic_transaction _).unlessFault faults.record db e db' h
      exact .inl ⟨hsame, e, rfl⟩
    | ok row =>
      obtain ⟨-, hrecord⟩ := Proc.unlessFault_eq_ok.1 h
      obtain ⟨scope', event, hevent, hcommit⟩ :=
        recordVerdict_spec hdb (transaction_eq_ok.1 hrecord)
      exact .inr ⟨hdb.commit hcommit, answered_of_commit hevent hcommit⟩

/-- A failed call changed nothing, or it left its verdict behind. -/
theorem finalize_failed (hdb : Consistent db) {e : String}
    (h : reviewFinalizeTool ctx faults input db = (.error e, db')) :
    db' = db ∨ Consistent db' ∧ Answered input db'.review := by
  rw [reviewFinalizeTool] at h
  rcases Proc.bind_eq_error.1 h with hread | ⟨read, last, hread, h⟩
  · exact .inl ((Proc.atomic_transaction _).unlessFault faults.checks db e db' hread)
  obtain ⟨-, hsnapshot⟩ := Proc.unlessFault_eq_ok.1 hread
  obtain ⟨hsame, rfl⟩ := Prod.mk.inj ((snapshot_eq hdb).symm.trans hsnapshot)
  obtain rfl := Except.ok.inj hsame
  cases hchecks : finalizeChecks ctx input db with
  | error cause =>
    rw [hchecks] at h
    exact .inl (Prod.mk.inj h).2.symm
  | ok request =>
    rw [hchecks] at h
    change (recordFinal faults _ _ >>= _) db = _ at h
    rcases Proc.bind_eq_error.1 h with hrecord | ⟨record, mid, hrecord, h⟩
    · rcases recordFinal_cases hdb hrecord with ⟨hsame, -⟩ | hleft
      · exact .inl hsame
      · exact .inr hleft
    · rcases recordFinal_cases hdb hrecord with ⟨-, e', hfailed⟩ | hleft
      · cases hfailed
      -- the mail that was not sent leaves the verdict as it is
      rcases Proc.bind_eq_error.1 h with hwake | ⟨mail, last, -, h⟩
      · have hsame := send_atomic.unlessFault faults.wake mid e db' hwake
        exact .inr (hsame ▸ hleft)
      · cases (Prod.mk.inj h).1

end

/-! ## Every repetition -/

/-- The verdict events of a review. -/
def verdictsOf (reviewId : String) (db : Db) : List (StoredEvent Payload) :=
  db.events.filter fun event =>
    match event.payload with
    | .review (.verdict v) => v.reviewId == reviewId
    | _ => false

/-- The mails that wake `requester` for the verdict of a review. -/
def wakesOf (reviewId requester : String) (db : Db) : List (StoredEvent Payload) :=
  db.events.filter fun event =>
    match event.payload with
    | .mail (.mail .workerDone _) =>
      event.scope == Mail.mailScope requester &&
        event.idempotencyKey == some (reviewVerdictWakeKey reviewId)
    | _ => false

/-- A call that no failure strikes returns, and then the log holds the verdict of the review and
the wake of its requester, each once. -/
def Wakes (ctx : FinalizeContext) (input : ReviewFinalizeInput) (requester : String) (db : Db) :
    Prop :=
  ∃ output db', reviewFinalizeTool ctx {} input db = (.ok output, db') ∧
    (verdictsOf input.reviewId db').length = 1 ∧
    (wakesOf input.reviewId requester db').length = 1

/-- The call recorded its verdict, and failed before it returned. -/
structure FailedAfterRecording (ctx : FinalizeContext) (faults : FinalizeFaults)
    (input : ReviewFinalizeInput) (db db' : Db) : Prop where
  failed : ∃ e, reviewFinalizeTool ctx faults input db = (.error e, db')
  recorded : (verdictsOf input.reviewId db).length < (verdictsOf input.reviewId db').length

/-- The call once more, by whichever process and with whatever failure. -/
def retry (input : ReviewFinalizeInput) (attempt : FinalizeContext × FinalizeFaults) : Db → Db :=
  (reviewFinalizeTool attempt.1 attempt.2 input).exec

section

variable {ctx : FinalizeContext} {faults : FinalizeFaults} {input : ReviewFinalizeInput}
  {db db' : Db}

theorem FailedAfterRecording.answered (hdb : Consistent db)
    (h : FailedAfterRecording ctx faults input db db') :
    Consistent db' ∧ Answered input db'.review := by
  obtain ⟨e, hrun⟩ := h.failed
  rcases finalize_failed hdb hrun with rfl | hleft
  · exact absurd h.recorded (Nat.lt_irrefl _)
  · exact hleft

/-- A repetition changes nothing, and so does any number of them. -/
theorem retries_same (hdb : Consistent db) (hanswered : Answered input db.review)
    (attempts : List (FinalizeContext × FinalizeFaults)) :
    Run.after (retry input) attempts db = db := by
  induction attempts with
  | nil => rfl
  | cons attempt attempts ih =>
    obtain ⟨e, he⟩ := finalize_refused attempt.1 attempt.2 hdb hanswered
    have hsame : retry input attempt db = db := congrArg Prod.snd he
    rw [Run.after_cons, hsame, ih]

/-- However often a call that failed after its verdict was recorded is repeated, and whatever
strikes the repetitions: the log stays as the failure left it, and a repetition that nothing
strikes does not return. -/
theorem recorded_verdict_never_wakes (hdb : Consistent db)
    (hfailed : FailedAfterRecording ctx faults input db db')
    (attempts : List (FinalizeContext × FinalizeFaults)) (again : FinalizeContext)
    (requester : String) :
    Run.after (retry input) attempts db' = db' ∧
      ¬ Wakes again input requester (Run.after (retry input) attempts db') := by
  obtain ⟨hdb', hanswered⟩ := hfailed.answered hdb
  have hsame := retries_same hdb' hanswered attempts
  refine ⟨hsame, ?_⟩
  rw [hsame]
  rintro ⟨output, last, hreturns, -⟩
  obtain ⟨e, hrefused⟩ := finalize_refused again {} hdb' hanswered
  rw [hreturns] at hrefused
  cases (Prod.mk.inj hrefused).1

end

/-- A reviewer in its seat, and the review that it was placed for. -/
def seatedReviewer : List StoreCall := [
  .roster (.recordAgent { agentId := "main", role := .coordinator, parent := Mail.OPERATOR }),
  .roster (.recordAgent { agentId := "lead", role := .lead, parent := "main" }),
  .roster (.recordAgent { agentId := "reviewer@r1", role := .reviewer, parent := "lead" }),
  .review (.recordReviewRequested {
    reviewId := "r1", target := "main", branch := "parser", requestedBy := "lead" }),
  .dispatch (.recordPlacement "reviewer@r1" (.placed
    { role := "reviewer", workSize := .technical, reasoningBudget := .standard }
    { provider := .claude
      account := some "claude:max"
      model := "opus"
      effort := .high
      context := .standard }))]

def reviewerCall : FinalizeContext where
  agent := "reviewer@r1"
  delivery := .inProcess
  profiles := .ok none

def parserIssues : ReviewFinalizeInput where
  target := "main"
  branch := "parser"
  reviewId := "r1"
  verdict := .issues
  blockers := [⟨"the parser loops on an empty line"⟩]
  suggestions := []

/-- The mail store is locked when the wake is sent. -/
def lockedWake : FinalizeFaults where
  wake := some "database is locked"

/-- What the locked mail store leaves behind. -/
def unwoken : Db :=
  (reviewFinalizeTool reviewerCall lockedWake parserIssues).exec
    (storeRun seatedReviewer .atRest)

theorem parserIssues_failed : FailedAfterRecording reviewerCall lockedWake parserIssues
    (storeRun seatedReviewer .atRest) unwoken := by
  have hfails : (reviewFinalizeTool reviewerCall lockedWake parserIssues
      (storeRun seatedReviewer .atRest)).1 = .error "database is locked" := by
    decide +kernel
  refine ⟨⟨"database is locked", ?_⟩, by decide +kernel⟩
  rw [unwoken, Proc.exec, ← hfails]

theorem recorded_verdict_never_wakes_lead :
    Run.after (retry parserIssues) [(reviewerCall, {}), (reviewerCall, lockedWake)] unwoken =
        unwoken ∧
      ¬ Wakes reviewerCall parserIssues "lead"
        (Run.after (retry parserIssues) [(reviewerCall, {}), (reviewerCall, lockedWake)]
          unwoken) :=
  recorded_verdict_never_wakes (storeRun_consistent (.empty _)) parserIssues_failed _ _ _

/-- The reviewer repeats the call once the mail store answers again, and is refused. -/
theorem retried_verdict_wakes_nobody :
    ¬ ∀ (clock : ℕ → ℕ) (before : List StoreCall) (ctx : FinalizeContext)
      (faults : FinalizeFaults) (input : ReviewFinalizeInput) (db' : Db)
      (request : ReviewRequestRecord),
      FailedAfterRecording ctx faults input (storeRun before { clock }) db' →
      selectReviewRequest db'.review input.target input.branch = some request →
      ∀ attempts, Wakes ctx input request.requestedBy (Run.after (retry input) attempts db') := by
  intro hall
  have hrequest : (selectReviewRequest unwoken.review "main" "parser").isSome = true := by
    decide +kernel
  obtain ⟨request, hrequest⟩ := Option.isSome_iff_exists.1 hrequest
  obtain ⟨output, last, hreturns, -⟩ := hall (fun _ => 0) seatedReviewer reviewerCall lockedWake
    parserIssues unwoken request parserIssues_failed hrequest []
  have hrefused : (reviewFinalizeTool reviewerCall {} parserIssues unwoken).1.isOk = false := by
    decide +kernel
  rw [Run.after_nil] at hreturns
  rw [hreturns] at hrefused
  cases hrefused

end Orchestration.Replay
