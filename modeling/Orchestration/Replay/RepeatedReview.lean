import Orchestration.Mail.Idempotency
import Orchestration.Replay.MergeSlot
import Orchestration.Review.Requests

/-!
# Repeating a human-review request

A human-review request finds its mail by the key, its request row by the review id, and
takes the merge slot if the slot is free. The last of these asks nobody whether the review
is still open, so a repetition of an answered request takes the slot again.
-/

namespace Orchestration.Replay

open Fallible Transaction
open Orchestration.Review (ReviewRequested ReviewRequestRecord Carries MergeSerialized
  selectReviewRequest activeSerializedFromEvents makeMergeSerializedEvent readingSlot_bind
  ensureReviewTables ensureReviewTables_bind carries_serialized)
open Orchestration.Mail (MailEnvelope DeliveredMail TakesSlot KeyedAs existingForKey
  repeatHumanReview recordHumanReview assertSameHumanReviewRequest)

/-- The latest request of the pair is this one, and the slot it had taken is free. -/
structure RetakesSlot (db : Db) (request : ReviewRequested) : Prop where
  free : slots db request.target = none
  latest : ∃ record, selectReviewRequest db.review request.target request.branch = some record ∧
    record.reviewId = request.reviewId ∧
    assertSameHumanReviewRequest record request "mail human review request" = .ok ()
  /-- The log is not full. -/
  room : db.nextSeq ≤ Js.maxSafeInteger

/-! ## The mail of a request stays -/

/-- Some mail carries the key of the envelope. -/
def Delivered (envelope : MailEnvelope) (db : Db) : Prop :=
  ∃ row ∈ db.mail.inbox, KeyedAs envelope row

section

variable {db db' : Db} {envelope : MailEnvelope}

theorem Delivered.commit {event : NewEvent Payload} (h : Delivered envelope db)
    (hcommit : db.commit event = .ok db') : Delivered envelope db' := by
  obtain ⟨row, hrow, hkeyed⟩ := h
  obtain ⟨row', hrow', hfixed⟩ := Mail.row_persists hcommit hrow
  exact ⟨row', hrow', hkeyed.congr hfixed⟩

theorem Delivered.emits {P : EventClass} (h : Delivered envelope db) (hemits : Emits P db db') :
    Delivered envelope db' :=
  hemits.preserves (Delivered envelope) (fun _ _ _ _ hs hcommit => hs.commit hcommit) h

theorem Delivered.storeRun (hdb : Consistent db) (h : Delivered envelope db)
    (calls : List StoreCall) : Delivered envelope (storeRun calls db) := by
  have hboth : Consistent (Replay.storeRun calls db) ∧
      Delivered envelope (Replay.storeRun calls db) := by
    refine Run.always (fun s => Consistent s ∧ Delivered envelope s) ?_ ⟨hdb, h⟩
    rintro call s ⟨hs, hdelivered⟩
    exact ⟨StoreCall.exec_consistent hs call, hdelivered.emits (StoreCall.exec_emits hs call)⟩
  exact hboth.2

theorem Delivered.existing (h : Delivered envelope db) :
    ∃ existing, existingForKey db.mail envelope = some existing := by
  obtain ⟨row, hrow, hkeyed⟩ := h
  refine Option.ne_none_iff_exists'.1 fun hnone => ?_
  exact Mail.existingForKey_eq_none_iff.1 hnone row hrow hkeyed

theorem delivered_of_existing (h : (existingForKey db.mail envelope).isSome) :
    Delivered envelope db := by
  obtain ⟨existing, hexisting⟩ := Option.isSome_iff_exists.1 h
  obtain ⟨hmem, hsame⟩ := Mail.existingForKey_eq_some hexisting 0 0
  exact ⟨existing, hmem, Mail.keyedAs_of_sameKey hsame⟩

/-- A delivered mail has its key in the table, whether the fold added it or met a duplicate. -/
theorem delivered_of_commit {e : NewEvent Mail.MailEvent}
    (hkey : envelope.idempotencyKey.isSome = true) (he : Mail.makeMailEvent envelope = .ok e)
    (h : db.commit (Mail.toProject e) = .ok db') : Delivered envelope db' := by
  rcases Mail.commit_mail he h with ⟨hsame, old, hold, hkeyed⟩ | hadded
  · exact ⟨old, hsame ▸ hold, Mail.keyedAs_of_sameKey hkeyed⟩
  · exact ⟨_, (hadded.mem _).2 (.inl rfl), Mail.keyedAs_deliveredRow hkey _ _⟩

/-- After a request its mail is there. -/
theorem delivered_of_requested (hdb : Consistent db) {request : ReviewRequested}
    {result : DeliveredMail × ReviewRequestRecord}
    (h : Mail.MailStore.requestHumanReview envelope request db = (.ok result, db')) :
    Delivered envelope db' := by
  obtain ⟨-, -, hkey, -, slot, -, ⟨hexisting, hcommit⟩ |
    ⟨-, requested, mail, -, hmail, hcommit⟩⟩ := Mail.requestHumanReview_spec hdb h
  · exact (delivered_of_existing hexisting).emits
      (Emits.of_commitAll (P := AnyEvent) (fun _ _ _ => trivial) hcommit)
  · obtain ⟨mid, -, hrest⟩ := Db.commitAll_append.1 hcommit
    obtain ⟨mid', -, hlast⟩ := Db.commitAll_cons.1 hrest
    obtain ⟨last, hlast', hnil⟩ := Db.commitAll_cons.1 hlast
    obtain rfl := Except.ok.inj hnil
    exact delivered_of_commit (by rw [hkey]; rfl) hmail hlast'

end

/-! ## What the repetition does -/

/-- What a request that once succeeded does when it is made again. -/
theorem requestHumanReview_again {envelope : MailEnvelope} {request : ReviewRequested}
    {s s' : Db} {result : DeliveredMail × ReviewRequestRecord}
    (h : Mail.MailStore.requestHumanReview envelope request s = (.ok result, s')) (db : Db) :
    Mail.MailStore.requestHumanReview envelope request db =
      transaction (do
        ensureReviewTables
        match ← Mail.reading (existingForKey · envelope) with
        | some existing => repeatHumanReview envelope request existing
        | none => recordHumanReview envelope request) db := by
  simp only [Mail.MailStore.requestHumanReview, Proc.liftM_bind_eq_ok] at h
  obtain ⟨payload, hvalid, _, htype, _, hfrom, _, hkey, _, hkind, -⟩ := h
  simp only [Mail.MailStore.requestHumanReview, hvalid, htype, hfrom, hkey, hkind]
  rfl

section

variable {db db' : Db} (hdb : Consistent db) {envelope : MailEnvelope} {request : ReviewRequested}
  {existing : DeliveredMail}
include hdb

/-- Only the latest request takes a free slot again. -/
theorem retakesSlot_of_repeat {result : DeliveredMail × ReviewRequestRecord}
    (h : repeatHumanReview envelope request existing db = .ok (result, db'))
    (hfree : slots db request.target = none) : RetakesSlot db request := by
  have hslot : activeSerializedFromEvents db request.target = none := hfree
  simp only [repeatHumanReview, Review.reading_bind hdb] at h
  cases hsame : (selectReviewRequest db.review request.target request.branch).filter
      (·.reviewId == request.reviewId) with
  | none => simp [hsame] at h
  | some record =>
    simp only [hsame, Tx.liftM_bind_eq_ok, readingSlot_bind, hslot] at h
    obtain ⟨_, hagrees, slot, hmake, h⟩ := h
    obtain ⟨stored, last, hrecord, -⟩ := Tx.bind_eq_ok.1 h
    obtain ⟨hrow, hid⟩ := Option.filter_eq_some_iff.1 hsame
    refine ⟨hfree, ⟨record, hrow, beq_iff_eq.1 hid, hagrees⟩, ?_⟩
    have howns : ∀ event ∈ [Review.toProject slot],
        Owns Mail.mailStoreProjectors event.payload := by
      simp only [List.mem_singleton, forall_eq]
      rfl
    obtain ⟨mid, hcommit, -⟩ := Db.commitAll_cons.1 (recordAll_commitAll howns hrecord).2
    exact (commit_eq_ok.1 hcommit).1

/-- And it does. -/
theorem RetakesSlot.repeat (h : RetakesSlot db request) :
    ∃ result last, repeatHumanReview envelope request existing db = .ok (result, last) ∧
      slots last request.target = some request.branch := by
  obtain ⟨hfree, ⟨record, hrow, hid, hagrees⟩, hroom⟩ := h
  have hslot : activeSerializedFromEvents db request.target = none := hfree
  obtain ⟨htarget, hbranch⟩ := Review.selectReviewRequest_named hdb hrow
  have hmake := Review.makeMergeSerializedEvent_eq (m := ⟨request.target, request.branch⟩) htarget
    hbranch
  obtain ⟨last, hcommit⟩ := Review.commit_serialized hroom hmake
  have hsame : (selectReviewRequest db.review request.target request.branch).filter
      (·.reviewId == request.reviewId) = some record :=
    Option.filter_eq_some_iff.2 ⟨hrow, beq_iff_eq.2 hid⟩
  refine ⟨(existing, record), last, ?_, ?_⟩
  · simp only [repeatHumanReview, Review.reading_bind hdb, hsame, Tx.liftM_bind_eq_ok,
      readingSlot_bind, hslot]
    refine ⟨(), hagrees, _, hmake, ?_⟩
    exact Tx.bind_eq_ok.2 ⟨_, last, Review.recordAll_of_commit (by rfl) hcommit, rfl⟩
  · rw [slots_of_acquire (carries_serialized hmake) hfree hcommit, Function.update_self]

end

/-- A human-review request that once succeeded, made again in any state the stores may reach: it
leaves the slots, the review rows and the mail rows as they are, unless it is the latest request of
its pair, the slot is free and the log has room. Then it takes the slot. -/
theorem repeated_request_iff (clock : ℕ → ℕ) (before after : List StoreCall)
    (envelope : MailEnvelope) (request : ReviewRequested)
    (result : DeliveredMail × ReviewRequestRecord) (requested : Db)
    (hrequested : Mail.MailStore.requestHumanReview envelope request
      (storeRun before { clock }) = (.ok result, requested)) :
    let db := storeRun after requested
    let db' := (Mail.MailStore.requestHumanReview envelope request).exec db
    slots db' = slots db ∧ db'.review = db.review ∧ db'.mail = db.mail ↔
      ¬ RetakesSlot db request := by
  intro db db'
  have hbefore : Consistent (storeRun before { clock }) := storeRun_consistent (.empty clock)
  have hafter : Consistent requested := by
    have hexec := StoreCall.exec_consistent hbefore
      (.mail .live (.requestHumanReview envelope request))
    have hsame : (Mail.MailStore.requestHumanReview envelope request).exec
        (storeRun before { clock }) = requested := by
      rw [Proc.exec, hrequested]
    exact hsame ▸ hexec
  have hdb : Consistent db := storeRun_consistent hafter
  obtain ⟨existing, hexisting⟩ :=
    ((delivered_of_requested hbefore hrequested).storeRun hafter after).existing
  have hagain : ∀ {r s}, Mail.MailStore.requestHumanReview envelope request db = (.ok r, s) ↔
      repeatHumanReview envelope request existing db = .ok (r, s) := by
    intro r s
    rw [requestHumanReview_again hrequested db, transaction_eq_ok, ensureReviewTables_bind hdb,
      Mail.reading_bind, hexisting]
  constructor
  · rintro ⟨hslots, -, -⟩ hretakes
    obtain ⟨r, last, hrepeat, htaken⟩ := hretakes.repeat hdb
    have hlast : db' = last := by
      change (Mail.MailStore.requestHumanReview envelope request db).2 = last
      rw [hagain.2 hrepeat]
    rw [← hlast, hslots, hretakes.free] at htaken
    cases htaken
  · intro hretakes
    have hsame : db' = db := by
      refine (Mail.requestHumanReview_atomic envelope request).exec (R := fun s s' => s' = s) rfl
        fun r s hok => ?_
      have hrepeat := hagain.1 hok
      obtain ⟨slot, htakes, hcommit⟩ := Mail.repeatHumanReview_eq_ok hdb hrepeat
      cases htakes with
      | held => exact (Except.ok.inj hcommit).symm
      | free hfree => exact absurd (retakesSlot_of_repeat hdb hrepeat hfree) hretakes
    rw [hsame]
    exact ⟨rfl, rfl, rfl⟩


/-- The operator is asked to review a branch. -/
def askOperator : MailEnvelope where
  type := .reviewRequest
  «to» := Mail.OPERATOR
  «from» := "manager"
  subject := "review the parser"
  body := "the branch is ready"
  idempotencyKey := some (Mail.reviewRequestIdempotencyKey "r1")

def operatorReview : ReviewRequested where
  reviewId := "r1"
  target := "main"
  branch := "parser"
  reviewerKind := some .human
  requestedBy := "manager"

/-- The project once the operator is asked. -/
def asked : Db := (Mail.MailStore.requestHumanReview askOperator operatorReview).exec .atRest

/-- The operator finds issues, which gives the slot back. -/
def operatorFindsIssues : StoreCall :=
  .mail .live (.replyWithReviewVerdict
    (Mail.deliveredRow askOperator 3 0)
    { type := .reviewResponse
      subject := "issues"
      body := "it does not parse"
      idempotencyKey := some "review-response:r1"
      reviewVerdict := some .issues }
    { reviewId := "r1"
      target := "main"
      branch := "parser"
      reviewer := Mail.OPERATOR
      verdict := .issues
      blockers := [{ summary := "it does not parse" }] })

theorem asked_eq_ok : ∃ result, Mail.MailStore.requestHumanReview askOperator operatorReview
    .atRest = (.ok result, asked) := by
  have hok : (Mail.MailStore.requestHumanReview askOperator operatorReview
      .atRest).1.toOption.isSome = true := by
    decide +kernel
  cases hresult : (Mail.MailStore.requestHumanReview askOperator operatorReview .atRest).1 with
  | ok result => exact ⟨result, Prod.ext hresult rfl⟩
  | error e => simp [hresult, Except.toOption] at hok

theorem repeated_request_iff_of_asked :
    slots ((Mail.MailStore.requestHumanReview askOperator operatorReview).exec asked) = slots asked ∧
      ((Mail.MailStore.requestHumanReview askOperator operatorReview).exec asked).review =
        asked.review ∧
      ((Mail.MailStore.requestHumanReview askOperator operatorReview).exec asked).mail =
        asked.mail := by
  obtain ⟨result, hasked⟩ := asked_eq_ok
  have hheld : slots asked "main" = some "parser" := by decide +kernel
  refine (repeated_request_iff (fun _ => 0) [] [] askOperator operatorReview result asked hasked).2 ?_
  intro hretakes
  have hfree : slots asked "main" = none := hretakes.free
  rw [hheld] at hfree
  cases hfree

/-- Once the operator has found issues, a repetition of the request takes the slot again. -/
theorem repeated_request_takes_slot :
    ¬ ∀ (clock : ℕ → ℕ) (before after : List StoreCall) (envelope : MailEnvelope)
      (request : ReviewRequested) (result : DeliveredMail × ReviewRequestRecord) (requested : Db),
      Mail.MailStore.requestHumanReview envelope request (storeRun before { clock }) =
        (.ok result, requested) →
      (Review.selectVerdict (storeRun after requested).review request.target request.branch none).any
        (·.reviewId == request.reviewId) = true →
      slots ((Mail.MailStore.requestHumanReview envelope request).exec (storeRun after requested))
        request.target = slots (storeRun after requested) request.target := by
  intro hall
  obtain ⟨result, hasked⟩ := asked_eq_ok
  have hanswered : (Review.selectVerdict (storeRun [operatorFindsIssues] asked).review "main"
      "parser" none).any (·.reviewId == "r1") = true := by
    decide +kernel
  have hsame := hall (fun _ => 0) [] [operatorFindsIssues] askOperator operatorReview result asked
    hasked hanswered
  have hchanged : slots ((Mail.MailStore.requestHumanReview askOperator operatorReview).exec
      (storeRun [operatorFindsIssues] asked)) "main" ≠
        slots (storeRun [operatorFindsIssues] asked) "main" := by
    decide +kernel
  exact hchanged hsame

end Orchestration.Replay
