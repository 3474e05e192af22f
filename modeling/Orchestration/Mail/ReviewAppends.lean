import Orchestration.Mail.Appends
import Orchestration.Mail.Store

/-!
# What the human-review operations append

A human review commits mail and review events in one batch. Read backwards from
its success, each operation tells which batch it was and what it had checked.
-/

namespace Orchestration.Mail

open Fallible Transaction
open Orchestration.Review (ReviewRequested ReviewRequestRecord ReviewVerdictRecorded Carries
  activeSerializedFromEvents selectReviewRequest ensureReviewTables_bind readingSlot_bind
  makeReviewVerdictEvent carries_serialized carries_requested carries_verdict)

/-- The slot event of a batch: there is one exactly when the slot is free. -/
inductive TakesSlot (db : Db) (target branch : String) : List (NewEvent Payload) → Prop where
  | free {slot : NewEvent Payload} (hfree : activeSerializedFromEvents db target = none)
      (hslot : Carries slot (.serialized ⟨target, branch⟩)) : TakesSlot db target branch [slot]
  | held (hheld : activeSerializedFromEvents db target = some branch) :
      TakesSlot db target branch []

/-- The slot event of a batch with a verdict: there is one exactly when an `ISSUES` verdict
finds the branch holding the slot. -/
inductive ReleasesSlot (db : Db) (v : ReviewVerdictRecorded) : List (NewEvent Payload) → Prop where
  | issues {release : NewEvent Payload} (hissues : v.verdict = .issues)
      (hheld : activeSerializedFromEvents db v.target = some v.branch)
      (hrelease : Carries release (.serialized ⟨v.target, v.branch⟩)) : ReleasesSlot db v [release]
  | free (hissues : v.verdict = .issues) (hfree : activeSerializedFromEvents db v.target = none) :
      ReleasesSlot db v []
  | pass (hpass : v.verdict = .pass) : ReleasesSlot db v []

section

variable {db db' : Db} (hdb : Consistent db)
include hdb

theorem repeatHumanReview_eq_ok {envelope : MailEnvelope} {request : ReviewRequested}
    {existing : DeliveredMail} {result : DeliveredMail × ReviewRequestRecord}
    (h : repeatHumanReview envelope request existing db = .ok (result, db')) :
    ∃ slot, TakesSlot db request.target request.branch slot ∧ db.commitAll slot = .ok db' := by
  simp only [repeatHumanReview, Review.reading_bind hdb] at h
  cases hsame : (selectReviewRequest db.review request.target request.branch).filter
      (·.reviewId == request.reviewId) with
  | none => simp [hsame] at h
  | some existingRequest =>
    simp only [hsame, Tx.liftM_bind_eq_ok, readingSlot_bind] at h
    obtain ⟨-, -, h⟩ := h
    cases hslot : activeSerializedFromEvents db request.target with
    | some active =>
      simp only [hslot, Tx.liftM_bind_eq_ok, refuse_eq_ok, Decidable.not_not, Tx.pure_eq_ok] at h
      obtain ⟨-, rfl, -, rfl⟩ := h
      exact ⟨[], .held hslot, rfl⟩
    | none =>
      simp only [hslot, Tx.liftM_bind_eq_ok] at h
      obtain ⟨slot, hmake, h⟩ := h
      obtain ⟨_, _, hrecord, h⟩ := Tx.bind_eq_ok.1 h
      obtain ⟨-, rfl⟩ := Tx.pure_eq_ok.1 h
      refine ⟨_, .free hslot (carries_serialized hmake), (recordAll_commitAll ?_ hrecord).2⟩
      simp only [List.mem_singleton, forall_eq]
      rfl

theorem recordHumanReview_eq_ok {envelope : MailEnvelope} {request : ReviewRequested}
    {result : DeliveredMail × ReviewRequestRecord}
    (h : recordHumanReview envelope request db = .ok (result, db')) :
    ∃ slot requested mail, TakesSlot db request.target request.branch slot ∧
      Carries requested (.requested request) ∧ makeMailEvent envelope = .ok mail ∧
      db.commitAll (slot ++ [requested, toProject mail]) = .ok db' := by
  obtain ⟨_, _, havailable, h⟩ := Tx.bind_eq_ok.1 h
  obtain rfl := Review.assertReviewIdAvailableInDb_eq_ok hdb havailable
  simp only [readingSlot_bind, Tx.liftM_bind_eq_ok, whenSome_eq_ok, refuse_eq_ok,
    Decidable.not_not] at h
  obtain ⟨-, hholder, slot, hslot, requested, hrequested, mail, hmail, h⟩ := h
  obtain ⟨stored, last, hrecord, h⟩ := Tx.bind_eq_ok.1 h
  have htakes : TakesSlot db request.target request.branch slot ∧
      ∀ event ∈ slot, Owns mailStoreProjectors event.payload := by
    unfold slotClaim at hslot
    split at hslot
    · next hfree =>
      simp only [bind_eq_ok, pure_eq_ok] at hslot
      obtain ⟨e, he, rfl⟩ := hslot
      refine ⟨.free hfree (carries_serialized he), ?_⟩
      simp only [List.mem_singleton, forall_eq]
      rfl
    · next hnone =>
      obtain rfl := pure_eq_ok.1 hslot
      obtain ⟨active, hactive⟩ := Option.ne_none_iff_exists'.1 hnone
      exact ⟨.held (hholder active hactive ▸ hactive), by simp⟩
  have howns : ∀ event ∈ slot ++ [Review.toProject requested, toProject mail],
      Owns mailStoreProjectors event.payload := by
    intro event hevent
    simp only [List.mem_append, List.mem_cons, List.not_mem_nil, or_false] at hevent
    rcases hevent with hevent | rfl | rfl
    · exact htakes.2 event hevent
    · rfl
    · rfl
  have hcommit := (recordAll_commitAll howns hrecord).2
  refine ⟨slot, Review.toProject requested, mail, htakes.1, carries_requested hrequested, hmail, ?_⟩
  have hlast : Consistent last := hdb.commitAll hcommit
  rw [Review.reading_bind hlast, Tx.liftM_bind_eq_ok] at h
  obtain ⟨record, -, h⟩ := h
  rw [reading_bind] at h
  cases hrow : selectMailBySeq last.mail (lastSeq stored) with
  | some delivered =>
    simp only [hrow, Tx.pure_eq_ok] at h
    exact h.2 ▸ hcommit
  | none =>
    simp only [hrow, reading_bind, Tx.liftM_bind_eq_ok, Tx.pure_eq_ok] at h
    obtain ⟨_, -, -, rfl⟩ := h
    exact hcommit

omit hdb in
theorem reviewReplyRelease_eq_ok {v : ReviewVerdictRecorded} {release : List (NewEvent Payload)}
    (h : reviewReplyRelease v db = .ok (release, db')) :
    db = db' ∧ ReleasesSlot db v release ∧
      ∀ event ∈ release, Owns mailStoreProjectors event.payload := by
  unfold reviewReplyRelease at h
  by_cases hissues : v.verdict = .issues
  · rw [if_pos hissues, readingSlot_bind] at h
    cases hslot : activeSerializedFromEvents db v.target with
    | none =>
      simp only [hslot, Tx.pure_eq_ok] at h
      obtain ⟨rfl, rfl⟩ := h
      exact ⟨rfl, .free hissues hslot, by simp⟩
    | some active =>
      simp only [hslot, Tx.liftM_bind_eq_ok, refuse_eq_ok, Decidable.not_not, Tx.pure_eq_ok] at h
      obtain ⟨-, rfl, slot, hmake, rfl, rfl⟩ := h
      refine ⟨rfl, .issues hissues hslot (carries_serialized hmake), ?_⟩
      simp only [List.mem_singleton, forall_eq]
      rfl
  · rw [if_neg hissues] at h
    obtain ⟨rfl, rfl⟩ := Tx.pure_eq_ok.1 h
    have hpass : v.verdict = .pass := by
      cases hv : v.verdict with
      | pass => rfl
      | issues => exact absurd hv hissues
    exact ⟨rfl, .pass hpass, by simp⟩

theorem recordReviewReply_eq_ok {current delivered : DeliveredMail} {envelope : MailEnvelope}
    {v : ReviewVerdictRecorded} (h : recordReviewReply current envelope v db = .ok (delivered, db')) :
    current.resolved = false ∧
      (∃ request, selectReviewRequest db.review v.target v.branch = some request ∧
        assertHumanRequest current request v = .ok ()) ∧
      ∃ scope verdict release mail, Carries verdict (.verdict { v with scope }) ∧
        ReleasesSlot db v release ∧ makeMailEvent envelope = .ok mail ∧
        db.commitAll (verdict :: release ++ [toProject mail]) = .ok db' := by
  simp only [recordReviewReply, Tx.liftM_bind_eq_ok, Review.reading_bind hdb, orThrow_eq_ok,
    refuse_eq_ok, Bool.not_eq_true] at h
  obtain ⟨_, hresolved, request, hrequest, ⟨⟩, hassert, h⟩ := h
  refine ⟨hresolved, ⟨request, hrequest, hassert⟩, ?_⟩
  obtain ⟨prepared, _, hprepare, h⟩ := Tx.bind_eq_ok.1 h
  obtain ⟨rfl, scope, rfl⟩ := Review.prepareReviewVerdictForDb_eq_ok hdb hprepare
  rw [Tx.liftM_bind_eq_ok] at h
  obtain ⟨verdict, hverdict, h⟩ := h
  obtain ⟨release, _, hrelease, h⟩ := Tx.bind_eq_ok.1 h
  obtain ⟨rfl, hreleases, hrowns⟩ := reviewReplyRelease_eq_ok hrelease
  rw [Tx.liftM_bind_eq_ok] at h
  obtain ⟨mail, hmail, h⟩ := h
  obtain ⟨stored, last, hrecord, h⟩ := Tx.bind_eq_ok.1 h
  have howns : ∀ event ∈ Review.toProject verdict :: release ++ [toProject mail],
      Owns mailStoreProjectors event.payload := by
    intro event hevent
    simp only [List.cons_append, List.mem_cons, List.mem_append, List.not_mem_nil, or_false]
      at hevent
    rcases hevent with rfl | hevent | rfl
    · rfl
    · exact hrowns event hevent
    · rfl
  have hcommit := (recordAll_commitAll howns hrecord).2
  have hreleases' : ReleasesSlot db v release := by
    cases hreleases with
    | issues hissues hheld hcarries => exact .issues hissues hheld hcarries
    | free hissues hfree => exact .free hissues hfree
    | pass hpass => exact .pass hpass
  refine ⟨scope, _, release, mail, carries_verdict hverdict, hreleases', hmail, ?_⟩
  rw [reading_bind] at h
  cases hrow : selectMailBySeq last.mail (lastSeq stored) with
  | some delivered =>
    simp only [hrow, Tx.pure_eq_ok] at h
    exact h.2 ▸ hcommit
  | none =>
    simp only [hrow, reading_bind, Tx.liftM_eq_ok] at h
    obtain ⟨-, rfl⟩ := h
    exact hcommit

/-- What a human-review request commits: for a mail that is there already at most the slot, and
otherwise the slot, the request and the mail. -/
theorem requestHumanReview_spec {envelope : MailEnvelope} {request : ReviewRequested}
    {result : DeliveredMail × ReviewRequestRecord}
    (h : MailStore.requestHumanReview envelope request db = (.ok result, db')) :
    envelope.type = .reviewRequest ∧ envelope.from = request.requestedBy ∧
      envelope.idempotencyKey = some (reviewRequestIdempotencyKey request.reviewId) ∧
      request.reviewerKind = some .human ∧
      ∃ slot, TakesSlot db request.target request.branch slot ∧
        (((existingForKey db.mail envelope).isSome ∧ db.commitAll slot = .ok db') ∨
        (existingForKey db.mail envelope = none ∧ ∃ requested mail,
          Carries requested (.requested request) ∧ makeMailEvent envelope = .ok mail ∧
          db.commitAll (slot ++ [requested, toProject mail]) = .ok db')) := by
  simp only [MailStore.requestHumanReview, Proc.liftM_bind_eq_ok, refuse_eq_ok,
    Decidable.not_not] at h
  obtain ⟨_, -, _, htype, _, hfrom, _, hkey, _, hkind, h⟩ := h
  refine ⟨htype, hfrom, hkey, hkind, ?_⟩
  rw [transaction_eq_ok, ensureReviewTables_bind hdb, reading_bind] at h
  cases hexisting : existingForKey db.mail envelope with
  | some existing =>
    simp only [hexisting] at h
    obtain ⟨slot, hslot, hcommit⟩ := repeatHumanReview_eq_ok hdb h
    exact ⟨slot, hslot, .inl ⟨rfl, hcommit⟩⟩
  | none =>
    simp only [hexisting] at h
    obtain ⟨slot, requested, mail, hslot, hrequested, hmail, hcommit⟩ :=
      recordHumanReview_eq_ok hdb h
    exact ⟨slot, hslot, .inr ⟨rfl, requested, mail, hrequested, hmail, hcommit⟩⟩

/-- What an answer to a human-review request commits: nothing when the response is there already,
and otherwise the verdict, the release that goes with it and the response. -/
theorem replyWithReviewVerdict_spec {toMail : DeliveredMail} {draft : ReplyDraft}
    {v : ReviewVerdictRecorded} {delivered : DeliveredMail}
    (h : MailStore.replyWithReviewVerdict toMail draft v db = (.ok delivered, db')) :
    ∃ current envelope, selectMailBySeq db.mail toMail.seq = some current ∧
      assertReviewReply current draft v = .ok () ∧
      buildReplyEnvelope current draft = .ok envelope ∧ v.reviewer = envelope.from ∧
      ((existingForKey db.mail envelope = some delivered ∧
        assertSameReviewReply current delivered draft envelope = .ok () ∧ db = db') ∨
      (existingForKey db.mail envelope = none ∧ current.resolved = false ∧
        (∃ request, selectReviewRequest db.review v.target v.branch = some request ∧
          assertHumanRequest current request v = .ok ()) ∧
        ∃ scope verdict release mail, Carries verdict (.verdict { v with scope }) ∧
          ReleasesSlot db v release ∧ makeMailEvent envelope = .ok mail ∧
          db.commitAll (verdict :: release ++ [toProject mail]) = .ok db')) := by
  rw [MailStore.replyWithReviewVerdict, transaction_eq_ok, ensureReviewTables_bind hdb,
    reading_bind] at h
  simp only [Tx.liftM_bind_eq_ok, orThrow_eq_ok, refuse_eq_ok, Decidable.not_not] at h
  obtain ⟨current, hcurrent, _, hassert, envelope, henvelope, _, hreviewer, h⟩ := h
  refine ⟨current, envelope, hcurrent, hassert, henvelope, hreviewer, ?_⟩
  rw [reading_bind] at h
  cases hexisting : existingForKey db.mail envelope with
  | some existing =>
    simp only [hexisting, Tx.liftM_bind_eq_ok, Tx.pure_eq_ok] at h
    obtain ⟨_, hsame, rfl, hdb'⟩ := h
    exact .inl ⟨rfl, hsame, hdb'⟩
  | none =>
    simp only [hexisting] at h
    obtain ⟨hresolved, hrequest, hcommits⟩ := recordReviewReply_eq_ok hdb h
    exact .inr ⟨rfl, hresolved, hrequest, hcommits⟩

omit hdb in
theorem requestHumanReview_atomic (envelope : MailEnvelope) (request : ReviewRequested) :
    Proc.Atomic (MailStore.requestHumanReview envelope request) := by
  refine (Proc.readOnly_liftM _).atomic_bind fun _ => (Proc.readOnly_liftM _).atomic_bind fun _ => ?_
  refine (Proc.readOnly_liftM _).atomic_bind fun _ => (Proc.readOnly_liftM _).atomic_bind fun _ => ?_
  exact (Proc.readOnly_liftM _).atomic_bind fun _ => Proc.atomic_transaction _

omit hdb in
theorem replyWithReviewVerdict_atomic (toMail : DeliveredMail) (draft : ReplyDraft)
    (v : ReviewVerdictRecorded) :
    Proc.Atomic (MailStore.replyWithReviewVerdict toMail draft v) := Proc.atomic_transaction _

end

end Orchestration.Mail
