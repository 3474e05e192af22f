import Orchestration.Mail.Idempotency
import Orchestration.Replay.Recovery
import Orchestration.Review.Requests
import Orchestration.Review.Strikes

/-!
# Calls of the strike policy

A call of the policy ends in one of four ways. All that it appends is a notification and
the strike itself, and apart from it no call of the stores strikes a branch: they leave its
count, or record a `PASS` that resets it.
-/

namespace Orchestration.Replay

open Fallible Transaction
open Orchestration.Review (ReviewAction StrikeEnforcementDeps StrikeEnforcementContext
  StrikePolicyAction applyStrikePolicy notifyStrike planStrike nextReviewAction strikeReason
  selectReviewStrike selectStrikeCount recordStrike makeReviewStrikeEvent ReviewStrike Carries
  Kickback strikeStates strikeStatesStep consumedStrikes visibleStrikes upToDate_of_consistent)

/-! ## What the other calls do to the strikes -/

/-- The one call of the stores that records a strike. -/
def StoreCall.strikes : StoreCall → Bool
  | review (.recordStrike _) => true
  | _ => false

/-- An event that is no strike. -/
def NoStrike : EventClass := fun _ event => ∀ s, event.payload ≠ .review (.strike s)

theorem noStrike_of_carries {event : NewEvent Payload} {payload : Review.ReviewEvent}
    (hevent : Carries event payload) (hpayload : ∀ s, payload ≠ .strike s) (db : Db) :
    NoStrike db event := by
  intro s h
  rw [hevent.payload_eq] at h
  exact hpayload s (Payload.review.inj h)

section

variable {db : Db} (hdb : Consistent db)
include hdb

theorem requestHumanReview_noStrike (envelope : Mail.MailEnvelope)
    (request : Review.ReviewRequested) :
    Emits NoStrike db ((Mail.MailStore.requestHumanReview envelope request).exec db) := by
  refine (Mail.requestHumanReview_atomic envelope request).exec .refl fun result db' h => ?_
  obtain ⟨-, -, -, -, slot, hslot, hcommits⟩ := Mail.requestHumanReview_spec hdb h
  have htoggle : ∀ event ∈ slot, ∀ s, NoStrike s event := by
    cases hslot with
    | held => simp
    | free _ hevent =>
      intro event hmem
      rw [List.mem_singleton.1 hmem]
      exact noStrike_of_carries hevent (by simp)
  rcases hcommits with ⟨-, hcommit⟩ | ⟨-, requested, mail, hrequested, -, hcommit⟩
  · exact Emits.of_commitAll htoggle hcommit
  · refine Emits.of_commitAll (fun event hevent s => ?_) hcommit
    rcases List.mem_append.1 hevent with hevent | hevent
    · exact htoggle event hevent s
    · rcases List.mem_cons.1 hevent with rfl | hevent
      · exact noStrike_of_carries hrequested (by simp) s
      · rw [List.mem_singleton.1 hevent]
        exact fun _ heq => nomatch heq

theorem replyWithReviewVerdict_noStrike (toMail : Mail.DeliveredMail) (draft : Mail.ReplyDraft)
    (v : Review.ReviewVerdictRecorded) :
    Emits NoStrike db ((Mail.MailStore.replyWithReviewVerdict toMail draft v).exec db) := by
  refine (Mail.replyWithReviewVerdict_atomic toMail draft v).exec .refl fun delivered db' h => ?_
  obtain ⟨current, envelope, -, -, -, -, ⟨-, -, rfl⟩ |
    ⟨-, -, -, scope, verdict, release, mail, hverdict, hrelease, -, hcommit⟩⟩ :=
      Mail.replyWithReviewVerdict_spec hdb h
  · exact .refl
  · have htoggle : ∀ event ∈ release, ∀ s, NoStrike s event := by
      cases hrelease with
      | free | pass => simp
      | issues _ _ hevent =>
        intro event hmem
        rw [List.mem_singleton.1 hmem]
        exact noStrike_of_carries hevent (by simp)
    refine Emits.of_commitAll (fun event hevent s => ?_) hcommit
    rcases List.mem_append.1 hevent with hevent | hevent
    · rcases List.mem_cons.1 hevent with rfl | hevent
      · exact noStrike_of_carries hverdict (by simp) s
      · exact htoggle event hevent s
    · rw [List.mem_singleton.1 hevent]
      exact fun _ heq => nomatch heq

theorem reviewCall_noStrike {call : Review.ReviewCall}
    (hcall : (StoreCall.review call).strikes = false) : Emits NoStrike db (call.exec db) := by
  have hone : ∀ {db' : Db} {payload : Review.ReviewEvent}, (∀ s, payload ≠ .strike s) →
      (db = db' ∨ ∃ event, Carries event payload ∧ db.commit event = .ok db') →
      Emits NoStrike db db' := by
    rintro db' payload hpayload (rfl | ⟨event, hevent, hcommit⟩)
    · exact .refl
    · exact Emits.single (noStrike_of_carries hevent hpayload db) hcommit
  cases call with
  | recordVerdict v =>
    refine Proc.exec_transaction .refl fun row db' h => ?_
    obtain ⟨scope, hevent⟩ := Review.recordVerdict_spec hdb h
    exact hone (by simp) (.inr hevent)
  | recordReviewRequested r =>
    exact Proc.exec_transaction .refl fun _ _ h =>
      hone (by simp) (Review.recordReviewRequested_spec hdb h)
  | recordStrike strike => cases hcall
  | recordSerialized m =>
    exact Proc.exec_transaction .refl fun _ _ h =>
      hone (by simp) (.inr (Review.recordSerialized_spec hdb h))
  | acquireSerialized m =>
    refine Proc.exec_transaction .refl fun result db' h => ?_
    rcases Review.acquireSerialized_spec hdb h with ⟨-, -, hevent⟩ | ⟨rfl, -⟩
    · exact hone (by simp) (.inr hevent)
    · exact .refl
  | releaseSerialized m =>
    refine Proc.exec_transaction .refl fun result db' h => ?_
    rcases Review.releaseSerialized_spec hdb h with ⟨-, rfl⟩ | ⟨-, hevent⟩
    · exact .refl
    · exact hone (by simp) (.inr hevent)
  | recordVerdictAndRelease v =>
    refine Proc.exec_transaction .refl fun result db' h => ?_
    obtain ⟨scope, event, hevent, hrelease⟩ := Review.recordVerdictAndRelease_spec hdb h
    have hverdict := noStrike_of_carries hevent (by simp)
    rcases hrelease with ⟨-, hcommit⟩ | ⟨-, release, hrelease, hcommit⟩
    · refine Emits.of_commitAll (fun e he s => ?_) hcommit
      exact List.mem_singleton.1 he ▸ hverdict s
    · refine Emits.of_commitAll (fun e he s => ?_) hcommit
      rcases List.mem_cons.1 he with rfl | he
      · exact hverdict s
      · exact List.mem_singleton.1 he ▸ noStrike_of_carries hrelease (by simp) s
  | recordOverride o =>
    exact Proc.exec_transaction .refl fun _ _ h =>
      hone (by simp) (.inr (Review.recordOverride_spec hdb h))
  | read =>
    refine Proc.exec_transaction .refl fun result db' h => ?_
    rw [← bind_pure Review.ensureReviewTables, Review.ensureReviewTables_bind hdb,
      Tx.pure_eq_ok] at h
    exact h.2 ▸ .refl

theorem StoreCall.exec_noStrike {call : StoreCall} (hcall : call.strikes = false) :
    Emits NoStrike db (call.exec db) := by
  have hforeign : ∀ {P : EventClass} {db' : Db}, (∀ s event, P s event → NoStrike s event) →
      Emits P db db' → Emits NoStrike db db' := fun hP h => h.mono hP
  cases call with
  | review call => exact reviewCall_noStrike hdb hcall
  | worktree call =>
    refine hforeign ?_ call.exec_emits
    rintro s event (⟨payload, hpayload⟩ | ⟨type, payload, hpayload⟩) <;> simp [NoStrike, hpayload]
  | dispatch call =>
    refine hforeign ?_ (call.exec_emits hdb)
    rintro s event (⟨payload, hpayload⟩ | ⟨request, hrequested⟩)
    · simp [NoStrike, hpayload]
    · exact noStrike_of_carries hrequested (by simp) s
  | plan call | roster call | session call | archive call =>
    refine hforeign ?_ call.exec_emits
    rintro s event ⟨payload, hpayload⟩
    simp [NoStrike, hpayload]
  | mail delivery call =>
    cases hreviews : call.reviews with
    | false =>
      refine hforeign ?_ (Mail.MailCall.exec_mails hdb hreviews)
      rintro s event ⟨payload, hpayload⟩
      simp [NoStrike, hpayload]
    | true =>
      cases call with
      | requestHumanReview envelope request => exact requestHumanReview_noStrike hdb envelope request
      | replyWithReviewVerdict toMail draft v =>
        exact replyWithReviewVerdict_noStrike hdb toMail draft v
      | _ => cases hreviews

end

/-! ## The strikes after one event -/

/-- A `PASS` of the pair. -/
def isPassOf (pair : String × String) (event : StoredEvent Payload) : Bool :=
  match event.payload with
  | .review (.verdict v) => v.verdict = .pass ∧ (v.target, v.branch) = pair
  | _ => false

/-- How often the pair has passed. -/
def passes (pair : String × String) (db : Db) : ℕ := db.events.countP (isPassOf pair)

section

variable {db db' : Db} (hdb : Consistent db) {event : NewEvent Payload} (pair : String × String)
include hdb

theorem selectStrikeCount_eq : selectStrikeCount db.review pair.1 pair.2 =
    (visibleStrikes (strikeStates db.events) pair).length :=
  (upToDate_of_consistent hdb).counted pair.1 pair.2

theorem selectReviewStrike_iff (target branch reviewId : String) :
    selectReviewStrike db.review target branch reviewId = true ↔
      reviewId ∈ consumedStrikes (strikeStates db.events) (target, branch) :=
  (upToDate_of_consistent hdb).struck target branch reviewId

/-- An event that is no strike leaves the count, or is a `PASS` that resets it. -/
theorem strikes_of_quiet (h : db.commit event = .ok db') (hquiet : NoStrike db event) :
    (passes pair db' = passes pair db ∧
      selectStrikeCount db'.review pair.1 pair.2 = selectStrikeCount db.review pair.1 pair.2) ∨
    (passes pair db' = passes pair db + 1 ∧ selectStrikeCount db'.review pair.1 pair.2 = 0) := by
  have hevents := (folded_of_commit h).2
  have hpayload : (db.stored event).payload = event.payload := rfl
  rw [selectStrikeCount_eq hdb pair, selectStrikeCount_eq (hdb.commit h) pair, passes, passes, hevents,
    List.countP_append, List.countP_singleton, Review.strikeStates_append]
  cases hverdict : event.payload with
  | review payload =>
    cases payload with
    | verdict v =>
      rw [Review.visibleStrikes_verdict (hpayload.trans hverdict), isPassOf, hpayload, hverdict]
      by_cases hpass : pair = (v.target, v.branch) ∧ v.verdict = .pass
      · simp [hpass.1, hpass.2]
      · simp only [if_neg hpass, and_true]
        refine .inl ?_
        simp only [decide_eq_true_iff, Nat.add_eq_left, ite_eq_right_iff, one_ne_zero, imp_false]
        exact fun h => hpass ⟨h.2.symm, h.1⟩
    | strike s => exact absurd hverdict (hquiet s)
    | requested | serialized | override => simp [strikeStatesStep, isPassOf, hpayload, hverdict]
  | _ => simp [strikeStatesStep, isPassOf, hpayload, hverdict]

/-- A review that has consumed its strike stays struck. -/
theorem struck_of_commit (h : db.commit event = .ok db') {reviewId : String}
    (hstruck : selectReviewStrike db.review pair.1 pair.2 reviewId = true) :
    selectReviewStrike db'.review pair.1 pair.2 reviewId = true := by
  have hevents := (folded_of_commit h).2
  have hpayload : (db.stored event).payload = event.payload := rfl
  rw [selectReviewStrike_iff hdb] at hstruck
  rw [selectReviewStrike_iff (hdb.commit h), hevents, Review.strikeStates_append]
  cases hverdict : event.payload with
  | review payload =>
    cases payload with
    | verdict v => rwa [Review.consumedStrikes_verdict (hpayload.trans hverdict)]
    | strike s =>
      rw [Review.consumedStrikes_strike (hpayload.trans hverdict)]
      split
      · exact List.mem_append_left _ hstruck
      · exact hstruck
    | requested | serialized | override => simpa [strikeStatesStep, hpayload, hverdict] using hstruck
  | _ => simpa [strikeStatesStep, hpayload, hverdict] using hstruck

/-- The strike of a review that had none. -/
theorem strikes_of_strike {s : ReviewStrike} (hevent : Carries event (.strike s))
    (hfresh : selectReviewStrike db.review s.target s.branch s.reviewId = false)
    (h : db.commit event = .ok db') :
    selectReviewStrike db'.review s.target s.branch s.reviewId = true ∧
    selectStrikeCount db'.review pair.1 pair.2 = selectStrikeCount db.review pair.1 pair.2 +
      if pair = (s.target, s.branch) then 1 else 0 := by
  have hevents := (folded_of_commit h).2
  have hpayload : (db.stored event).payload = .review (.strike s) := hevent.payload_eq
  have hnew : s.reviewId ∉ consumedStrikes (strikeStates db.events) (s.target, s.branch) := by
    rw [← selectReviewStrike_iff hdb, hfresh]
    exact Bool.false_ne_true
  constructor
  · rw [selectReviewStrike_iff (hdb.commit h), hevents,
      Review.strikeStates_append, Review.consumedStrikes_strike hpayload, if_pos ⟨rfl, hnew⟩]
    exact List.mem_append_right _ (List.mem_singleton_self _)
  · rw [selectStrikeCount_eq hdb pair, selectStrikeCount_eq (hdb.commit h) pair, hevents,
      Review.strikeStates_append, Review.visibleStrikes_strike hpayload]
    by_cases hpair : pair = (s.target, s.branch)
    · subst hpair
      rw [if_pos ⟨rfl, hnew⟩, if_pos rfl, List.length_append, List.length_singleton]
    · rw [if_neg fun hboth => hpair hboth.1, if_neg hpair, Nat.add_zero]

end

/-! ## One call of the policy -/

/-- A notification may append one mail, and touches nothing else. -/
inductive Mailed (db : Db) : Db → Prop where
  | nothing : Mailed db db
  | mail {db' : Db} {event : NewEvent Mail.MailEvent}
      (h : db.commit (Mail.toProject event) = .ok db') : Mailed db db'

section

variable {db db' : Db}

theorem send_mailed {delivery : Mail.Delivery} {envelope : Mail.MailEnvelope} :
    Mailed db ((Mail.MailStore.send delivery envelope).exec db) := by
  refine Proc.exec_liftM_bind .nothing fun _ _ => Proc.exec_liftM_bind .nothing fun _ _ => ?_
  refine Proc.exec_transaction .nothing fun mail last h => ?_
  obtain ⟨result, mid, hdeliver, hpure⟩ := Tx.bind_eq_ok.1 h
  obtain ⟨-, rfl⟩ := Tx.pure_eq_ok.1 hpure
  rcases Mail.InProcessDelivery.deliverWithStatus_eq_ok hdeliver with
    ⟨rfl, -⟩ | ⟨-, -, e, -, hcommit⟩
  · exact .nothing
  · exact .mail hcommit

theorem escalate_mailed {mail : Mail.Delivery} {resolver : Mail.ParentResolver}
    {req : Review.EscalationRequest} : Mailed db ((Review.escalate mail resolver req).exec db) :=
  Proc.exec_liftM_bind .nothing fun _ _ => send_mailed

theorem exec_bind_pure {α β : Type} (p : StoreProc α) (f : α → β) :
    (p >>= fun a => pure (f a) : StoreProc β).exec db = p.exec db := by
  refine Proc.exec_bind (R := fun s s' => s' = p.exec s) ?_ ?_
  · rintro e s' h
    rw [Proc.exec, h]
  · rintro a s' h
    rw [Proc.exec, Proc.exec, h]
    rfl

theorem Mailed.review (h : Mailed db db') : db'.review = db.review := by
  cases h with
  | nothing => rfl
  | @mail _ event hcommit =>
    have hother : (Mail.toProject event).payload.projector ≠ .review := fun heq => nomatch heq
    exact same_of_commit hother hcommit

theorem Mailed.noStrike (h : Mailed db db') : Emits NoStrike db db' := by
  cases h with
  | nothing => exact .refl
  | @mail _ event hcommit =>
    have hother : NoStrike db (Mail.toProject event) := fun _ heq => nomatch heq
    exact Emits.single hother hcommit

theorem Mailed.consistent (h : Mailed db db') (hdb : Consistent db) : Consistent db' :=
  hdb.emits h.noStrike

end

/-- A review without a strike gets one. -/
theorem recordStrike_fresh {db db' : Db} (hdb : Consistent db) {s : ReviewStrike} {u : Unit}
    (hfresh : selectReviewStrike db.review s.target s.branch s.reviewId = false)
    (h : recordStrike s db = .ok (u, db')) :
    ∃ event, Carries event (.strike s) ∧ db.commit event = .ok db' := by
  simp only [recordStrike, Review.ensureReviewTables_bind hdb, Review.reading_bind hdb, hfresh,
    Bool.false_eq_true, if_false, Tx.bind_eq_ok, Review.recordReview_eq_ok, Tx.pure_eq_ok] at h
  obtain ⟨_, _, ⟨event, hevent, -, hcommit⟩, -, rfl⟩ := h
  exact ⟨_, Review.carries_strike hevent, hcommit⟩

/-- A call of the policy: by itself, or as `co_kickback` makes it. -/
inductive PolicyCall where
  | bare (mail : Mail.Delivery) (resolver : Mail.ParentResolver) (agentId : String) (budget : ℕ)
      (ctx : StrikeEnforcementContext)
  | kickback (k : Kickback)

namespace PolicyCall

def deps : PolicyCall → StrikeEnforcementDeps
  | bare mail resolver agentId budget _ => { mail, resolver, agentId, budget }
  | kickback k => k.deps

def ctx : PolicyCall → StrikeEnforcementContext
  | bare _ _ _ _ ctx => ctx
  | kickback k => k.ctx

/-- The branch it strikes, with its target. -/
def pair (call : PolicyCall) : String × String := (call.ctx.target, call.ctx.branch)

def run (call : PolicyCall) : StoreProc StrikePolicyAction := applyStrikePolicy call.deps call.ctx

/-- The count that its strike would make. -/
def count (call : PolicyCall) (db : Db) : ℕ :=
  selectStrikeCount db.review call.ctx.target call.ctx.branch + 1

def plan (call : PolicyCall) (db : Db) : Review.StrikeNotificationPlan :=
  planStrike call.deps.budget (call.count db) call.ctx

/-- The review has consumed its strike. -/
def struck (call : PolicyCall) (db : Db) : Bool :=
  selectReviewStrike db.review call.ctx.target call.ctx.branch call.ctx.reviewId

def strike (call : PolicyCall) : ReviewStrike where
  reviewId := call.ctx.reviewId
  target := call.ctx.target
  branch := call.ctx.branch
  reason := strikeReason call.ctx.blockers

theorem notify_mailed (call : PolicyCall) (plan : Review.StrikeNotificationPlan) {db : Db} :
    Mailed db ((notifyStrike call.deps call.ctx plan).exec db) := by
  cases call with
  | bare mail resolver agentId budget ctx =>
    change Mailed db ((if plan.fireEscalation = true then _ else _ : StoreProc Unit).exec db)
    split
    · rw [exec_bind_pure]
      exact escalate_mailed
    · exact .nothing
  | kickback k =>
    change Mailed db ((k.beforeRecordStrike plan).exec db)
    unfold Kickback.beforeRecordStrike
    dsimp only
    split
    · rw [exec_bind_pure]
      exact send_mailed
    · split
      · rw [exec_bind_pure]
        exact escalate_mailed
      · exact .nothing

/-- How a call ends, and what it leaves behind. -/
inductive Ends (call : PolicyCall) (db : Db) : Except String StrikePolicyAction → Db → Prop where
  /-- The review had consumed its strike: nothing happens. -/
  | already (hstruck : call.struck db = true) : Ends call db (.ok .alreadyStruck) db
  /-- The notification throws, and no strike is recorded. -/
  | unheard {e : String} {mid : Db} (hfresh : call.struck db = false) (hmailed : Mailed db mid)
      (hnotify : notifyStrike call.deps call.ctx (call.plan db) db = (.error e, mid)) :
      Ends call db (.error e) mid
  /-- The notification went out, but the strike cannot be appended. -/
  | unrecorded {e : String} {mid : Db} (hfresh : call.struck db = false) (hmailed : Mailed db mid)
      (hnotify : notifyStrike call.deps call.ctx (call.plan db) db = (.ok (), mid))
      (hrecord : transaction (recordStrike call.strike) mid = (.error e, mid)) :
      Ends call db (.error e) mid
  /-- The notification went out and the strike is recorded. -/
  | recorded {mid last : Db} {event : NewEvent Payload} (hfresh : call.struck db = false)
      (hmailed : Mailed db mid)
      (hnotify : notifyStrike call.deps call.ctx (call.plan db) db = (.ok (), mid))
      (hevent : Carries event (.strike call.strike)) (hcommit : mid.commit event = .ok last) :
      Ends call db (.ok (.took (call.plan db).action)) last

theorem transaction_reading {db : Db} (hdb : Consistent db) {α β : Type}
    {read : Review.ReviewTables → α} {f : α → StoreProc β} :
    ((transaction (Review.reading read) : StoreProc α) >>= f) db = f (read db.review) db := by
  have hread : (transaction (Review.reading read) : StoreProc α) db = (.ok (read db.review), db) := by
    rw [transaction_eq_ok, ← bind_pure (Review.reading read), Review.reading_bind hdb]
    rfl
  change Proc.bind _ f db = _
  rw [Proc.bind, hread]

theorem ends (call : PolicyCall) {db db' : Db} (hdb : Consistent db)
    {result : Except String StrikePolicyAction} (h : call.run db = (result, db')) :
    Ends call db result db' := by
  unfold run applyStrikePolicy at h
  rw [transaction_reading hdb] at h
  cases hstruck : call.struck db with
  | true =>
    have hyes : selectReviewStrike db.review call.ctx.target call.ctx.branch
        call.ctx.reviewId = true := hstruck
    rw [if_pos hyes] at h
    obtain ⟨rfl, rfl⟩ := Prod.mk.inj h
    exact .already hstruck
  | false =>
    have hnot : ¬ selectReviewStrike db.review call.ctx.target call.ctx.branch
        call.ctx.reviewId = true := Bool.eq_false_iff.1 hstruck
    rw [if_neg hnot, transaction_reading hdb] at h
    have hmails := @notify_mailed call (call.plan db) db
    rcases Proc.bind_cases h with ⟨e, hnotify, rfl⟩ | ⟨_, mid, hnotify, h⟩
    · have hmid : (notifyStrike call.deps call.ctx (call.plan db)).exec db = db' :=
        congrArg Prod.snd hnotify
      exact .unheard hstruck (hmid ▸ hmails) hnotify
    · have hmid : (notifyStrike call.deps call.ctx (call.plan db)).exec db = mid :=
        congrArg Prod.snd hnotify
      rw [hmid] at hmails
      rcases Proc.bind_cases h with ⟨e, hrecord, rfl⟩ | ⟨_, last, hrecord, h⟩
      · obtain rfl := transaction_error hrecord
        exact .unrecorded hstruck hmails hnotify hrecord
      · obtain ⟨rfl, rfl⟩ := Prod.mk.inj h
        have hfresh : selectReviewStrike mid.review call.strike.target call.strike.branch
            call.strike.reviewId = false := by
          rw [hmails.review]
          exact hstruck
        obtain ⟨event, hevent, hcommit⟩ := recordStrike_fresh (hmails.consistent hdb) hfresh
          (transaction_eq_ok.1 hrecord)
        exact .recorded hstruck hmails hnotify hevent hcommit

end PolicyCall

end Orchestration.Replay
