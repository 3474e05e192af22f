import Orchestration.Replay.GateRuns

/-!
# What reaches the repository

Whatever a publish call enacts has passed its gate at that moment: the branch holds the slot
of its target, and either a recorded `PASS` bears it out or the operator's override is
already on record.
-/

namespace Orchestration.Replay

open Fallible Transaction
open Transaction.Proc (onError unlessFault when)
open Orchestration.Review (Carries GateFaults GateOutcome GateProc GateReads GateRequest Enacted
  Enactment Publishing ReviewGateDeps ReviewScope VerificationMarker mergeChecks publishChecks
  passGate overrideGate selectVerdict)
open Orchestration.Worktrees (RepoMode TestOutcome selectBaseline selectFinish)

/-! ## What is enacted -/

/-- The recorded verdict of the branch is a `PASS` with a marker, newer than the finish, and the
finish fails no test that the baseline did not fail. -/
structure Reviewed (req : GateRequest) (scope : Option ReviewScope) (t : GateReads) : Prop where
  passed : ∃ verdict baseline finish, selectVerdict t.review req.into req.branch scope = some verdict ∧
    verdict.verdict = .pass ∧ verdict.verification.isSome = true ∧
    selectBaseline t.worktrees req.branch = some baseline ∧
    selectFinish t.worktrees req.branch = some finish ∧
    (∃ finished recorded, finish.recordedSeq = some finished ∧ verdict.recordedSeq = some recorded ∧
      finished < recorded) ∧
    ∀ test ∈ finish.tests, test.passed = false →
      ∃ before ∈ baseline.tests, before.name = test.name ∧ before.passed = false

/-- The operator overrides with a reason, and the override is on record since `old`. -/
structure Overridden (deps : ReviewGateDeps) (req : GateRequest) (old db : Db) : Prop where
  operator : deps.agentId = some Mail.OPERATOR
  reason : Js.trimString (req.reason.getD "") ≠ ""
  recorded : ∃ event ∈ db.events.drop old.events.length, ∃ o : Review.ReviewOverride,
    event.payload = .review (.override o) ∧ o.target = req.into ∧ o.branch = req.branch ∧
    o.reason = Js.trimString (req.reason.getD "") ∧ o.overriddenBy = Mail.OPERATOR

namespace GateCall

/-- The scope that a call demands of the verdict; a local merge takes the latest one. -/
def scope : GateCall → Option ReviewScope
  | merge _ => none
  | push _ | prMerge _ => some .prMerge

/-- The operation is the call's own. -/
def Enacts (deps : ReviewGateDeps) : GateCall → Enacted → Prop
  | merge req, operation => ∃ gate, operation = .publish (mergeRequest req gate)
  | push req, operation => operation = .push (pushRequest req)
  | prMerge req, operation => operation = .prMerge (prMergeRequest deps req)

end GateCall

/-- What a call may enact. -/
structure SoundlyEnacted (deps : ReviewGateDeps) (call : GateCall) (old : Db) (x : Enactment) :
    Prop where
  own : call.Enacts deps x.operation
  slot : slots x.db call.req.into = some call.req.branch
  gate : if call.req.operatorOverride then Overridden deps call.req old x.db
    else Reviewed call.req call.scope (GateCall.reads x.db)
  /-- A local merge is never enacted for a contributor. -/
  mode : (∃ req, x.operation = .publish req) → x.mode ≠ .contributor

/-! ## The gate -/

section

variable {deps : ReviewGateDeps} {t : GateReads} {req : GateRequest} {gate : GateOutcome}

/-- Where both numbers are known, they decide. -/
theorem finish_older {tool branch into : String} {finish : Worktrees.FinishRecord}
    {verdict : Review.ReviewVerdictRecord} {u : Unit} {finished recorded : ℕ}
    (hfinished : finish.recordedSeq = some finished) (hrecorded : verdict.recordedSeq = some recorded)
    (h : Review.assertFinishNotNewerThanVerdict tool branch into finish verdict = .ok u) :
    finished < recorded := by
  simpa [Review.assertFinishNotNewerThanVerdict, hfinished, hrecorded] using h

/-- A visible verdict has its number in the log. -/
theorem verdict_sequenced {db : Db} (hdb : Consistent db) {target branch : String}
    {scope : Option ReviewScope} {verdict : Review.ReviewVerdictRecord}
    (h : selectVerdict db.review target branch scope = some verdict) :
    ∃ recorded, verdict.recordedSeq = some recorded := by
  obtain ⟨row, hrow, h⟩ := Option.bind_eq_some_iff.1 h
  obtain ⟨answer, hanswer, h⟩ := Option.bind_eq_some_iff.1 h
  split at h
  · obtain rfl := Option.some.inj h
    have hsome := (Review.upToDate_of_consistent hdb).verdictSeq row (Table.find?_eq_some.1 hrow).1
      (by rw [hanswer]; rfl)
    exact Option.isSome_iff_exists.1 hsome
  · cases h

/-- A finish has its number in the log. -/
theorem finish_sequenced {t : Worktrees.WorktreeTables} {branch : String}
    {finish : Worktrees.FinishRecord} (h : selectFinish t branch = some finish) :
    ∃ finished, finish.recordedSeq = some finished :=
  Option.isSome_iff_exists.1 (t.sequenced finish (Table.find?_eq_some.1 h).1)

theorem reviewed_of_passGate {db : Db} (hdb : Consistent db) {texts : Review.PassGateTexts}
    {mode : RepoMode} {requiredScope : Option ReviewScope}
    (h : passGate deps (GateCall.reads db) req texts mode requiredScope = .ok gate) :
    Reviewed req requiredScope (GateCall.reads db) := by
  simp only [passGate, bind_eq_ok, orThrow_eq_ok, refuse_eq_ok, not_not] at h
  obtain ⟨verdict, hverdict, _, hpass, baseline, hbaseline, finish, hfinish, _, holder, _, hallow, -⟩ := h
  obtain ⟨hregressions, hmarker⟩ := Review.classifyPass_allow (by simpa using hallow)
  obtain ⟨recorded, hrecorded⟩ := verdict_sequenced hdb hverdict
  obtain ⟨finished, hfinished⟩ := finish_sequenced hfinish
  exact ⟨verdict, baseline, finish, hverdict, hpass, hmarker, hbaseline, hfinish,
    ⟨finished, recorded, hfinished, hrecorded, finish_older hfinished hrecorded holder⟩,
    fun _ htest hfails => Review.failed_before hregressions htest hfails⟩

end

/-! ## From the checks to the enactment -/

/-- A toggle of the slot or an override leaves the visible verdicts alone. -/
theorem selectVerdict_upsert {t : Review.ReviewTables} {row : Review.ReviewRow}
    {update : Table.Update Review.ReviewRow.key} (hnew : row.verdict = none)
    (hverdict : ∀ old, (update.run old).verdict = old.verdict)
    (hrecord : ∀ old verdict, Review.rowToReviewVerdictRecord (update.run old) verdict =
      Review.rowToReviewVerdictRecord old verdict) (target branch : String)
    (scope : Option ReviewScope) :
    selectVerdict { t with reviews := t.reviews.upsert row update } target branch scope =
      selectVerdict t target branch scope := by
  have hscope : ∀ old, (update.run old).scope = old.scope := fun old =>
    congrArg Review.ReviewVerdictRecord.scope (hrecord old .pass)
  unfold selectVerdict
  by_cases hkey : (target, branch) = row.key
  · rw [hkey, Table.find?_upsert_self]
    cases hfind : t.reviews.find? row.key with
    | none => simp [hnew]
    | some old => simp [hverdict, hrecord, hscope]
  · rw [Table.find?_upsert_of_ne hkey]

/-- Events that a publish call appends before it enacts. -/
def Bookkeeping : EventClass := fun _ event =>
  (∃ m, Carries event (.serialized m)) ∨ ∃ o, Carries event (.override o)

theorem Bookkeeping.verdicts {db db' : Db} {event : NewEvent Payload} (hkept : Bookkeeping db event)
    (h : db.commit event = .ok db') :
    selectVerdict db'.review = selectVerdict db.review ∧ db'.worktrees = db.worktrees := by
  have hpayload : ∃ payload, event.payload = .review payload ∧
      ((∃ m, payload = .serialized m) ∨ ∃ o, payload = .override o) := by
    rcases hkept with ⟨m, hevent⟩ | ⟨o, hevent⟩
    · exact ⟨_, hevent.payload_eq, .inl ⟨m, rfl⟩⟩
    · exact ⟨_, hevent.payload_eq, .inr ⟨o, rfl⟩⟩
  obtain ⟨payload, hpayload, hkind⟩ := hpayload
  have hworktrees : event.payload.projector ≠ .worktrees := by
    rw [hpayload]
    exact fun heq => nomatch heq
  refine ⟨?_, same_of_commit hworktrees h⟩
  obtain ⟨-, tables, hfold, rfl⟩ := commit_eq_ok.1 h
  rcases foldEvent_review hfold with ⟨payload', hstored, happly⟩ | ⟨hnone, -⟩
  · obtain rfl : payload = payload' := Payload.review.inj (hpayload.symm.trans hstored)
    funext target branch scope
    rcases hkind with ⟨m, rfl⟩ | ⟨o, rfl⟩
    · have htables := (pure_eq_ok.1 happly).symm
      change selectVerdict tables.review target branch scope = _
      rw [htables]
      exact selectVerdict_upsert rfl (fun _ => rfl) (fun _ _ => rfl) target branch scope
    · have htables := (pure_eq_ok.1 happly).symm
      change selectVerdict tables.review target branch scope = _
      rw [htables]
      exact selectVerdict_upsert rfl (fun _ => rfl) (fun _ _ => rfl) target branch scope
  · exact absurd hpayload (hnone payload)

theorem Reviewed.commit {db db' : Db} {event : NewEvent Payload} {req : GateRequest}
    {scope : Option ReviewScope} (hkept : Bookkeeping db event) (hcommit : db.commit event = .ok db')
    (h : Reviewed req scope (GateCall.reads db)) : Reviewed req scope (GateCall.reads db') := by
  obtain ⟨hverdicts, hworktrees⟩ := hkept.verdicts hcommit
  obtain ⟨hpassed⟩ := h
  constructor
  change ∃ verdict baseline finish, selectVerdict db'.review req.into req.branch scope = _ ∧ _
  simp only [GateCall.reads] at hpassed ⊢
  rw [hverdicts, hworktrees]
  exact hpassed

/-! ## Where the enacted comes from -/

/-- A procedure that enacts nothing. -/
def KeepsEnacted {α : Type} (p : GateProc α) : Prop :=
  ∀ s r s', p s = (r, s') → s'.enacted = s.enacted

namespace KeepsEnacted

variable {α β : Type} {p : GateProc α} {f : α → GateProc β} {cleanup : GateProc Unit}

theorem stores (p : StoreProc α) : KeepsEnacted (Review.stores p) := by
  intro s r s' h
  obtain ⟨db, -, rfl⟩ := stores_eq.1 h
  rfl

theorem pure (a : α) : KeepsEnacted (Pure.pure a : GateProc α) := by
  intro s r s' h
  obtain ⟨-, rfl⟩ := Prod.mk.inj h
  rfl

theorem liftM (x : Except String α) : KeepsEnacted (MonadLift.monadLift x : GateProc α) := by
  intro s r s' h
  obtain ⟨-, rfl⟩ := Prod.mk.inj h
  rfl

theorem bind (hp : KeepsEnacted p) (hf : ∀ a, KeepsEnacted (f a)) : KeepsEnacted (p >>= f) := by
  intro s r s' h
  rcases Proc.bind_cases h with ⟨e, hfailed, -⟩ | ⟨a, mid, hdone, hrest⟩
  · exact hp s _ s' hfailed
  · exact (hf a mid r s' hrest).trans (hp s _ mid hdone)

theorem tryCatch {handler : String → GateProc α} (hp : KeepsEnacted p)
    (hhandler : ∀ e, KeepsEnacted (handler e)) : KeepsEnacted (tryCatch p handler) := by
  intro s r s' h
  cases r with
  | ok a =>
    rcases Proc.tryCatch_eq_ok.1 h with hdone | ⟨e, mid, hfailed, hhandled⟩
    · exact hp s _ s' hdone
    · exact (hhandler e mid _ s' hhandled).trans (hp s _ mid hfailed)
  | error cause =>
    obtain ⟨e, mid, hfailed, hhandled⟩ := Proc.tryCatch_eq_error.1 h
    exact (hhandler e mid _ s' hhandled).trans (hp s _ mid hfailed)

theorem unlessFault {fault : Option String} (hp : KeepsEnacted p) :
    KeepsEnacted (unlessFault fault p) := by
  cases fault with
  | none => exact hp
  | some e =>
    intro s r s' h
    obtain ⟨-, rfl⟩ := Prod.mk.inj h
    rfl

theorem when {c : Bool} (hp : KeepsEnacted cleanup) : KeepsEnacted (when c cleanup) := by
  cases c with
  | true => exact hp
  | false => exact pure ()

end KeepsEnacted

section

variable {deps : ReviewGateDeps} {faults : GateFaults} {req : GateRequest} {gate : GateOutcome}

theorem acquireMergeSlot_keepsEnacted : KeepsEnacted (Review.acquireMergeSlot faults req) :=
  .stores _

theorem releaseMergeSlot_keepsEnacted : KeepsEnacted (Review.releaseMergeSlot faults req) :=
  .stores _

theorem releaseOwnSlot_keepsEnacted : KeepsEnacted (Review.releaseOwnSlot faults req) :=
  (KeepsEnacted.stores _).bind fun _ => releaseMergeSlot_keepsEnacted.when

theorem firePendingEscalation_keepsEnacted :
    KeepsEnacted (Review.firePendingEscalation deps gate) := by
  unfold Review.firePendingEscalation
  split
  · exact ((KeepsEnacted.stores _).bind fun _ => .pure _).tryCatch fun _ => .pure _
  · exact .pure _

theorem tearDown_keepsEnacted {branch : String} : KeepsEnacted (Review.tearDown deps branch) := by
  unfold Review.tearDown
  split
  · exact .pure _
  · exact ((KeepsEnacted.stores _).bind fun _ => .pure _).tryCatch fun _ => .pure _

theorem afterMerge_keepsEnacted {req : Review.ReviewMergeRequest} {message : String}
    (result : Worktrees.PublishResult) :
    KeepsEnacted (Review.afterMerge deps req gate message result) :=
  firePendingEscalation_keepsEnacted.bind fun _ => tearDown_keepsEnacted.bind fun _ => .pure _

theorem afterPush_keepsEnacted (result : Worktrees.EnactPushResult) :
    KeepsEnacted (Review.afterPush deps gate result) :=
  firePendingEscalation_keepsEnacted.bind fun _ => .pure _

theorem afterPrMerge_keepsEnacted {description : String} (result : Worktrees.EnactPrMergeResult) :
    KeepsEnacted (Review.afterPrMerge deps gate description result) :=
  firePendingEscalation_keepsEnacted.bind fun _ => .pure _

end

/-- How the project stands when an operation is enacted under the slot. -/
structure Landed (req : GateRequest) (gate : GateOutcome) (old db : Db) : Prop where
  slot : slots db req.into = some req.branch
  reviewed : ∀ scope, Reviewed req scope (GateCall.reads old) → Reviewed req scope (GateCall.reads db)
  recorded : ∀ o, gate.override? req = some o →
    ∃ event ∈ db.events.drop old.events.length, event.payload = .review (.override o)

section

variable {α β : Type} {faults : GateFaults} {req : GateRequest} {gate : GateOutcome}
  {operation : Enacted} {mode : RepoMode} {result : Except String α}

/-- The events that a project gained stay behind its old ones. -/
theorem drop_of_commit {old db db' : Db} {event : NewEvent Payload}
    (hold : old.events.length ≤ db.events.length) (h : db.commit event = .ok db') :
    db'.events.drop old.events.length =
      db.events.drop old.events.length ++ [db.stored event] := by
  rw [(folded_of_commit h).2, List.drop_append_of_le_length hold]

/-- Taking the slot and recording the override lead to where an operation may be enacted. -/
theorem acquired_landed {slot : Review.MergeSlotResult} {s mid : Publishing}
    (hdb : Consistent s.db) (hacquired : Acquired req s slot mid) (hslot : slot.acquired = true) :
    Consistent mid.db ∧ slots mid.db req.into = some req.branch ∧ mid.enacted = s.enacted ∧
      s.db.events.length ≤ mid.db.events.length ∧
      ∀ scope, Reviewed req scope (GateCall.reads s.db) → Reviewed req scope (GateCall.reads mid.db) := by
  cases hacquired with
  | held hheld =>
    obtain rfl := of_decide_eq_true hslot
    exact ⟨hdb, hheld, rfl, le_rfl, fun _ hreviewed => hreviewed⟩
  | fresh hfree hevent hcommit =>
    refine ⟨hdb.commit hcommit, ?_, rfl, ?_, fun scope => Reviewed.commit (.inl ⟨_, hevent⟩) hcommit⟩
    · rw [slots_of_acquire hevent hfree hcommit]
      exact Function.update_self ..
    · simp [(folded_of_commit hcommit).2]

/-- The work enacts nothing, or its own operation where it may be enacted. -/
theorem Worked.enacts {r : Except String α} {s s' : Publishing} {old : Db}
    (h : Worked req gate faults operation mode result s r s') (hdb : Consistent s.db)
    (hslot : Replay.slots s.db req.into = some req.branch)
    (hold : old.events.length ≤ s.db.events.length)
    (hreviewed : ∀ scope, Reviewed req scope (GateCall.reads old) →
      Reviewed req scope (GateCall.reads s.db)) :
    s'.enacted = s.enacted ∨
      ∃ db, s'.enacted = s.enacted ++ [⟨operation, mode, db⟩] ∧ Landed req gate old db := by
  have hslots : Replay.slots s'.db req.into = some req.branch := by
    rw [(h.slots hdb).2, hslot]
  cases h with
  | unrecorded => exact .inl rfl
  | plain hplain =>
    refine .inr ⟨s.db, rfl, hslot, hreviewed, fun o ho => ?_⟩
    rw [hplain] at ho
    cases ho
  | @overridden o event db hoverride _ hevent hcommit =>
    refine .inr ⟨db, rfl, hslots,
      fun scope h => (hreviewed scope h).commit (.inr ⟨o, hevent⟩) hcommit, fun o' ho => ?_⟩
    obtain rfl := Option.some.inj (hoverride.symm.trans ho)
    refine ⟨s.db.stored event, ?_, hevent.payload_eq⟩
    rw [drop_of_commit hold hcommit]
    exact List.mem_append_right _ (List.mem_singleton.2 rfl)

theorem publishUnder_enacted {slot : Review.MergeSlotResult} {work : GateProc α}
    {giveBack : GateProc Unit} {drops : α → Bool} {rest : α → GateProc β}
    (hgive : KeepsEnacted giveBack) (hrest : ∀ a, KeepsEnacted (rest a)) {s s' : Publishing}
    {r : Except String β} (h : publishUnder slot work giveBack drops rest s = (r, s')) :
    s'.enacted = (work s).2.enacted := by
  rcases Proc.bind_cases h with ⟨e, hfailed, -⟩ | ⟨a, mid, hdone, hafter⟩
  · obtain ⟨cause, mid, hthrown, hclean⟩ := Proc.onError_eq_error.1 hfailed
    rw [hthrown]
    rcases hclean with ⟨hclean, -⟩ | hclean
    · exact hgive.when _ _ _ hclean
    · exact hgive.when _ _ _ hclean
  · rw [Proc.onError_eq_ok.1 hdone]
    exact (hgive.when.bind fun _ => hrest a) mid r s' hafter

theorem takeAndPublish_enacted {refusal : Review.MergeSlotResult → String}
    {rendering : Option String} {giveBack : GateProc Unit} {drops : α → Bool}
    {rest : α → GateProc β} (hgive : KeepsEnacted giveBack) (hrest : ∀ a, KeepsEnacted (rest a))
    {s s' : Publishing} (hdb : Consistent s.db) {r : Except String β}
    (h : takeAndPublish faults req gate operation mode result refusal rendering giveBack drops rest
      s = (r, s')) :
    s'.enacted = s.enacted ∨
      ∃ db, s'.enacted = s.enacted ++ [⟨operation, mode, db⟩] ∧ Landed req gate s.db db := by
  rcases Proc.bind_cases h with ⟨e, hfailed, -⟩ | ⟨slot, mid, hacquire, h⟩
  · exact .inl (acquireMergeSlot_keepsEnacted _ _ _ hfailed)
  · rcases Proc.bind_cases h with ⟨e, hrefused, -⟩ | ⟨_, mid', hgoes, h⟩
    · have hsame := KeepsEnacted.liftM _ _ _ _ hrefused
      exact .inl (hsame.trans (acquireMergeSlot_keepsEnacted _ _ _ hacquire))
    · obtain ⟨hslot, rfl⟩ := Prod.mk.inj hgoes
      have hacquired : slot.acquired = true := by
        simpa using refuse_eq_ok.1 hslot
      obtain ⟨hmid, hheld, hsame, hlonger, hreviewed⟩ :=
        acquired_landed hdb (acquireMergeSlot_eq_ok hdb hacquire) hacquired
      rcases Proc.bind_cases h with ⟨e, hrender, -⟩ | ⟨_, mid', hrender, h⟩
      · exact .inl (((KeepsEnacted.pure ()).unlessFault _ _ _ hrender).trans hsame)
      · obtain ⟨-, hpure⟩ := Proc.unlessFault_eq_ok.1 hrender
        obtain ⟨-, rfl⟩ := Prod.mk.inj hpure
        rw [publishUnder_enacted hgive hrest h, ← hsame]
        exact (worked hmid rfl).enacts hmid hheld hlonger hreviewed

end

/-! ## Every call -/

section

variable {deps : ReviewGateDeps} {req : GateRequest} {gate : GateOutcome} {mode : RepoMode}
  {old db : Db}

/-- A gate that was passed at the start is sound where its operation is enacted. -/
theorem Landed.overridden {verb : String} (h : Landed req gate old db)
    (hgate : overrideGate deps (GateCall.reads old) req verb = .ok gate) :
    Overridden deps req old db := by
  obtain ⟨hoperator, hreason, failures, hoverride⟩ := overrideGate_override hgate
  obtain ⟨event, hmem, hpayload⟩ := h.recorded _ hoverride
  exact ⟨hoperator, hreason, event, hmem, _, hpayload, rfl, rfl, rfl, rfl⟩

theorem Landed.ofMerge (h : Landed req gate old db) (hold : Consistent old)
    (hgate : mergeChecks deps (GateCall.reads old) req = .ok (mode, gate)) :
    (if req.operatorOverride then Overridden deps req old db
      else Reviewed req none (GateCall.reads db)) ∧ mode ≠ .contributor := by
  simp only [mergeChecks, bind_eq_ok, refuse_eq_ok, pure_eq_ok] at hgate
  obtain ⟨_, -, _, hmode, _, hpassed, _, -, heq⟩ := hgate
  obtain ⟨rfl, rfl⟩ := Prod.mk.inj heq
  refine ⟨?_, hmode⟩
  unfold Review.mergeGate at hpassed
  split
  · next hoverride =>
    rw [if_pos hoverride] at hpassed
    exact h.overridden hpassed
  · next hoverride =>
    rw [if_neg hoverride] at hpassed
    exact h.reviewed _ (reviewed_of_passGate hold hpassed)

theorem Landed.ofPublish {verb : String} (h : Landed req gate old db) (hold : Consistent old)
    (hgate : publishChecks deps (GateCall.reads old) req verb = .ok gate) :
    if req.operatorOverride then Overridden deps req old db
      else Reviewed req (some .prMerge) (GateCall.reads db) := by
  simp only [publishChecks, bind_eq_ok, pure_eq_ok] at hgate
  obtain ⟨_, hpassed, _, -, rfl⟩ := hgate
  unfold Review.publishGate at hpassed
  split
  · next hoverride =>
    rw [if_pos hoverride] at hpassed
    exact h.overridden hpassed
  · next hoverride =>
    rw [if_neg hoverride] at hpassed
    simp only [Review.gateOnPass, bind_eq_ok] at hpassed
    obtain ⟨_, -, hpass⟩ := hpassed
    exact h.reviewed _ (reviewed_of_passGate hold hpass)

end

section

variable {deps : ReviewGateDeps} {faults : GateFaults} {s s' : Publishing}

/-- The checks enact nothing; behind them the call goes on from the tables of the project. -/
theorem checks_result {α : Type} {f : GateReads → GateProc α} (hdb : Consistent s.db)
    {r : Except String α}
    (h : (Review.stores (unlessFault faults.checks Review.readTables) >>= f) s = (r, s')) :
    s' = s ∨ f (GateCall.reads s.db) s = (r, s') := by
  cases r with
  | error e => exact (checks_cases hdb h).imp_right And.right
  | ok a =>
    obtain ⟨t, mid, hread, hrest⟩ := Proc.bind_eq_ok.1 h
    obtain ⟨db, hreads, rfl⟩ := stores_eq.1 hread
    obtain ⟨-, hdone⟩ := Proc.unlessFault_eq_ok.1 hreads
    rw [readTables_eq hdb] at hdone
    obtain ⟨ht, rfl⟩ := Prod.mk.inj hdone
    obtain rfl := Except.ok.inj ht
    exact .inr hrest

theorem pure_result {α β : Type} {x : Except String α} {f : α → GateProc β} {r : Except String β}
    (h : (liftM x >>= f : GateProc β) s = (r, s')) : s' = s ∨ ∃ a, x = .ok a ∧ f a s = (r, s') := by
  cases x with
  | error cause => exact .inl (Prod.mk.inj h).2.symm
  | ok a => exact .inr ⟨a, rfl, h⟩

theorem discard_result {α : Type} {p : GateProc α} {r : Except String Unit}
    (h : (do let _ ← p : GateProc Unit) s = (r, s')) : ∃ r', p s = (r', s') := by
  rcases Proc.bind_cases h with ⟨e, hfailed, -⟩ | ⟨a, mid, hdone, hpure⟩
  · exact ⟨.error e, hfailed⟩
  · obtain ⟨-, rfl⟩ := Prod.mk.inj hpure
    exact ⟨.ok a, hdone⟩

/-- What one call enacts is sound. -/
theorem GateCall.enacts_soundly (hdb : Consistent s.db) (call : GateCall) {r : Except String Unit}
    (h : call.run deps faults s = (r, s')) :
    s'.enacted = s.enacted ∨
      ∃ x, s'.enacted = s.enacted ++ [x] ∧ SoundlyEnacted deps call s.db x := by
  cases call with
  | merge req =>
    obtain ⟨r', hrun⟩ := discard_result h
    rw [merge_eq] at hrun
    rcases checks_result hdb hrun with rfl | hrun
    · exact .inl rfl
    · rcases pure_result hrun with rfl | ⟨⟨mode, gate⟩, hgate, hrun⟩
      · exact .inl rfl
      · rcases Proc.bind_cases hrun with ⟨e, hrender, -⟩ | ⟨_, mid, hrender, hrun⟩
        · exact .inl ((KeepsEnacted.pure ()).unlessFault _ _ _ hrender)
        · obtain ⟨-, hpure⟩ := Proc.unlessFault_eq_ok.1 hrender
          obtain ⟨-, rfl⟩ := Prod.mk.inj hpure
          refine (takeAndPublish_enacted releaseMergeSlot_keepsEnacted afterMerge_keepsEnacted hdb
            hrun).imp_right ?_
          rintro ⟨db, henacted, hlanded⟩
          obtain ⟨hpassed, hmode⟩ := hlanded.ofMerge hdb hgate
          exact ⟨_, henacted, ⟨gate, rfl⟩, hlanded.slot, hpassed, fun _ => hmode⟩
  | push req =>
    obtain ⟨r', hrun⟩ := discard_result h
    rw [push_eq] at hrun
    rcases checks_result hdb hrun with rfl | hrun
    · exact .inl rfl
    · rcases pure_result hrun with rfl | ⟨gate, hgate, hrun⟩
      · exact .inl rfl
      · refine (takeAndPublish_enacted releaseOwnSlot_keepsEnacted afterPush_keepsEnacted hdb
          hrun).imp_right ?_
        rintro ⟨db, henacted, hlanded⟩
        exact ⟨_, henacted, rfl, hlanded.slot, hlanded.ofPublish hdb hgate, fun hlocal => by
          obtain ⟨_, hlocal⟩ := hlocal
          cases hlocal⟩
  | prMerge req =>
    obtain ⟨r', hrun⟩ := discard_result h
    rw [prMerge_eq] at hrun
    rcases checks_result hdb hrun with rfl | hrun
    · exact .inl rfl
    · rcases pure_result hrun with rfl | ⟨gate, hgate, hrun⟩
      · exact .inl rfl
      · refine (takeAndPublish_enacted releaseOwnSlot_keepsEnacted afterPrMerge_keepsEnacted hdb
          hrun).imp_right ?_
        rintro ⟨db, henacted, hlanded⟩
        exact ⟨_, henacted, rfl, hlanded.slot, hlanded.ofPublish hdb hgate, fun hlocal => by
          obtain ⟨_, hlocal⟩ := hlocal
          cases hlocal⟩

end

/-- Whatever a publish call enacts, in every project that the stores may reach, has passed its gate
where it is enacted. -/
theorem enacted_is_gated (clock : ℕ → ℕ) (before : List StoreCall) (deps : ReviewGateDeps)
    (faults : GateFaults) (call : GateCall) :
    ∀ x ∈ (call.run deps faults { db := storeRun before { clock } }).2.enacted,
      SoundlyEnacted deps call (storeRun before { clock }) x := by
  intro x hx
  rcases hrun : call.run deps faults { db := storeRun before { clock } } with ⟨r, s'⟩
  rw [hrun] at hx
  rcases call.enacts_soundly (storeRun_consistent (.empty clock)) hrun with hnone | ⟨y, hone, hsound⟩
  · rw [hnone] at hx
    cases hx
  · rw [hone] at hx
    obtain rfl : x = y := by simpa using hx
    exact hsound

/-- A branch from its baseline to the recorded `PASS` on its finish. -/
def reviewedParser : List StoreCall := [
  .worktree (.recordBaseline {
    branch := "parser"
    baseRef := "main"
    baseSha := "b0"
    tests := [⟨"parses", true⟩, ⟨"prints", false⟩] }),
  .worktree (.recordFinish {
    branch := "parser"
    baseSha := "b0"
    commitSha := "c1"
    tests := [⟨"parses", true⟩, ⟨"prints", false⟩] }),
  .review (.recordReviewRequested {
    reviewId := "r1", target := "main", branch := "parser", requestedBy := "lead" }),
  .review (.recordVerdict {
    reviewId := "r1"
    target := "main"
    branch := "parser"
    reviewer := "reviewer@r1"
    verdict := .pass
    verification := some ⟨["make test"], .pass, true⟩ })]

def parserMerge : GateCall := .merge {
  branch := "parser"
  into := "main"
  projectId := "p1"
  repoCwd := "/repo"
  summary := "a parser" }

/-- The reviewed branch is merged, and soundly so. -/
theorem reviewed_parser_is_gated : ∃ x,
    ((parserMerge.run operatorGate {} { db := storeRun reviewedParser .atRest }).2.enacted.head? =
      some x) ∧ SoundlyEnacted operatorGate parserMerge (storeRun reviewedParser .atRest) x := by
  have hsome : ((parserMerge.run operatorGate {}
      { db := storeRun reviewedParser .atRest }).2.enacted.head?).isSome = true := by
    decide +kernel
  obtain ⟨x, hx⟩ := Option.isSome_iff_exists.1 hsome
  exact ⟨x, hx, enacted_is_gated (fun _ => 0) reviewedParser operatorGate {} parserMerge x
    (List.mem_of_mem_head? hx)⟩

end Orchestration.Replay
