import Orchestration.Replay.GateCalls

/-!
# What a failed publish call leaves of the slot

A call that throws gives the slot back that it took, unless the event of the give-back
cannot be appended. A pull request has one more way to keep it: its description is rendered
when the slot is taken already and the guarded region has not begun.
-/

namespace Orchestration.Replay

open Fallible Transaction
open Transaction.Proc (onError unlessFault when)
open Orchestration.Review (GateFaults GateOutcome GateProc GateReads GateRequest MergeSlotResult
  Publishing ReviewGateDeps ReviewMergeRequest ReviewPushRequest ReviewPrMergeRequest
  recordSuccessfulOverride acquireMergeSlot acquirePublishSlot releaseMergeSlot releaseOwnSlot firePendingEscalation
  tearDown mergeChecks publishChecks overrideGate passGate)
open Orchestration.Worktrees (RepoMode PublishRequest EnactPushRequest EnactPrMergeRequest)

/-! ## The gate -/

section

variable {deps : ReviewGateDeps} {t : GateReads} {req : GateRequest} {gate : GateOutcome}

/-- A recorded `PASS` stands for no override. -/
theorem passGate_override {texts : Review.PassGateTexts} {mode : RepoMode}
    {requiredScope : Option Review.ReviewScope}
    (h : passGate deps t req texts mode requiredScope = .ok gate) : gate.override? req = none := by
  simp only [passGate, bind_eq_ok, pure_eq_ok] at h
  obtain ⟨_, -, _, -, _, -, _, -, _, -, _, -, rfl⟩ := h
  rfl

theorem overrideGate_override {verb : String} (h : overrideGate deps t req verb = .ok gate) :
    deps.agentId = some Mail.OPERATOR ∧ Js.trimString (req.reason.getD "") ≠ "" ∧
      ∃ failures, gate.override? req = some {
        target := req.into
        branch := req.branch
        reason := Js.trimString (req.reason.getD "")
        overriddenBy := Mail.OPERATOR
        verificationFailures := failures } := by
  simp only [overrideGate, bind_eq_ok, refuse_eq_ok, pure_eq_ok] at h
  obtain ⟨_, hreason, _, hagent, mode, -, rfl⟩ := h
  exact ⟨not_not.1 hagent, hreason, _, rfl⟩

theorem presentable_of_override {verb : String} (h : overrideGate deps t req verb = .ok gate) :
    Presentable req gate := by
  obtain ⟨-, hreason, failures, hoverride⟩ := overrideGate_override h
  intro o ho
  obtain rfl := Option.some.inj (hoverride.symm.trans ho)
  refine ⟨hreason, ?_⟩
  change Mail.OPERATOR ≠ ""
  decide

theorem presentable_of_pass {texts : Review.PassGateTexts} {mode : RepoMode}
    {requiredScope : Option Review.ReviewScope}
    (h : passGate deps t req texts mode requiredScope = .ok gate) : Presentable req gate := by
  intro o ho
  rw [passGate_override h] at ho
  cases ho

theorem mergeChecks_presentable {mode : RepoMode} (h : mergeChecks deps t req = .ok (mode, gate)) :
    Presentable req gate := by
  simp only [mergeChecks, bind_eq_ok, pure_eq_ok] at h
  obtain ⟨_, -, _, -, _, hgate, _, -, heq⟩ := h
  obtain ⟨rfl, rfl⟩ := Prod.mk.inj heq
  unfold Review.mergeGate at hgate
  split at hgate
  · exact presentable_of_override hgate
  · exact presentable_of_pass hgate

theorem publishChecks_presentable {verb : String} (h : publishChecks deps t req verb = .ok gate) :
    Presentable req gate := by
  simp only [publishChecks, bind_eq_ok, pure_eq_ok] at h
  obtain ⟨_, hgate, _, -, rfl⟩ := h
  unfold Review.publishGate at hgate
  split at hgate
  · exact presentable_of_override hgate
  · simp only [Review.gateOnPass, bind_eq_ok] at hgate
    obtain ⟨mode, -, hpass⟩ := hgate
    exact presentable_of_pass hpass

end

/-! ## The guarded region -/

/-- What comes after the give-back no longer fails. -/
def NeverThrows {σ α : Type} (p : Proc σ String α) : Prop := ∀ s, ∃ a s', p s = (.ok a, s')

theorem NeverThrows.bind {σ α β : Type} {p : Proc σ String α} {f : α → Proc σ String β}
    (hp : NeverThrows p) (hf : ∀ a, NeverThrows (f a)) : NeverThrows (p >>= f) := by
  intro s
  obtain ⟨a, mid, ha⟩ := hp s
  obtain ⟨b, last, hb⟩ := hf a mid
  exact ⟨b, last, Proc.bind_eq_ok.2 ⟨a, mid, ha, hb⟩⟩

theorem neverThrows_pure {σ α : Type} (a : α) : NeverThrows (pure a : Proc σ String α) :=
  fun s => ⟨a, s, rfl⟩

theorem neverThrows_tryCatch {σ α : Type} {p : Proc σ String α} {a : α} :
    NeverThrows (tryCatch p fun _ => pure a) := by
  intro s
  rcases hp : p s with ⟨e | b, s'⟩
  · exact ⟨a, s', Proc.tryCatch_eq_ok.2 (.inr ⟨e, s', hp, rfl⟩)⟩
  · exact ⟨b, s', Proc.tryCatch_eq_ok.2 (.inl hp)⟩

theorem firePendingEscalation_neverThrows (deps : ReviewGateDeps) (gate : GateOutcome) :
    NeverThrows (firePendingEscalation deps gate) := by
  unfold firePendingEscalation
  split
  · exact neverThrows_tryCatch
  · exact neverThrows_pure _

theorem tearDown_neverThrows (deps : ReviewGateDeps) (branch : String) :
    NeverThrows (tearDown deps branch) := by
  unfold tearDown
  split
  · exact neverThrows_pure _
  · exact neverThrows_tryCatch

section

variable {α β : Type} {faults : GateFaults} {req : GateRequest}

/-- Work, give the slot back if the result drops it, and finish. -/
def publishUnder (slot : MergeSlotResult) (work : GateProc α) (giveBack : GateProc Unit)
    (drops : α → Bool) (rest : α → GateProc β) : GateProc β := do
  let result ← onError work (when slot.fresh giveBack)
  when (drops result) giveBack
  rest result

/-- The slot of the branch is given back as `releaseMergeSlot` does it. -/
def GivesBack (faults : GateFaults) (req : GateRequest) (giveBack : GateProc Unit) : Prop :=
  ∀ s : Publishing, slots s.db req.into = some req.branch →
    giveBack s = releaseMergeSlot faults req s

theorem givesBack_merge : GivesBack faults req (releaseMergeSlot faults req) := fun _ _ => rfl

theorem givesBack_own : GivesBack faults req (releaseOwnSlot faults req) := by
  intro s hheld
  rw [releaseOwnSlot_eq, if_pos hheld]

variable {slot : MergeSlotResult} {work : GateProc α} {giveBack : GateProc Unit}
  {drops : α → Bool} {rest : α → GateProc β} {s : Publishing}

/-- A guarded region that found the slot held throws without touching it. -/
theorem publishUnder_held (hatomic : Proc.Atomic giveBack) (hrest : ∀ a, NeverThrows (rest a))
    (hfresh : slot.fresh = false) {e : String} {s' : Publishing}
    (h : publishUnder slot work giveBack drops rest s = (.error e, s')) : s' = (work s).2 := by
  rcases Proc.bind_cases h with ⟨_, hfailed, -⟩ | ⟨result, mid, hdone, h⟩
  · obtain ⟨cause, mid, hthrown, hclean⟩ := Proc.onError_eq_error.1 hfailed
    rw [hfresh, Proc.when_false] at hclean
    rcases hclean with ⟨hpure, -⟩ | hpure
    · obtain ⟨-, rfl⟩ := Prod.mk.inj hpure
      rw [hthrown]
    · cases hpure
  · rw [Proc.onError_eq_ok.1 hdone]
    rcases Proc.bind_cases h with ⟨_, hfailed, -⟩ | ⟨_, mid, hgiven, h⟩
    · cases hdrops : drops result with
      | false =>
        rw [hdrops, Proc.when_false] at hfailed
        cases hfailed
      | true =>
        rw [hdrops, Proc.when_true] at hfailed
        exact hatomic _ _ _ hfailed
    · obtain ⟨b, last, hok⟩ := hrest result mid
      rw [hok] at h
      cases h

/-- A guarded region that took the slot and throws left it free, or could not. -/
theorem publishUnder_fresh (hgive : GivesBack faults req giveBack)
    (hrest : ∀ a, NeverThrows (rest a)) (htarget : req.into ≠ "") (hbranch : req.branch ≠ "")
    (hdb : Consistent (work s).2.db) (hheld : slots (work s).2.db req.into = some req.branch)
    (hfresh : slot.fresh = true) {e : String} {s' : Publishing}
    (h : publishUnder slot work giveBack drops rest s = (.error e, s')) :
    slots s'.db req.into = none ∨ ¬ (faults.release = none ∧ RoomFor 1 (work s).2.db) ∧
      ∀ a, (work s).1 = .ok a → drops a = true := by
  rcases hwork : work s with ⟨r, last⟩
  rw [hwork] at hdb hheld
  have hreleases := @releaseMergeSlot_held faults req _ hdb htarget hbranch hheld
  rw [← hgive last hheld] at hreleases
  rcases Proc.bind_cases h with ⟨_, hfailed, -⟩ | ⟨result, mid, hdone, h⟩
  · obtain ⟨cause, mid, hthrown, hclean⟩ := Proc.onError_eq_error.1 hfailed
    obtain ⟨rfl, rfl⟩ := Prod.mk.inj (hwork.symm.trans hthrown)
    rw [hfresh, Proc.when_true] at hclean
    rcases hreleases with ⟨db, hrelease, hfree, -⟩ | ⟨-, hcannot⟩
    · rw [hrelease] at hclean
      rcases hclean with ⟨hclean, -⟩ | hclean
      · obtain ⟨-, rfl⟩ := Prod.mk.inj hclean
        exact .inl hfree
      · cases hclean
    · exact .inr ⟨hcannot, nofun⟩
  · obtain ⟨rfl, rfl⟩ := Prod.mk.inj (hwork.symm.trans (Proc.onError_eq_ok.1 hdone))
    rcases Proc.bind_cases h with ⟨_, hfailed, -⟩ | ⟨_, mid, hgiven, h⟩
    · cases hdrops : drops result with
      | false =>
        rw [hdrops, Proc.when_false] at hfailed
        cases hfailed
      | true =>
        rw [hdrops, Proc.when_true] at hfailed
        rcases hreleases with ⟨db, hrelease, -⟩ | ⟨-, hcannot⟩
        · rw [hrelease] at hfailed
          cases hfailed
        · refine .inr ⟨hcannot, fun a ha => ?_⟩
          obtain rfl := Except.ok.inj ha
          exact hdrops
    · obtain ⟨b, last, hok⟩ := hrest result mid
      rw [hok] at h
      cases h

/-- A slot that was just taken, should be dropped and cannot be given back stays with the branch,
and the call throws. -/
theorem publishUnder_stuck (hgive : GivesBack faults req giveBack) (htarget : req.into ≠ "")
    (hbranch : req.branch ≠ "") (hdb : Consistent (work s).2.db)
    (hheld : slots (work s).2.db req.into = some req.branch) (hfresh : slot.fresh = true)
    (hcannot : ¬ (faults.release = none ∧ RoomFor 1 (work s).2.db))
    (hdrops : ∀ a, (work s).1 = .ok a → drops a = true) :
    ∃ e s', publishUnder slot work giveBack drops rest s = (.error e, s') ∧
      slots s'.db req.into = some req.branch := by
  rcases hwork : work s with ⟨r, last⟩
  rw [hwork] at hdb hheld hcannot hdrops
  have hrelease : ∃ e, giveBack last = (.error e, last) := by
    rw [hgive last hheld]
    rcases @releaseMergeSlot_held faults req _ hdb htarget hbranch hheld with
      ⟨db, -, -, hcan⟩ | ⟨hrelease, -⟩
    · exact absurd hcan hcannot
    · exact hrelease
  obtain ⟨e, hrelease⟩ := hrelease
  refine ⟨e, last, ?_, hheld⟩
  cases r with
  | error cause =>
    refine Proc.bind_error (Proc.onError_eq_error.2 ⟨cause, last, hwork, .inr ?_⟩)
    rw [hfresh, Proc.when_true]
    exact hrelease
  | ok a =>
    refine Proc.bind_eq_error.2 (.inr ⟨a, last, Proc.onError_eq_ok.2 hwork, ?_⟩)
    refine Proc.bind_error ?_
    rw [hdrops a rfl, Proc.when_true]
    exact hrelease

end

/-! ## From the slot to the end -/

/-- The give-back of a slot that the call takes can be appended. -/
def CanRelease (faults : GateFaults) (req : GateRequest) (gate : GateOutcome) (db : Db) : Prop :=
  faults.release = none ∧ RoomFor
    (if (gate.override? req).isSome = true ∧ faults.override = none ∧ RoomFor 2 db then 3 else 2) db

/-- The override that the gate stands for, if any, can be appended. -/
def CanRecord (faults : GateFaults) (req : GateRequest) (gate : GateOutcome) (db : Db) : Prop :=
  gate.override? req = none ∨ faults.override = none ∧ RoomFor 2 db

section

variable {α β : Type} {faults : GateFaults} {req : GateRequest} {gate : GateOutcome}
  {operation : Review.Enacted} {mode : RepoMode} {result : Except String α} {s : Publishing}
  {db : Db} {event : NewEvent Payload}

/-- Whether the slot can be given back after the work shows in the project before the call. -/
theorem canRelease_iff (hdb : Consistent s.db) (hcommit : s.db.commit event = .ok db)
    (htarget : req.into ≠ "") (hbranch : req.branch ≠ "") (hgate : Presentable req gate) :
    faults.release = none ∧
        RoomFor 1 (work faults req gate operation mode result { s with db }).2.db ↔
      CanRelease faults req gate s.db := by
  have hmid : Consistent db := hdb.commit hcommit
  have hroom : RoomFor 1 (work faults req gate operation mode result { s with db }).2.db ↔
      RoomFor (roomNeeded faults req gate db) db := by
    constructor
    · intro hone
      by_contra hfull
      exact work_full hmid htarget hbranch hgate hfull hone
    · exact fun h => (worked hmid rfl).room h
  have hone : RoomFor 1 db ↔ RoomFor 2 s.db := (room_of_commit hcommit).2 1
  unfold CanRelease
  rw [hroom, roomNeeded]
  simp only [hone]
  refine and_congr_right fun _ => ?_
  split
  · exact (room_of_commit hcommit).2 2
  · exact hone

/-- Whether the work succeeds shows in the project before the call. -/
theorem work_ok_iff (hdb : Consistent s.db) (hcommit : s.db.commit event = .ok db)
    (htarget : req.into ≠ "") (hbranch : req.branch ≠ "") (hgate : Presentable req gate) {a : α} :
    (work faults req gate operation mode result { s with db }).1 = .ok a ↔
      CanRecord faults req gate s.db ∧ result = .ok a := by
  have hmid : Consistent db := hdb.commit hcommit
  have hone : RoomFor 1 db ↔ RoomFor 2 s.db := (room_of_commit hcommit).2 1
  constructor
  · intro hok
    rcases hrun : work faults req gate operation mode result { s with db } with ⟨r, last⟩
    rw [hrun] at hok
    obtain rfl : r = .ok a := hok
    cases worked hmid hrun with
    | plain hplain => exact ⟨.inl hplain, rfl⟩
    | overridden _ hfault _ hrecorded =>
      exact ⟨.inr ⟨hfault, hone.1 (room_of_commit hrecorded).1⟩, rfl⟩
  · rintro ⟨hcan, rfl⟩
    have hsucceeds : ∃ s', recordSuccessfulOverride faults req gate { s with db } = (.ok (), s') := by
      rcases hcan with hplain | ⟨hfault, hroom⟩
      · refine ⟨{ s with db }, ?_⟩
        rw [recordSuccessfulOverride, hplain]
        rfl
      · exact recordSuccessfulOverride_succeeds hmid htarget hbranch hgate hfault (hone.2 hroom)
    obtain ⟨last, hrecorded⟩ := hsucceeds
    rw [work, Proc.bind_apply hrecorded]
    rfl

/-- Take the slot, render what is rendered under it, and publish. -/
def takeAndPublish (faults : GateFaults) (req : GateRequest) (gate : GateOutcome)
    (operation : Review.Enacted) (mode : RepoMode) (result : Except String α)
    (refusal : MergeSlotResult → String) (rendering : Option String) (giveBack : GateProc Unit)
    (drops : α → Bool) (rest : α → GateProc β) : GateProc β := do
  let slot ← acquireMergeSlot faults req
  refuse (slot.acquired = false) (refusal slot)
  unlessFault rendering (pure ())
  publishUnder slot (work faults req gate operation mode result) giveBack drops rest

/-- The call takes the free slot and fails with the slot in hand: it must give the slot back and
cannot, or what it renders under the slot does not render. -/
def LosesSlot (faults : GateFaults) (req : GateRequest) (gate : GateOutcome)
    (result : Except String α) (rendering : Option String) (drops : α → Bool) (db : Db) : Prop :=
  Takes faults req db ∧ (rendering = none → ¬ CanRelease faults req gate db ∧
    ¬ (CanRecord faults req gate db ∧ ∃ a, result = .ok a ∧ drops a = false))

variable {refusal : MergeSlotResult → String} {rendering : Option String}
  {giveBack : GateProc Unit} {drops : α → Bool} {rest : α → GateProc β}

theorem takeAndPublish_restores (hdb : Consistent s.db) (hgate : Presentable req gate)
    (hgive : GivesBack faults req giveBack) (hatomic : Proc.Atomic giveBack)
    (hrest : ∀ a, NeverThrows (rest a))
    (hsafe : ¬ LosesSlot faults req gate result rendering drops s.db) {e : String} {s' : Publishing}
    (h : takeAndPublish faults req gate operation mode result refusal rendering giveBack drops rest
      s = (.error e, s')) : slots s'.db req.into = slots s.db req.into := by
  rcases Proc.bind_cases h with ⟨_, hfailed, -⟩ | ⟨slot, mid, hacquire, h⟩
  · rw [acquireMergeSlot_atomic s _ s' hfailed]
  · cases acquireMergeSlot_eq_ok hdb hacquire with
    | held hheld =>
      rcases Proc.bind_cases h with ⟨_, hrefused, -⟩ | ⟨_, mid, hgoes, h⟩
      · rw [(Prod.mk.inj hrefused).2]
      · obtain ⟨-, rfl⟩ := Prod.mk.inj hgoes
        rcases Proc.bind_cases h with ⟨_, hrender, -⟩ | ⟨_, mid, hrender, h⟩
        · rw [((Proc.readOnly_pure ()).atomic.unlessFault _) _ _ _ hrender]
        · obtain ⟨-, hpure⟩ := Proc.unlessFault_eq_ok.1 hrender
          obtain ⟨-, rfl⟩ := Prod.mk.inj hpure
          rw [publishUnder_held hatomic hrest rfl h, (work_slots hdb).2]
    | @fresh db event hfree hevent hcommit =>
      have htakes := takes_of_fresh hdb hacquire hfree
      have hmid : Consistent db := hdb.commit hcommit
      have hheld : slots db req.into = some req.branch := by
        rw [slots_of_acquire hevent hfree hcommit]
        exact Function.update_self ..
      rcases Proc.bind_cases h with ⟨_, hrefused, -⟩ | ⟨_, mid, hgoes, h⟩
      · cases hrefused
      · obtain ⟨-, rfl⟩ := Prod.mk.inj hgoes
        have hloses : ¬ (rendering = none → _) := fun hlost => hsafe ⟨htakes, hlost⟩
        rcases Proc.bind_cases h with ⟨_, hrender, -⟩ | ⟨_, mid, hrender, h⟩
        · rcases Proc.unlessFault_eq_error.1 hrender with ⟨hfault, -⟩ | ⟨-, hpure⟩
          · exact absurd (fun hnone => absurd (hfault.symm.trans hnone) (by simp)) hloses
          · cases hpure
        · obtain ⟨hnone, hpure⟩ := Proc.unlessFault_eq_ok.1 hrender
          obtain ⟨-, rfl⟩ := Prod.mk.inj hpure
          have hends := @work_slots _ faults req gate operation mode result { s with db } hmid
          rcases publishUnder_fresh hgive hrest htakes.target htakes.branch hends.1
              (hends.2 ▸ hheld) rfl h with hfree' | ⟨hcannot, hdrops⟩
          · rw [hfree', hfree]
          · refine absurd (fun _ => ⟨?_, ?_⟩) hloses
            · rwa [canRelease_iff hdb hcommit htakes.target htakes.branch hgate] at hcannot
            · rintro ⟨hcan, a, hresult, hkept⟩
              have hdropped := hdrops a
                ((work_ok_iff hdb hcommit htakes.target htakes.branch hgate).2 ⟨hcan, hresult⟩)
              rw [hdropped] at hkept
              cases hkept

variable (operation mode refusal rest) in
theorem takeAndPublish_loses (hdb : Consistent s.db) (hgate : Presentable req gate)
    (hgive : GivesBack faults req giveBack)
    (hloses : LosesSlot faults req gate result rendering drops s.db) :
    ∃ e s', takeAndPublish faults req gate operation mode result refusal rendering giveBack drops
        rest s = (.error e, s') ∧ slots s'.db req.into = some req.branch := by
  obtain ⟨htakes, hlost⟩ := hloses
  obtain ⟨db, event, hacquire, hevent, hcommit⟩ := htakes.acquired hdb
  have hmid : Consistent db := hdb.commit hcommit
  have hheld : slots db req.into = some req.branch := by
    rw [slots_of_acquire hevent htakes.free hcommit]
    exact Function.update_self ..
  -- the slot is taken: it remains to follow the call from there
  have hthen : ∀ {e s'}, (do
        unlessFault rendering (pure ())
        publishUnder ⟨true, false, req.branch, true⟩ (work faults req gate operation mode result)
          giveBack drops rest : GateProc β) { s with db } = (.error e, s') →
      takeAndPublish faults req gate operation mode result refusal rendering giveBack drops rest s =
        (.error e, s') := fun hrest =>
    Proc.bind_eq_error.2 (.inr ⟨_, _, hacquire, Proc.bind_eq_error.2 (.inr ⟨(), _, rfl, hrest⟩)⟩)
  cases hrendering : rendering with
  | some e =>
    refine ⟨e, { s with db }, hrendering ▸ hthen (Proc.bind_error ?_), hheld⟩
    rw [hrendering, Proc.unlessFault_some]
  | none =>
    obtain ⟨hcannot, hkept⟩ := hlost hrendering
    suffices hstuck : ∃ e s', publishUnder ⟨true, false, req.branch, true⟩
        (work faults req gate operation mode result) giveBack drops rest { s with db } =
          (.error e, s') ∧ slots s'.db req.into = some req.branch by
      obtain ⟨e, s', hstuck, hslots⟩ := hstuck
      refine ⟨e, s', hrendering ▸ hthen (Proc.bind_eq_error.2 (.inr ⟨(), _, ?_, hstuck⟩)), hslots⟩
      rw [hrendering, Proc.unlessFault_none]
      rfl
    have hends := @work_slots _ faults req gate operation mode result { s with db } hmid
    refine publishUnder_stuck hgive htakes.target htakes.branch hends.1 (hends.2 ▸ hheld) rfl ?_ ?_
    · rwa [canRelease_iff hdb hcommit htakes.target htakes.branch hgate]
    · intro a hok
      obtain ⟨hcan, hresult⟩ := (work_ok_iff hdb hcommit htakes.target htakes.branch hgate).1 hok
      cases hdrops : drops a with
      | true => rfl
      | false => exact absurd ⟨hcan, a, hresult, hdrops⟩ hkept

end

/-! ## The three calls -/

/-- A call of the publish gate. -/
inductive GateCall where
  | merge (req : ReviewMergeRequest)
  | push (req : ReviewPushRequest)
  | prMerge (req : ReviewPrMergeRequest)

namespace GateCall

def req : GateCall → GateRequest
  | merge req => req.toGateRequest
  | push req => req.toGateRequest
  | prMerge req => req.toGateRequest

def run (deps : ReviewGateDeps) (faults : GateFaults) : GateCall → GateProc Unit
  | merge req => do
    let _ ← Review.merge deps faults req
  | push req => do
    let _ ← Review.push deps faults req
  | prMerge req => do
    let _ ← Review.prMerge deps faults req

end GateCall

namespace GateCall

/-- The tables of a project. -/
def reads (db : Db) : GateReads := { review := db.review, worktrees := db.worktrees }

def pushRequest (req : ReviewPushRequest) : EnactPushRequest where
  branch := req.branch
  into := req.into
  repoCwd := req.repoCwd
  remote := req.remote

def prMergeRequest (deps : ReviewGateDeps) (req : ReviewPrMergeRequest) : EnactPrMergeRequest where
  branch := req.branch
  into := req.into
  title := req.title
  description := deps.scrubOutwardText (Worktrees.renderPrMessage req.intent)
  repoCwd := req.repoCwd

def mergeRequest (req : ReviewMergeRequest) (gate : GateOutcome) : PublishRequest where
  branch := req.branch
  into := req.into
  message := Worktrees.renderMergeMessage {
    branch := req.branch
    summary := req.summary
    reviewVerdict := gate.reviewVerdict
    body := req.body }
  repoCwd := req.repoCwd

/-- The call passes its checks, takes the slot of its target and loses it. -/
def Leaks (deps : ReviewGateDeps) (faults : GateFaults) (call : GateCall) (db : Db) : Prop :=
  faults.checks = none ∧
  match call with
  | merge req => faults.render = none ∧ ∃ mode gate,
      mergeChecks deps (reads db) req.toGateRequest = .ok (mode, gate) ∧
      LosesSlot faults req.toGateRequest gate
        (deps.repoModeGate.enactPublish (mergeRequest req gate) mode) none (fun _ => true) db
  | push req => ∃ gate, publishChecks deps (reads db) req.toGateRequest "co_push" = .ok gate ∧
      LosesSlot faults req.toGateRequest gate
        (deps.repoModeGate.enactPush (pushRequest req) gate.mode) none
        (fun result => result.mode ≠ .contributor) db
  | prMerge req => ∃ gate,
      publishChecks deps (reads db) req.toGateRequest "co_pr_merge" = .ok gate ∧
      LosesSlot faults req.toGateRequest gate
        (deps.repoModeGate.enactPrMerge (prMergeRequest deps req) gate.mode) faults.render
        (fun _ => true) db

end GateCall

section

variable {deps : ReviewGateDeps} {faults : GateFaults}

/-- A merge, with its message rendered beforehand. -/
theorem merge_eq (req : ReviewMergeRequest) (s : Publishing) : Review.merge deps faults req s =
    (do
      let t ← Review.stores (unlessFault faults.checks Review.readTables)
      let (mode, gate) ← mergeChecks deps t req.toGateRequest
      unlessFault faults.render (pure ())
      takeAndPublish faults req.toGateRequest gate (.publish (GateCall.mergeRequest req gate)) mode
        (deps.repoModeGate.enactPublish (GateCall.mergeRequest req gate) mode)
        (Review.mergeBusy req.toGateRequest) none (releaseMergeSlot faults req.toGateRequest)
        (fun _ => true)
        (Review.afterMerge deps req gate (GateCall.mergeRequest req gate).message) :
      GateProc Review.ReviewMergeResult) s := by
  refine Proc.bind_congr (fun t s => Proc.bind_congr (fun checked s => ?_) s) s
  obtain ⟨mode, gate⟩ := checked
  refine (Proc.unlessFault_pure_bind s).trans (Proc.bind_congr (fun _ s => ?_) s)
  exact Proc.bind_congr (fun slot s => Proc.bind_congr (fun _ s => rfl) s) s

theorem acquirePublishSlot_bind {α : Type} {req : GateRequest} {verb : String}
    (f : MergeSlotResult → GateProc α) (s : Publishing) :
    (acquirePublishSlot faults req verb >>= f) s = (do
      let slot ← acquireMergeSlot faults req
      refuse (slot.acquired = false) (Review.publishBusy req verb slot)
      f slot : GateProc α) s := by
  refine (Proc.bind_bind _ _ _ s).trans (Proc.bind_congr (fun slot s => ?_) s)
  exact Proc.bind_bind _ _ _ s

/-- A push. -/
theorem push_eq (req : ReviewPushRequest) (s : Publishing) : Review.push deps faults req s =
    (do
      let t ← Review.stores (unlessFault faults.checks Review.readTables)
      let gate ← publishChecks deps t req.toGateRequest "co_push"
      takeAndPublish faults req.toGateRequest gate (.push (GateCall.pushRequest req)) gate.mode
        (deps.repoModeGate.enactPush (GateCall.pushRequest req) gate.mode)
        (Review.publishBusy req.toGateRequest "co_push") none
        (releaseOwnSlot faults req.toGateRequest) (fun result => result.mode ≠ .contributor)
        (Review.afterPush deps gate) : GateProc Review.ReviewPushResult) s := by
  refine Proc.bind_congr (fun t s => Proc.bind_congr (fun gate s => ?_) s) s
  exact acquirePublishSlot_bind _ s

/-- A pull request, with its description worked out beforehand. -/
theorem prMerge_eq (req : ReviewPrMergeRequest) (s : Publishing) :
    Review.prMerge deps faults req s =
    (do
      let t ← Review.stores (unlessFault faults.checks Review.readTables)
      let gate ← publishChecks deps t req.toGateRequest "co_pr_merge"
      takeAndPublish faults req.toGateRequest gate (.prMerge (GateCall.prMergeRequest deps req))
        gate.mode (deps.repoModeGate.enactPrMerge (GateCall.prMergeRequest deps req) gate.mode)
        (Review.publishBusy req.toGateRequest "co_pr_merge") faults.render
        (releaseOwnSlot faults req.toGateRequest) (fun _ => true)
        (Review.afterPrMerge deps gate (GateCall.prMergeRequest deps req).description) :
      GateProc Review.ReviewPrMergeResult) s := by
  refine Proc.bind_congr (fun t s => Proc.bind_congr (fun gate s => ?_) s) s
  refine (acquirePublishSlot_bind _ s).trans ?_
  refine Proc.bind_congr (fun slot s => Proc.bind_congr (fun _ s => ?_) s) s
  exact Proc.unlessFault_pure_bind s

theorem releaseOwnSlot_atomic {req : GateRequest} : Proc.Atomic (releaseOwnSlot faults req) := by
  intro s e s' h
  rw [releaseOwnSlot_eq] at h
  split at h
  · exact releaseMergeSlot_atomic s e s' h
  · cases h

theorem afterMerge_neverThrows {req : ReviewMergeRequest} {gate : GateOutcome} {message : String}
    (result : Worktrees.PublishResult) :
    NeverThrows (Review.afterMerge deps req gate message result) :=
  (firePendingEscalation_neverThrows deps gate).bind fun _ =>
    (tearDown_neverThrows deps req.branch).bind fun _ => neverThrows_pure _

theorem afterPush_neverThrows {gate : GateOutcome} (result : Worktrees.EnactPushResult) :
    NeverThrows (Review.afterPush deps gate result) :=
  (firePendingEscalation_neverThrows deps gate).bind fun _ => neverThrows_pure _

theorem afterPrMerge_neverThrows {gate : GateOutcome} {description : String}
    (result : Worktrees.EnactPrMergeResult) :
    NeverThrows (Review.afterPrMerge deps gate description result) :=
  (firePendingEscalation_neverThrows deps gate).bind fun _ => neverThrows_pure _

end

/-! ## Every call -/

section

variable {deps : ReviewGateDeps} {faults : GateFaults} {s s' : Publishing} {e : String}

theorem discard_eq_error {α : Type} {p : GateProc α} :
    (do let _ ← p : GateProc Unit) s = (.error e, s') ↔ p s = (.error e, s') := by
  rw [Proc.bind_eq_error]
  constructor
  · rintro (h | ⟨_, _, -, h⟩)
    · exact h
    · cases h
  · exact .inl

/-- The checks write nothing: a call fails on them without a trace, or goes on from the tables. -/
theorem checks_cases {α : Type} {f : GateReads → GateProc α} (hdb : Consistent s.db)
    (h : (Review.stores (unlessFault faults.checks Review.readTables) >>= f) s = (.error e, s')) :
    s' = s ∨ faults.checks = none ∧ f (GateCall.reads s.db) s = (.error e, s') := by
  rcases Proc.bind_cases h with ⟨_, hfailed, -⟩ | ⟨t, mid, hread, hrest⟩
  · obtain ⟨db, hreads, rfl⟩ := stores_eq.1 hfailed
    rcases Proc.unlessFault_eq_error.1 hreads with ⟨-, rfl⟩ | ⟨-, hthrown⟩
    · exact .inl rfl
    · rw [readTables_eq hdb] at hthrown
      cases hthrown
  · obtain ⟨db, hreads, rfl⟩ := stores_eq.1 hread
    obtain ⟨hnone, hdone⟩ := Proc.unlessFault_eq_ok.1 hreads
    rw [readTables_eq hdb] at hdone
    obtain ⟨ht, rfl⟩ := Prod.mk.inj hdone
    obtain rfl := Except.ok.inj ht
    exact .inr ⟨hnone, hrest⟩

theorem checks_bind {α : Type} {f : GateReads → GateProc α} (hdb : Consistent s.db)
    (hnone : faults.checks = none) {r : Except String α}
    (h : f (GateCall.reads s.db) s = (r, s')) :
    (Review.stores (unlessFault faults.checks Review.readTables) >>= f) s = (r, s') := by
  have hread : Review.stores (unlessFault faults.checks Review.readTables) s =
      (.ok (GateCall.reads s.db), s) := by
    refine stores_eq.2 ⟨s.db, ?_, rfl⟩
    rw [hnone, Proc.unlessFault_none, readTables_eq hdb]
    rfl
  rw [Proc.bind_apply hread, h]

/-- A pure check fails without a trace, or goes on with its value. -/
theorem pure_cases {α β : Type} {x : Except String α} {f : α → GateProc β}
    (h : (liftM x >>= f : GateProc β) s = (.error e, s')) :
    s' = s ∨ ∃ a, x = .ok a ∧ f a s = (.error e, s') := by
  cases x with
  | error cause =>
    obtain ⟨-, rfl⟩ := Prod.mk.inj h
    exact .inl rfl
  | ok a => exact .inr ⟨a, rfl, h⟩

theorem GateCall.restores_of_not_leaks (hdb : Consistent s.db) {call : GateCall}
    (hsafe : ¬ call.Leaks deps faults s.db) (h : call.run deps faults s = (.error e, s')) :
    slots s'.db call.req.into = slots s.db call.req.into := by
  cases call with
  | merge req =>
    have hrun := discard_eq_error.1 h
    rw [merge_eq] at hrun
    rcases checks_cases hdb hrun with rfl | ⟨hchecks, hrun⟩
    · rfl
    · rcases pure_cases hrun with rfl | ⟨⟨mode, gate⟩, hgate, hrun⟩
      · rfl
      · rcases Proc.bind_cases hrun with ⟨_, hrender, -⟩ | ⟨_, mid, hrender, hrun⟩
        · rw [((Proc.readOnly_pure ()).atomic.unlessFault _) _ _ _ hrender]
        · obtain ⟨hrenders, hpure⟩ := Proc.unlessFault_eq_ok.1 hrender
          obtain ⟨-, rfl⟩ := Prod.mk.inj hpure
          refine takeAndPublish_restores hdb (mergeChecks_presentable hgate) givesBack_merge
            releaseMergeSlot_atomic afterMerge_neverThrows (fun hloses => hsafe ?_) hrun
          exact ⟨hchecks, hrenders, mode, gate, hgate, hloses⟩
  | push req =>
    have hrun := discard_eq_error.1 h
    rw [push_eq] at hrun
    rcases checks_cases hdb hrun with rfl | ⟨hchecks, hrun⟩
    · rfl
    · rcases pure_cases hrun with rfl | ⟨gate, hgate, hrun⟩
      · rfl
      · refine takeAndPublish_restores hdb (publishChecks_presentable hgate) givesBack_own
          releaseOwnSlot_atomic afterPush_neverThrows (fun hloses => hsafe ?_) hrun
        exact ⟨hchecks, gate, hgate, hloses⟩
  | prMerge req =>
    have hrun := discard_eq_error.1 h
    rw [prMerge_eq] at hrun
    rcases checks_cases hdb hrun with rfl | ⟨hchecks, hrun⟩
    · rfl
    · rcases pure_cases hrun with rfl | ⟨gate, hgate, hrun⟩
      · rfl
      · refine takeAndPublish_restores hdb (publishChecks_presentable hgate) givesBack_own
          releaseOwnSlot_atomic afterPrMerge_neverThrows (fun hloses => hsafe ?_) hrun
        exact ⟨hchecks, gate, hgate, hloses⟩

theorem GateCall.loses_of_leaks (hdb : Consistent s.db) {call : GateCall}
    (hleaks : call.Leaks deps faults s.db) : ∃ e s', call.run deps faults s = (.error e, s') ∧
      slots s.db call.req.into = none ∧ slots s'.db call.req.into = some call.req.branch := by
  cases call with
  | merge req =>
    obtain ⟨hchecks, hrender, mode, gate, hgate, hloses⟩ := hleaks
    obtain ⟨e, s', hrun, hheld⟩ := takeAndPublish_loses (.publish (mergeRequest req gate)) mode
      (Review.mergeBusy req.toGateRequest)
      (Review.afterMerge deps req gate (mergeRequest req gate).message) hdb
      (mergeChecks_presentable hgate) givesBack_merge hloses
    refine ⟨e, s', discard_eq_error.2 ?_, hloses.1.free, hheld⟩
    rw [merge_eq]
    refine checks_bind hdb hchecks ?_
    rw [hgate]
    refine Proc.bind_eq_error.2 (.inr ⟨(mode, gate), s, rfl, ?_⟩)
    refine Proc.bind_eq_error.2 (.inr ⟨(), s, ?_, hrun⟩)
    rw [hrender, Proc.unlessFault_none]
    rfl
  | push req =>
    obtain ⟨hchecks, gate, hgate, hloses⟩ := hleaks
    obtain ⟨e, s', hrun, hheld⟩ := takeAndPublish_loses (.push (pushRequest req)) gate.mode
      (Review.publishBusy req.toGateRequest "co_push") (Review.afterPush deps gate) hdb
      (publishChecks_presentable hgate) givesBack_own hloses
    refine ⟨e, s', discard_eq_error.2 ?_, hloses.1.free, hheld⟩
    rw [push_eq]
    refine checks_bind hdb hchecks ?_
    rw [hgate]
    exact Proc.bind_eq_error.2 (.inr ⟨gate, s, rfl, hrun⟩)
  | prMerge req =>
    obtain ⟨hchecks, gate, hgate, hloses⟩ := hleaks
    obtain ⟨e, s', hrun, hheld⟩ := takeAndPublish_loses (.prMerge (prMergeRequest deps req)) gate.mode
      (Review.publishBusy req.toGateRequest "co_pr_merge")
      (Review.afterPrMerge deps gate (prMergeRequest deps req).description) hdb
      (publishChecks_presentable hgate) givesBack_own hloses
    refine ⟨e, s', discard_eq_error.2 ?_, hloses.1.free, hheld⟩
    rw [prMerge_eq]
    refine checks_bind hdb hchecks ?_
    rw [hgate]
    exact Proc.bind_eq_error.2 (.inr ⟨gate, s, rfl, hrun⟩)

end

/-- In every project that the stores may reach, a publish call that throws leaves the slot of its
target with its holder, unless the call takes the slot and then can neither finish nor give it
back. -/
theorem failed_publish_keeps_slot_iff (clock : ℕ → ℕ) (before : List StoreCall)
    (deps : ReviewGateDeps) (faults : GateFaults) (call : GateCall) :
    let s : Publishing := { db := storeRun before { clock } }
    (∀ e s', call.run deps faults s = (.error e, s') →
      slots s'.db call.req.into = slots s.db call.req.into) ↔ ¬ call.Leaks deps faults s.db := by
  intro s
  have hdb : Consistent s.db := storeRun_consistent (.empty clock)
  constructor
  · intro hkeeps hleaks
    obtain ⟨e, s', hrun, hfree, hheld⟩ := GateCall.loses_of_leaks hdb hleaks
    rw [hkeeps e s' hrun, hfree] at hheld
    cases hheld
  · exact fun hsafe e s' h => GateCall.restores_of_not_leaks hdb hsafe h

/-- An operator's gate in an owned repository where everything that is enacted succeeds. -/
def operatorGate : ReviewGateDeps where
  repoModeGate := {
    enactPublish := fun _ mode => .ok { merged := true, commitSha := "c1", mode }
    enactPush := fun _ mode => .ok { pushed := true, remote := "origin", mode }
    enactPrMerge := fun _ mode => .ok { prUrl := "https://host/pr/1", mode } }
  resolveMode := fun _ _ => .ok .owner
  agentId := some Mail.OPERATOR

def urgent : GateRequest where
  branch := "parser"
  into := "main"
  projectId := "p1"
  repoCwd := "/repo"
  operatorOverride := true
  reason := some "the release waits for it"

/-- A pull request by the operator's override. -/
def urgentPr : GateCall := .prMerge { urgent with
  title := "Parser"
  intent := {
    why := "the release waits for it"
    whatChanged := "a parser"
    verification := "none"
    conventions := "none" } }

def urgentMerge : GateCall := .merge { urgent with summary := "a parser" }

/-- The runtime cannot hold the text of the description. -/
def tooLong : GateFaults where
  render := some "Invalid string length"

/-- The database refuses the event that gives the slot back. -/
def diskFull : GateFaults where
  release := some "database or disk is full"

/-- A pull request whose description does not render keeps the slot, and so does a merge whose
give-back is refused. -/
theorem failed_publish_takes_slot :
    ¬ ∀ (clock : ℕ → ℕ) (before : List StoreCall) (deps : ReviewGateDeps) (faults : GateFaults)
      (call : GateCall) (e : String) (s' : Publishing),
      call.run deps faults { db := storeRun before { clock } } = (.error e, s') →
      slots s'.db call.req.into = slots (storeRun before { clock }) call.req.into := by
  intro hall
  have hfails : (urgentPr.run operatorGate tooLong { db := .atRest }).1 =
      .error "Invalid string length" := by
    decide +kernel
  have hsame := hall (fun _ => 0) [] operatorGate tooLong urgentPr _ _ (Prod.ext hfails rfl)
  have hchanged : slots (urgentPr.run operatorGate tooLong { db := .atRest }).2.db "main" =
      some "parser" := by
    decide +kernel
  exact absurd (hchanged.symm.trans hsame) (by decide)

example : slots (urgentMerge.run operatorGate diskFull { db := .atRest }).2.db "main" =
    some "parser" := by
  decide +kernel

end Orchestration.Replay
