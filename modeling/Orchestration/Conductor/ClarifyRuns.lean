import Orchestration.Conductor.ClarifyTick
import Orchestration.Replay.Recovery

/-!
# Ticks over a whole run

Between two cadences the stores of the projects do whatever they do. As long as
no clock runs out for a clarify that cannot be forwarded, every tick goes through,
forwards each clarify once and in time, and lets the reconcile sweep follow.
-/

namespace Orchestration.Conductor

open Fallible Transaction
open Mail (DeliveredMail waitingItems RaisedFor WentUpOnce)
open Replay (StoreCall storeRun)

/-- A cadence of the daemon, with what the stores of each project did before it. -/
structure Cadence where
  activity : String → List StoreCall
  deps : ConductorEngineDeps
  now : ℚ
  candidates : List HostedIdentity

namespace Cadence

/-- The conductor at the beginning of the tick. -/
def before (step : Cadence) (engine : Engine) : Engine :=
  { engine with stores := fun p => storeRun (step.activity p) (engine.stores p) }

def tick (step : Cadence) : EngineProc (List DeliveredMail) :=
  tickClarifyTimeouts step.deps step.now step.candidates

/-- The conductor after the tick. -/
def exec (step : Cadence) (engine : Engine) : Engine := step.tick.exec (step.before engine)

/-- Nothing stands in the way of a tick that begins in this state. -/
structure Clear (step : Cadence) (engine : Engine) : Prop where
  due : ∀ identity ∈ step.candidates, DueForwardable step.deps step.now engine identity
  unwithdrawn : ∀ identity ∈ step.candidates, ∀ m ∈ waitingFor engine identity,
    ∀ up ∈ (engine.stores identity.projectId).mail.inbox, RaisedFor m up → up.retracted = false
  apart : ∀ identity ∈ step.candidates, ScopeApart engine identity
  room : ∀ p, (engine.stores p).nextSeq +
    2 * waitingCount engine (agentsByProject step.candidates) ≤ Js.maxSafeInteger

/-- The tick forwards the item at `seq`. -/
def Forwards (step : Cadence) (engine : Engine) (projectId : String) (seq : ℕ) : Prop :=
  ¬ Held (step.before engine) projectId seq ∧ Held (step.exec engine) projectId seq

end Cadence

/-- The agent waits for an answer to its clarify at `seq` when each of the ticks begins. -/
def WaitsThroughout (identity : HostedIdentity) (seq : ℕ) (cadences : List Cadence)
    (engine : Engine) : Prop :=
  Run.Guarded Cadence.exec (fun step engine => Waits (step.before engine) identity seq) cadences
    engine

/-- What the clarify ticks of a run owe to the agents that wait. -/
structure Unpoisoned (cadences : List Cadence) (start : Engine) : Prop where
  /-- A tick does not throw, and the reconcile sweep follows it. -/
  reconciles : ∀ {α : Type} (reconcile : EngineProc α) {earlier later : List Cadence}
    {step : Cadence}, cadences = earlier ++ step :: later →
    (∃ forwarded, (step.tick (step.before (Run.after Cadence.exec earlier start))).1 =
      .ok forwarded) ∧
    (cadence step.deps step.now reconcile step.candidates).exec
        (step.before (Run.after Cadence.exec earlier start)) =
      reconcile.exec (step.exec (Run.after Cadence.exec earlier start))
  /-- A clarify that was seen a timeout ago and that its holder can still pass on is forwarded. -/
  forwards : ∀ {earlier between later : List Cadence} {first last : Cadence}
    {identity : HostedIdentity} {m : DeliveredMail} {parent : String},
    cadences = earlier ++ first :: (between ++ last :: later) →
    identity ∈ first.candidates → identity ∈ last.candidates →
    WaitsThroughout identity m.seq (first :: between ++ [last])
      (Run.after Cadence.exec earlier start) →
    timeoutMs last.deps identity.projectId ≤ last.now - first.now →
    m ∈ waitingFor (last.before (Run.after Cadence.exec (earlier ++ first :: between) start))
      identity →
    m.resolved = false →
    Mail.roleParentResolver ((last.before (Run.after Cadence.exec (earlier ++ first :: between)
      start)).stores identity.projectId).roster m.recipient = .ok parent →
    last.Forwards (Run.after Cadence.exec (earlier ++ first :: between) start) identity.projectId
      m.seq
  /-- No item is forwarded by two ticks. -/
  once : ∀ {earlier between later : List Cadence} {first last : Cadence} {p : String} {seq : ℕ},
    cadences = earlier ++ first :: (between ++ last :: later) →
    first.Forwards (Run.after Cadence.exec earlier start) p seq →
    ¬ last.Forwards (Run.after Cadence.exec (earlier ++ first :: between) start) p seq

section

variable {step : Cadence} {engine : Engine} {identity : HostedIdentity} {seq : ℕ} {t : ℚ}

/-! ## One tick -/

/-- A tick with nothing in its way goes through its candidates. -/
theorem Cadence.sweeps (hconsistent : ∀ p, Consistent (engine.stores p))
    (hclear : step.Clear (step.before engine)) :
    ∃ forwarded, step.tick (step.before engine) = (.ok forwarded, step.exec engine) ∧
      Swept step.deps step.now (agentsByProject step.candidates) (step.before engine)
        (step.exec engine) := by
  have hready : Ready step.deps step.now (agentsByProject step.candidates) (step.before engine) :=
    { distinct := nodup_agentsByProject _
      consistent := fun p => Replay.storeRun_consistent (hconsistent p)
      due := fun other hother => hclear.due other (mem_agentsByProject.1 hother)
      apart := fun other hother => hclear.apart other (mem_agentsByProject.1 hother)
      room := hclear.room }
  obtain ⟨forwarded, engine', htick, hswept⟩ := tick_sweeps hready
  have hexec : step.exec engine = engine' := congrArg Prod.snd htick
  rw [hexec]
  exact ⟨forwarded, htick, hswept⟩

theorem before_emits (hconsistent : ∀ p, Consistent (engine.stores p)) (p : String) :
    Emits AnyEvent (engine.stores p) ((step.before engine).stores p) := by
  refine Run.always (fun db => Consistent db ∧ Emits AnyEvent (engine.stores p) db) ?_
    ⟨hconsistent p, .refl⟩ |>.2
  intro call db hdb
  have hemits := StoreCall.exec_emits hdb.1 call
  exact ⟨hdb.1.emits hemits, hdb.2.trans hemits⟩

/-! ## What ticks preserve -/

/-- The stores are consistent, and no clock is ahead of the time of the last tick. -/
structure OnTime (now : ℚ) (engine : Engine) : Prop where
  consistent : ∀ p, Consistent (engine.stores p)
  clocks : ∀ key t, engine.getClock key = some t → t ≤ now

theorem OnTime.exec {now : ℚ} (h : OnTime now engine) (hclear : step.Clear (step.before engine))
    (hnow : step.now ≤ now) : OnTime now (step.exec engine) := by
  obtain ⟨_, -, hswept⟩ := Cadence.sweeps h.consistent hclear
  refine ⟨fun p => ?_, fun key t ht => ?_⟩
  · exact (Replay.storeRun_consistent (h.consistent p)).emits (hswept.emits p)
  · cases hswept.clocks key t ht with
    | inl hstarted => exact hstarted ▸ hnow
    | inr hold => exact h.clocks key t hold

/-- The clarify was seen by the time `t`: its clock says so, or it went up since. -/
def SeenBy (identity : HostedIdentity) (seq : ℕ) (t : ℚ) (engine : Engine) : Prop :=
  (∃ firstSeen, engine.getClock (clarifyKey identity seq) = some firstSeen ∧ firstSeen ≤ t) ∨
    WentUpOnce (engine.stores identity.projectId).mail seq

theorem Held.wentUpOnce {p : String} (hconsistent : Consistent (engine.stores p))
    (hheld : Held engine p seq) : WentUpOnce (engine.stores p).mail seq :=
  (Mail.soundInbox_of_consistent hconsistent).wentUpOnce hheld

theorem SeenBy.before (hconsistent : ∀ p, Consistent (engine.stores p))
    (h : SeenBy identity seq t engine) : SeenBy identity seq t (step.before engine) := by
  cases h with
  | inl hclock => exact .inl hclock
  | inr hwent => exact .inr (hwent.emits (before_emits hconsistent identity.projectId))

/-- A tick on which the clarify is waited for leaves it seen. -/
theorem SeenBy.exec (hconsistent : ∀ p, Consistent (engine.stores p))
    (hclear : step.Clear (step.before engine)) (hwaits : Waits (step.before engine) identity seq)
    (h : SeenBy identity seq t engine) : SeenBy identity seq t (step.exec engine) := by
  obtain ⟨_, -, hswept⟩ := Cadence.sweeps hconsistent hclear
  have hafter : Consistent ((step.exec engine).stores identity.projectId) :=
    (Replay.storeRun_consistent (hconsistent _)).emits (hswept.emits _)
  have hbefore : SeenBy identity seq t (step.before engine) := h.before hconsistent
  cases hbefore with
  | inr hwent => exact .inr (hwent.emits (hswept.emits identity.projectId))
  | inl hclock =>
    obtain ⟨firstSeen, hclock, hle⟩ := hclock
    by_cases hmem : identity ∈ agentsByProject step.candidates
    · by_cases htimeout : timeoutMs step.deps identity.projectId ≤ step.now - firstSeen
      · exact .inr ((hswept.held identity hmem seq hwaits ⟨firstSeen, hclock, htimeout⟩).wentUpOnce
          hafter)
      · exact .inl ⟨firstSeen, hswept.running identity hmem seq hwaits firstSeen hclock htimeout,
          hle⟩
    · refine .inl ⟨firstSeen, ?_, hle⟩
      rw [hswept.otherClocks identity hmem seq hwaits]
      exact hclock

/-- A candidate's clarify has been seen when the tick is over. -/
theorem seenBy_of_tick (h : OnTime step.now engine) (hclear : step.Clear (step.before engine))
    (hmem : identity ∈ step.candidates) (hwaits : Waits (step.before engine) identity seq) :
    SeenBy identity seq step.now (step.exec engine) := by
  cases hclock : engine.getClock (clarifyKey identity seq) with
  | some firstSeen =>
    exact SeenBy.exec h.consistent hclear hwaits (.inl ⟨firstSeen, hclock, h.clocks _ _ hclock⟩)
  | none =>
    obtain ⟨_, -, hswept⟩ := Cadence.sweeps h.consistent hclear
    exact .inl ⟨step.now, hswept.started identity (mem_agentsByProject.2 hmem) seq hwaits hclock,
      le_rfl⟩

/-- A waited-for clarify of a candidate did not go up before, unless it is up still. -/
theorem isHeld_of_wentUpOnce {m : DeliveredMail} (hclear : step.Clear engine)
    (hmem : identity ∈ step.candidates) (hm : m ∈ waitingFor engine identity)
    (hwent : WentUpOnce (engine.stores identity.projectId).mail m.seq) :
    Held engine identity.projectId m.seq := by
  obtain ⟨item, hitem, up, hup, hseq, hraised, hstill⟩ := hwent
  obtain rfl := DeliveredMail.eq_of_seq_eq hitem (Mail.mem_waitingItems.1 hm).1 hseq
  cases hstill with
  | inl hgoes => exact Mail.isHeld_iff_goesUp.2 ⟨up.seq, hgoes⟩
  | inr hretracted =>
    rw [hclear.unwithdrawn identity hmem item hm up hup hraised] at hretracted
    cases hretracted

/-- Once seen for the time of the timeout, an open clarify of a candidate is forwarded. -/
theorem forwards_of_seenBy {m : DeliveredMail} (hconsistent : ∀ p, Consistent (engine.stores p))
    (hclear : step.Clear (step.before engine)) (hmem : identity ∈ step.candidates)
    (hm : m ∈ waitingFor (step.before engine) identity) (hopen : m.resolved = false)
    (hseen : SeenBy identity m.seq t engine)
    (htimeout : timeoutMs step.deps identity.projectId ≤ step.now - t) :
    step.Forwards engine identity.projectId m.seq := by
  have hbefore : Consistent ((step.before engine).stores identity.projectId) :=
    Replay.storeRun_consistent (hconsistent identity.projectId)
  have hsound := Mail.soundInbox_of_consistent hbefore
  have hnot : ¬ Held (step.before engine) identity.projectId m.seq := by
    intro hheld
    rw [hsound.resolved_of_isHeld (Mail.mem_waitingItems.1 hm).1 hheld] at hopen
    cases hopen
  obtain ⟨_, -, hswept⟩ := Cadence.sweeps hconsistent hclear
  refine ⟨hnot, ?_⟩
  have hseen' : SeenBy identity m.seq t (step.before engine) := hseen.before hconsistent
  cases hseen' with
  | inr hwent => exact absurd (isHeld_of_wentUpOnce hclear hmem hm hwent) hnot
  | inl hclock =>
    obtain ⟨firstSeen, hclock, hle⟩ := hclock
    refine hswept.held identity (mem_agentsByProject.2 hmem) m.seq ⟨m, hm, rfl⟩
      ⟨firstSeen, hclock, ?_⟩
    linarith

/-! ## Whole runs -/

variable {cadences earlier later between : List Cadence} {start : Engine}

/-- Every tick of the run begins with nothing in its way. -/
abbrev ClearRun (cadences : List Cadence) (start : Engine) : Prop :=
  Run.Guarded Cadence.exec (fun step engine => step.Clear (step.before engine)) cadences start

theorem onTime_after {now : ℚ} (h : OnTime now start) (hclear : ClearRun cadences start)
    (hnow : ∀ step ∈ cadences, step.now ≤ now) :
    OnTime now (Run.after Cadence.exec cadences start) := by
  refine Run.invariant (OnTime now) ?_ (Run.guarded_and.2 ⟨hclear,
    Run.guarded_of_forall hnow⟩) h
  intro step engine hallowed hengine
  exact hengine.exec hallowed.1 hallowed.2

theorem seenBy_after (hconsistent : ∀ p, Consistent (start.stores p))
    (hclear : ClearRun cadences start) (hwaits : WaitsThroughout identity seq cadences start)
    (h : SeenBy identity seq t start) :
    SeenBy identity seq t (Run.after Cadence.exec cadences start) := by
  refine Run.invariant (fun engine => (∀ p, Consistent (engine.stores p)) ∧
    SeenBy identity seq t engine) ?_ (Run.guarded_and.2 ⟨hclear, hwaits⟩) ⟨hconsistent, h⟩ |>.2
  intro step engine hallowed hengine
  obtain ⟨_, -, hswept⟩ := Cadence.sweeps hengine.1 hallowed.1
  exact ⟨fun p => (Replay.storeRun_consistent (hengine.1 p)).emits (hswept.emits p),
    hengine.2.exec hengine.1 hallowed.1 hallowed.2⟩

theorem wentUpOnce_after {p : String} (hconsistent : ∀ p, Consistent (start.stores p))
    (hclear : ClearRun cadences start) (h : WentUpOnce (start.stores p).mail seq) :
    WentUpOnce ((Run.after Cadence.exec cadences start).stores p).mail seq := by
  refine Run.invariant (fun engine => (∀ p, Consistent (engine.stores p)) ∧
    WentUpOnce (engine.stores p).mail seq) ?_ hclear ⟨hconsistent, h⟩ |>.2
  intro step engine hallowed hengine
  obtain ⟨_, -, hswept⟩ := Cadence.sweeps hengine.1 hallowed
  exact ⟨fun p => (Replay.storeRun_consistent (hengine.1 p)).emits (hswept.emits p),
    (hengine.2.emits (before_emits hengine.1 p)).emits (hswept.emits p)⟩

/-- What went up by an earlier tick is not forwarded again. -/
theorem not_forwards_of_wentUpOnce {p : String} (hconsistent : ∀ p, Consistent (engine.stores p))
    (hclear : step.Clear (step.before engine)) (hwent : WentUpOnce (engine.stores p).mail seq) :
    ¬ step.Forwards engine p seq := by
  rintro ⟨hnot, hheld⟩
  obtain ⟨_, -, hswept⟩ := Cadence.sweeps hconsistent hclear
  cases hswept.isHeld p seq hheld with
  | inl hold => exact hnot hold
  | inr hnew =>
    obtain ⟨identity, hmem, rfl, ⟨m, hm, rfl⟩, -⟩ := hnew
    exact hnot (isHeld_of_wentUpOnce hclear (mem_agentsByProject.1 hmem) hm
      (hwent.emits (before_emits hconsistent identity.projectId)))

theorem cadence_exec {α : Type} {reconcile : EngineProc α} {forwarded : List DeliveredMail}
    {engine' : Engine}
    (htick : tickClarifyTimeouts step.deps step.now step.candidates engine =
      (.ok forwarded, engine')) :
    (cadence step.deps step.now reconcile step.candidates).exec engine = reconcile.exec engine' := by
  refine Proc.exec_bind (R := fun _ final => final = reconcile.exec engine') (fun e mid h => ?_)
    fun a mid h => ?_
  · rw [htick] at h
    cases h
  · rw [htick] at h
    cases h
    refine Proc.exec_bind (R := fun _ final => final = reconcile.exec engine') (fun e mid h => ?_)
      fun a mid h => ?_
    · rw [Proc.exec, h]
    · rw [Proc.exec, Proc.exec, h]
      rfl

/-- As long as every clarify whose clock has run out can be forwarded, the ticks of a run are not
poisoned. -/
theorem ticks_unpoisoned (clock : String → ℕ → ℕ) (cadences : List Cadence)
    (htimes : cadences.Pairwise fun step later => step.now ≤ later.now)
    (hclear : ClearRun cadences (Engine.started fun p => { clock := clock p })) :
    Unpoisoned cadences (Engine.started fun p => { clock := clock p }) := by
  have hstart : ∀ now, OnTime now (Engine.started fun p => { clock := clock p }) :=
    fun now => ⟨fun p => .empty (clock p), fun _ _ hclock => nomatch hclock⟩
  have hsplit : ∀ {earlier step later}, cadences = earlier ++ step :: later →
      OnTime step.now (Run.after Cadence.exec earlier (Engine.started fun p => { clock := clock p })) ∧
      step.Clear (step.before
        (Run.after Cadence.exec earlier (Engine.started fun p => { clock := clock p }))) ∧
      ClearRun later (step.exec
        (Run.after Cadence.exec earlier (Engine.started fun p => { clock := clock p }))) := by
    intro earlier step later hsame
    rw [hsame] at hclear htimes
    obtain ⟨hearlier, hstep, hlater⟩ := Run.guarded_append.1 hclear
    refine ⟨onTime_after (hstart _) hearlier fun other hother => ?_, hstep, hlater⟩
    exact (List.pairwise_append.1 htimes).2.2 other hother step List.mem_cons_self
  constructor
  case reconciles =>
    intro α reconcile earlier later step hsame
    obtain ⟨htime, hstep, -⟩ := hsplit hsame
    obtain ⟨forwarded, htick, -⟩ := Cadence.sweeps htime.consistent hstep
    exact ⟨⟨forwarded, congrArg Prod.fst htick⟩, cadence_exec htick⟩
  case forwards =>
    intro earlier between later first last identity m parent hsame hfirst hlast hwaits htimeout hm
      hopen _
    obtain ⟨htime, hstep, hrest⟩ := hsplit hsame
    have hsame' : cadences = (earlier ++ first :: between) ++ last :: later := by
      rw [hsame, List.append_assoc, List.cons_append]
    obtain ⟨htime', hstep', -⟩ := hsplit hsame'
    obtain ⟨hwaits, hwaiting⟩ := hwaits
    have hseen := seenBy_of_tick htime hstep hfirst hwaits
    have hseen' := seenBy_after (htime.exec hstep le_rfl).consistent (Run.guarded_append.1 hrest).1
      (Run.guarded_append.1 hwaiting).1 hseen
    rw [Run.after_append, Run.after_cons] at *
    exact forwards_of_seenBy htime'.consistent hstep' hlast hm hopen hseen' htimeout
  case once =>
    intro earlier between later first last p seq hsame hforwards hagain
    obtain ⟨htime, hstep, hrest⟩ := hsplit hsame
    have hsame' : cadences = (earlier ++ first :: between) ++ last :: later := by
      rw [hsame, List.append_assoc, List.cons_append]
    obtain ⟨htime', hstep', -⟩ := hsplit hsame'
    have hafter := (htime.exec hstep le_rfl).consistent
    have hwent := wentUpOnce_after hafter (Run.guarded_append.1 hrest).1
      (hforwards.2.wentUpOnce (hafter p))
    rw [Run.after_append, Run.after_cons] at *
    exact not_forwards_of_wentUpOnce htime'.consistent hstep' hwent hagain

end

/-! ## A question that nobody answers -/

/-- An implementer asks its lead, and gets no answer. -/
def askedLead : List StoreCall :=
  [.roster (.recordAgent { agentId := "main", role := .coordinator, parent := Mail.OPERATOR }),
    .roster (.recordAgent { agentId := "lead", role := .lead, parent := "main" }),
    .roster (.recordAgent { agentId := "impl", role := .implementer, parent := "lead" }),
    .mail .inProcess (.send {
      type := .clarifyRequest
      «to» := "lead"
      «from» := "impl"
      subject := "which parser"
      body := "two of them are vendored" })]

/-- A cadence at the given time, in a project whose clarifies time out after a minute. -/
def cadenceAt (now : ℚ) (calls : List StoreCall) : Cadence where
  activity p := if p = "app" then calls else []
  deps := { clarifyTimeoutSeconds := fun _ => 60 }
  now
  candidates := [⟨"app", "impl"⟩]

/-- The cadence at which the question is first seen, and the one by which it has timed out. -/
def askedInTime : List Cadence := [cadenceAt 0 askedLead, cadenceAt 60000 []]

theorem stores_elsewhere {p : String} (hp : p ≠ "app") :
    ((cadenceAt 0 askedLead).before (Engine.started fun _ => .atRest)).stores p = .atRest := by
  change storeRun (if p = "app" then askedLead else []) .atRest = _
  rw [if_neg hp]
  rfl

theorem waits_impl {other : HostedIdentity} {seq : ℕ}
    (hwaits : Waits ((cadenceAt 0 askedLead).before (Engine.started fun _ => .atRest)) other seq) :
    other = ⟨"app", "impl"⟩ := by
  obtain ⟨m, hm, -⟩ := hwaits
  obtain ⟨hmem, hsender, -⟩ := Mail.mem_waitingItems.1 hm
  by_cases hp : other.projectId = "app"
  · have hsenders : ∀ m ∈ (((cadenceAt 0 askedLead).before
        (Engine.started fun _ => .atRest)).stores "app").mail.inbox, m.sender = "impl" := by
      decide +kernel
    rw [hp] at hmem
    rw [hsenders m hmem] at hsender
    cases other
    cases hp
    cases hsender
    rfl
  · rw [stores_elsewhere hp] at hmem
    have hempty : Db.atRest.mail.inbox = [] := rfl
    rw [hempty] at hmem
    cases hmem

theorem scopeApart_impl {engine : Engine} (hwaits : ∀ {other seq}, Waits engine other seq →
    other = ⟨"app", "impl"⟩) : ∀ identity ∈ [⟨"app", "impl"⟩], ScopeApart engine identity := by
  intro identity hmem other hne seq hother
  rw [List.mem_singleton.1 hmem] at hne
  exact absurd (hwaits hother) hne

theorem clear_first :
    (cadenceAt 0 askedLead).Clear ((cadenceAt 0 askedLead).before
      (Engine.started fun _ => .atRest)) where
  due := by
    intro identity _ m _ hdue
    obtain ⟨_, hclock, -⟩ := hdue
    cases hclock
  unwithdrawn := by
    intro identity hmem m _ up hup _
    obtain rfl := List.mem_singleton.1 hmem
    have hvisible : ∀ up ∈ (((cadenceAt 0 askedLead).before
        (Engine.started fun _ => .atRest)).stores "app").mail.inbox, up.retracted = false := by
      decide +kernel
    exact hvisible up hup
  apart := scopeApart_impl waits_impl
  room := by
    intro p
    by_cases hp : p = "app"
    · subst hp
      decide +kernel
    · rw [stores_elsewhere hp]
      decide +kernel

theorem clear_second :
    (cadenceAt 60000 []).Clear ((cadenceAt 60000 []).before
      ((cadenceAt 0 askedLead).exec (Engine.started fun _ => .atRest))) := by
  obtain ⟨_, -, hswept⟩ := Cadence.sweeps (fun _ => .empty _) clear_first
  have hbefore : (cadenceAt 60000 []).before
      ((cadenceAt 0 askedLead).exec (Engine.started fun _ => .atRest)) =
        (cadenceAt 0 askedLead).exec (Engine.started fun _ => .atRest) := by
    refine congrArg (fun stores => Engine.mk stores _) (funext fun p => ?_)
    change storeRun (if p = "app" then [] else []) _ = _
    rw [ite_self]
    rfl
  rw [hbefore]
  constructor
  case due =>
    intro identity hmem m hm _
    obtain rfl := List.mem_singleton.1 hmem
    have hready : ∀ m ∈ waitingFor ((cadenceAt 0 askedLead).exec
        (Engine.started fun _ => .atRest)) ⟨"app", "impl"⟩, m.resolved = false ∧
        (Mail.roleParentResolver (((cadenceAt 0 askedLead).exec
          (Engine.started fun _ => .atRest)).stores "app").roster m.recipient).toOption.isSome =
            true := by
      decide +kernel
    obtain ⟨hopen, hparent⟩ := hready m hm
    exact ⟨hopen, exists_eq_ok hparent⟩
  case unwithdrawn =>
    intro identity hmem m _ up hup _
    obtain rfl := List.mem_singleton.1 hmem
    have hvisible : ∀ up ∈ (((cadenceAt 0 askedLead).exec
        (Engine.started fun _ => .atRest)).stores "app").mail.inbox, up.retracted = false := by
      decide +kernel
    exact hvisible up hup
  case apart => exact scopeApart_impl fun hwaits => waits_impl ((hswept.waits _ _).1 hwaits)
  case room =>
    intro p
    have hnext := hswept.nextSeq p
    have hcount : waitingCount ((cadenceAt 0 askedLead).exec (Engine.started fun _ => .atRest))
        (agentsByProject [⟨"app", "impl"⟩]) = 1 := by
      decide +kernel
    have hcount' : waitingCount ((cadenceAt 0 askedLead).before (Engine.started fun _ => .atRest))
        (agentsByProject [⟨"app", "impl"⟩]) = 1 := by
      decide +kernel
    have hbound : (((cadenceAt 0 askedLead).before
        (Engine.started fun _ => .atRest)).stores p).nextSeq + 4 ≤ Js.maxSafeInteger := by
      by_cases hp : p = "app"
      · subst hp
        decide +kernel
      · rw [stores_elsewhere hp]
        decide +kernel
    change _ + 2 * waitingCount _ (agentsByProject [⟨"app", "impl"⟩]) ≤ _
    change _ ≤ _ + 2 * waitingCount _ (agentsByProject [⟨"app", "impl"⟩]) at hnext
    omega

theorem ticks_unpoisoned_of_askedInTime :
    Unpoisoned askedInTime (Engine.started fun _ => .atRest) :=
  ticks_unpoisoned (fun _ _ => 0) askedInTime (by decide +kernel)
    ⟨clear_first, clear_second, trivial⟩

/-- The question is forwarded after one minute; two minutes later it still is not answered. -/
def leftUnanswered : List Cadence :=
  [cadenceAt 0 askedLead, cadenceAt 60000 [], cadenceAt 120000 [], cadenceAt 180000 []]

theorem leftUnanswered_poisons :
    (leftUnanswered.Pairwise fun step later => step.now ≤ later.now) ∧
      ¬ Unpoisoned leftUnanswered (Engine.started fun _ => .atRest) := by
  refine ⟨by decide +kernel, fun h => ?_⟩
  have hsame : leftUnanswered =
      [cadenceAt 0 askedLead, cadenceAt 60000 [], cadenceAt 120000 []] ++ cadenceAt 180000 [] :: [] :=
    rfl
  obtain ⟨⟨forwarded, hok⟩, -⟩ := h.reconciles (pure () : EngineProc Unit) hsame
  have hthrows : ((cadenceAt 180000 []).tick ((cadenceAt 180000 []).before
      (Run.after Cadence.exec [cadenceAt 0 askedLead, cadenceAt 60000 [], cadenceAt 120000 []]
        (Engine.started fun _ => .atRest)))).1.toOption.isSome = false := by
    decide +kernel
  rw [hok] at hthrows
  cases hthrows

end Orchestration.Conductor
