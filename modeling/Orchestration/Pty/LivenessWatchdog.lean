import Orchestration.Library.Transaction
import Orchestration.Pty.TurnEndDetector

/-!
# The liveness watchdog

One observation of a session is classified; a break is signalled once, nudged
where a nudge applies, and escalated when the same break is seen again.
-/

namespace Orchestration.Pty

open Transaction

inductive Liveness where
  | alive
  | wedged
  | dead
deriving DecidableEq, Repr

/-- Zero pty bytes for this long during an active turn, in milliseconds, is a wedge. -/
def WEDGE_MS : ℚ := 8000

inductive BreakKind where
  | wedged
  | dead
  | silentStop
  | erroredWaiting
deriving DecidableEq, Repr

/-- The nudge injected on a silent stop. -/
def SILENT_STOP_TRIGGER : String := "finish-before-yield"

/-- The diagnosis of a break. -/
inductive BreakReason where
  | paneExited
  | lastTurnErrored
  | noPtyBytes (wedgeMs : ℚ)
  | idleWithoutCompletion
deriving DecidableEq, Repr

/-- The text of a diagnosis, given how numbers are printed. -/
def BreakReason.text (numberText : ℚ → String) : BreakReason → String
  | paneExited => "pane exited"
  | lastTurnErrored =>
    "last turn errored; agent is waiting with outstanding actionable mail — re-inject"
  | noPtyBytes wedgeMs =>
    "no pty bytes for >= " ++ numberText wedgeMs ++ "ms while pid alive during an active turn"
  | idleWithoutCompletion => "turn went idle without co_finish/worker_done"

structure BreakInfo where
  kind : BreakKind
  triggerId : Option String
  reason : BreakReason
deriving DecidableEq, Repr

/-- What the host observed of one session. -/
structure LivenessInput where
  trace : List DetectorEvent
  exited : Bool
  pidAlive : Bool
  turnActive : Bool
  turnStartedAt : Option ℚ := none
  lastTurnErrored : Option Bool := none
  hasWaitingItems : Option Bool := none
  hasOutstandingActionable : Option Bool := none
  requiresFinishBeforeYield : Option Bool := none
deriving DecidableEq, Repr

structure LivenessConfig extends TurnEndConfig where
  wedgeMs : Option ℚ := none
deriving DecidableEq, Repr

structure LivenessVerdict where
  liveness : Liveness
  «break» : Option BreakInfo
deriving DecidableEq, Repr

/-- When the session rendered its last byte, prior turns aside. -/
def lastByteAt (input : LivenessInput) : Option ℚ :=
  input.trace.foldl
    (fun last event =>
      match event with
      | .bytes «at» _ =>
        if input.turnStartedAt.all (· ≤ «at») then laterOf last «at» else last
      | _ => last)
    none

/-- Classify a session from one observation: dead, then an errored turn that waits, then wedged,
then silently stopped, then alive. -/
def classifyLiveness (input : LivenessInput) (observedAt : ℚ) (config : LivenessConfig := {}) :
    LivenessVerdict :=
  let wedgeMs := config.wedgeMs.getD WEDGE_MS
  let requiresFinishBeforeYield :=
    (input.requiresFinishBeforeYield <|> input.hasOutstandingActionable).getD true
  if input.exited then ⟨.dead, some ⟨.dead, none, .paneExited⟩⟩
  else if input.lastTurnErrored = some true ∧ input.hasWaitingItems = some true ∧
      input.hasOutstandingActionable = some true then
    ⟨.alive, some ⟨.erroredWaiting, none, .lastTurnErrored⟩⟩
  else
    let silenceStartedAt := lastByteAt input <|> input.turnStartedAt
    let byteSilentForWedge := silenceStartedAt.any fun since => wedgeMs ≤ observedAt - since
    if input.turnActive ∧ input.pidAlive ∧ byteSilentForWedge then
      ⟨.wedged, some ⟨.wedged, none, .noPtyBytes wedgeMs⟩⟩
    else if !input.turnActive ∧ requiresFinishBeforeYield then
      let trace := input.trace.filter fun event => input.turnStartedAt.all (· ≤ event.at)
      let turnEnd := detectTurnEnd trace observedAt config.toTurnEndConfig
      if turnEnd.idle ∧ !turnEnd.sawCompletionVerb then
        ⟨.alive, some ⟨.silentStop, some SILENT_STOP_TRIGGER, .idleWithoutCompletion⟩⟩
      else ⟨.alive, none⟩
    else ⟨.alive, none⟩

/-- A call of one of the watchdog's seams. The nudge is injected into the pane; the agent is the one
that the watchdog was asked to assess. -/
inductive Effect (Pane : Type) where
  | onBreak (agent : String) (info : BreakInfo)
  | markStuck (agent : String)
  | injectNudge (agent : String) (pane : Pane) (triggerId : String)
deriving DecidableEq, Repr

/-- The agent that a seam was called for. -/
def Effect.agent {Pane : Type} : Effect Pane → String
  | onBreak agent _ | markStuck agent | injectNudge agent _ _ => agent

/-- The call signals a break. -/
def Effect.isBreak {Pane : Type} : Effect Pane → Bool
  | onBreak _ _ => true
  | markStuck _ | injectNudge _ _ _ => false

/-- One agent's watchdog: the pane it was created over, and the break it has signalled. -/
structure LivenessWatchdog (Pane : Type) where
  pane : Pane
  signaled : Option BreakKind := none
deriving DecidableEq, Repr

/-- A watchdog with the seams called so far. -/
structure Assessment (Pane : Type) where
  watchdog : LivenessWatchdog Pane
  effects : List (Effect Pane) := []

namespace LivenessWatchdog

variable {Pane : Type}

/-- A procedure of the watchdog; what it throws is the seam that threw. -/
abbrev AssessProc (Pane α : Type) := Proc (Assessment Pane) (Effect Pane) α

/-- Call a seam, which may throw. -/
def call (throws : Effect Pane → Bool) (effect : Effect Pane) : AssessProc Pane Unit := fun s =>
  (if throws effect then .error effect else .ok (),
    { s with effects := s.effects ++ [effect] })

def setSignaled (kind : Option BreakKind) : AssessProc Pane Unit := fun s =>
  (.ok (), { s with watchdog := { s.watchdog with signaled := kind } })

def getWatchdog : AssessProc Pane (LivenessWatchdog Pane) := fun s => (.ok s.watchdog, s)

/-- Judge one observation and drive the escalation. -/
def assess (throws : Effect Pane → Bool) (agent : String) (input : LivenessInput) (observedAt : ℚ)
    (config : LivenessConfig := {}) : AssessProc Pane LivenessVerdict := do
  let verdict := classifyLiveness input observedAt config
  let watchdog ← getWatchdog
  match verdict.break with
  | none =>
    setSignaled none
    return verdict
  | some detected =>
    if detected.kind = .dead ∨ detected.kind = .erroredWaiting then
      if watchdog.signaled ≠ some detected.kind then
        setSignaled (some detected.kind)
        call throws (.onBreak agent detected)
      return verdict
    if watchdog.signaled = some detected.kind then call throws (.markStuck agent)
    else
      setSignaled (some detected.kind)
      call throws (.onBreak agent detected)
      match detected.triggerId with
      | none => pure ()
      | some triggerId => call throws (.injectNudge agent watchdog.pane triggerId)
    return verdict

end LivenessWatchdog

/-! ## What an assessment does -/

/-- A break that is escalated when it persists. -/
def BreakKind.Escalates (kind : BreakKind) : Prop := kind = .wedged ∨ kind = .silentStop

instance (kind : BreakKind) : Decidable kind.Escalates :=
  inferInstanceAs (Decidable (kind = .wedged ∨ kind = .silentStop))

section

variable {Pane : Type} (throws : Effect Pane → Bool) (agent : String)
  (watchdog : LivenessWatchdog Pane)

/-- The seams that a watchdog calls for what it sees. -/
def LivenessWatchdog.reaction : Option BreakInfo → List (Effect Pane)
  | none => []
  | some detected =>
    if watchdog.signaled = some detected.kind then
      if detected.kind.Escalates then [.markStuck agent] else []
    else
      .onBreak agent detected ::
        if throws (.onBreak agent detected) || !decide detected.kind.Escalates then []
        else (detected.triggerId.map (Effect.injectNudge agent watchdog.pane)).toList

variable {throws agent watchdog} in
theorem agent_of_mem_reaction {detected : Option BreakInfo} {effect : Effect Pane}
    (h : effect ∈ watchdog.reaction throws agent detected) : effect.agent = agent := by
  cases detected with
  | none => cases h
  | some detected =>
    rw [LivenessWatchdog.reaction] at h
    split at h
    · split at h
      · rw [List.mem_singleton.1 h]
        rfl
      · cases h
    · cases List.mem_cons.1 h with
      | inl h =>
        rw [h]
        rfl
      | inr h =>
        split at h
        · cases h
        · obtain ⟨_, _, rfl⟩ := Option.map_eq_some_iff.1 (Option.mem_toList.1 h)
          rfl

section

variable {throws agent watchdog} {detected : Option BreakInfo}

theorem markStuck_mem_reaction {a : String} :
    .markStuck a ∈ watchdog.reaction throws agent detected ↔ a = agent ∧
      ∃ info, detected = some info ∧ watchdog.signaled = some info.kind ∧ info.kind.Escalates := by
  cases detected with
  | none => simp [LivenessWatchdog.reaction]
  | some info =>
    rw [LivenessWatchdog.reaction]
    by_cases hsame : watchdog.signaled = some info.kind
    · by_cases hescalates : info.kind.Escalates
      · simp [hsame, hescalates]
      · simp [hsame, hescalates]
    · have hnudge : .markStuck a ∉
          (info.triggerId.map (Effect.injectNudge agent watchdog.pane)).toList := by
        cases info.triggerId <;> simp
      simp [hsame, hnudge]

theorem onBreak_mem_reaction {a : String} {info : BreakInfo} :
    .onBreak a info ∈ watchdog.reaction throws agent detected ↔
      a = agent ∧ detected = some info ∧ watchdog.signaled ≠ some info.kind := by
  cases detected with
  | none => simp [LivenessWatchdog.reaction]
  | some seen =>
    rw [LivenessWatchdog.reaction]
    by_cases hsame : watchdog.signaled = some seen.kind
    · have hnone : .onBreak a info ∉
          if seen.kind.Escalates then [(.markStuck agent : Effect Pane)] else [] := by
        split <;> simp
      rw [if_pos hsame]
      constructor
      · exact fun hmem => absurd hmem hnone
      · rintro ⟨-, hseen, hother⟩
        cases hseen
        exact absurd hsame hother
    · have hnudge : .onBreak a info ∉
          (seen.triggerId.map (Effect.injectNudge agent watchdog.pane)).toList := by
        cases seen.triggerId <;> simp
      rw [if_neg hsame]
      constructor
      · intro hmem
        cases List.mem_cons.1 hmem with
        | inl hfirst =>
          cases hfirst
          exact ⟨rfl, rfl, hsame⟩
        | inr hrest =>
          split at hrest
          · cases hrest
          · exact absurd hrest hnudge
      · rintro ⟨rfl, hseen, -⟩
        cases hseen
        exact List.mem_cons_self

theorem injectNudge_mem_reaction {a : String} {pane : Pane} {triggerId : String}
    (h : .injectNudge a pane triggerId ∈ watchdog.reaction throws agent detected) :
    a = agent ∧ pane = watchdog.pane := by
  cases detected with
  | none => cases h
  | some info =>
    rw [LivenessWatchdog.reaction] at h
    split at h
    · split at h
      · simp at h
      · cases h
    · cases List.mem_cons.1 h with
      | inl h => cases h
      | inr h =>
        split at h
        · cases h
        · obtain ⟨_, _, hnudge⟩ := Option.map_eq_some_iff.1 (Option.mem_toList.1 h)
          cases hnudge
          exact ⟨rfl, rfl⟩

/-- An assessment signals at most one break. -/
theorem length_signals_reaction : ((watchdog.reaction throws agent detected).filter
    Effect.isBreak).length ≤ 1 := by
  cases detected with
  | none => exact Nat.zero_le 1
  | some info =>
    have hnudge : (info.triggerId.map (Effect.injectNudge agent watchdog.pane)).toList.filter
        Effect.isBreak = [] := by
      cases info.triggerId <;> simp [Effect.isBreak]
    rw [LivenessWatchdog.reaction]
    split
    · split <;> simp [Effect.isBreak]
    · split
      · exact Nat.le_refl 1
      · rw [List.filter_cons_of_pos rfl, hnudge]
        exact Nat.le_refl 1

end

theorem exec_setSignaled_bind {α : Type} {kind : Option BreakKind}
    {f : Unit → LivenessWatchdog.AssessProc Pane α} {effects : List (Effect Pane)} :
    (LivenessWatchdog.setSignaled kind >>= f).exec ⟨watchdog, effects⟩ =
      (f ()).exec ⟨{ watchdog with signaled := kind }, effects⟩ := rfl

/-- A seam that throws is called all the same, and nothing after it. -/
theorem exec_call_bind {α : Type} {effect : Effect Pane}
    {f : Unit → LivenessWatchdog.AssessProc Pane α} {effects : List (Effect Pane)} :
    (LivenessWatchdog.call throws effect >>= f).exec ⟨watchdog, effects⟩ =
      if throws effect then ⟨watchdog, effects ++ [effect]⟩
      else (f ()).exec ⟨watchdog, effects ++ [effect]⟩ := by
  change (Proc.bind (LivenessWatchdog.call throws effect) f ⟨watchdog, effects⟩).2 = _
  cases hthrows : throws effect with
  | true => simp [Proc.bind, LivenessWatchdog.call, hthrows]
  | false => simp [Proc.bind, LivenessWatchdog.call, hthrows, Proc.exec]

theorem exec_pure {α : Type} {a : α} {s : Assessment Pane} :
    (pure a : LivenessWatchdog.AssessProc Pane α).exec s = s := rfl

/-- Whatever throws, the watchdog has signalled the break it saw, and has called the seams. -/
theorem assess_exec (input : LivenessInput) (observedAt : ℚ) (config : LivenessConfig)
    (effects : List (Effect Pane)) :
    (LivenessWatchdog.assess throws agent input observedAt config).exec ⟨watchdog, effects⟩ =
      ⟨{ watchdog with
          signaled := (classifyLiveness input observedAt config).break.map BreakInfo.kind },
        effects ++
          watchdog.reaction throws agent (classifyLiveness input observedAt config).break⟩ := by
  generalize hverdict : classifyLiveness input observedAt config = verdict
  obtain ⟨liveness, detected⟩ := verdict
  cases detected with
  | none =>
    simp only [LivenessWatchdog.assess, hverdict, LivenessWatchdog.reaction, List.append_nil]
    rfl
  | some detected =>
    simp only [LivenessWatchdog.assess, hverdict, LivenessWatchdog.reaction, Option.map_some]
    change (Proc.bind LivenessWatchdog.getWatchdog _ _).2 = _
    simp only [Proc.bind, LivenessWatchdog.getWatchdog]
    have hkinds : (detected.kind = .dead ∨ detected.kind = .erroredWaiting) ↔
        ¬ detected.kind.Escalates := by
      cases detected.kind <;> decide
    by_cases hescalates : detected.kind.Escalates
    · rw [if_neg (fun hkind => hkinds.1 hkind hescalates)]
      by_cases hsame : watchdog.signaled = some detected.kind
      · rw [if_pos hsame, if_pos hsame, if_pos hescalates]
        change Proc.exec _ _ = _
        rw [exec_call_bind, exec_pure, ite_self, ← hsame]
      · rw [if_neg hsame, if_neg hsame]
        change Proc.exec _ _ = _
        rw [exec_setSignaled_bind, exec_call_bind]
        cases hthrows : throws (.onBreak agent detected) with
        | true => simp
        | false =>
          cases detected.triggerId with
          | none => simp [hescalates, exec_pure]
          | some triggerId =>
            simp only [exec_call_bind, exec_pure, ite_self, hescalates]
            simp
    · rw [if_pos (hkinds.2 hescalates)]
      by_cases hsame : watchdog.signaled = some detected.kind
      · rw [if_neg (fun hne => hne hsame), if_pos hsame, if_neg hescalates, List.append_nil, ← hsame]
        rfl
      · rw [if_pos hsame, if_neg hsame]
        change Proc.exec _ _ = _
        rw [exec_setSignaled_bind, exec_call_bind, exec_pure, ite_self]
        simp [hescalates]

end

end Orchestration.Pty
