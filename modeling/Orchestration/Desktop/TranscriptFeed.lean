import Orchestration.Desktop.LiveTerminal

/-!
# The feed of the live terminal

While the agent has one pane at a time, its accumulator follows what that pane writes.
The server may join pushes that wait, or cut the oldest, and the newest text stays the
last on its way.
-/

namespace Orchestration.Desktop

open Pty (Output TranscriptTailAccumulator)

/-! ## The engine -/

namespace TranscriptEngine

variable {e : TranscriptEngine}

/-- The stream that the transcript follows. -/
def stream (e : TranscriptEngine) : Option Output :=
  e.transcriptUnsub.bind fun p => e.panes[p]?.map TerminalPane.stream

/-- The agent has one pane at most, whose output the accumulator follows. -/
structure OnePane (e : TranscriptEngine) : Prop where
  subscribed : ∀ (q : ℕ) (pane : TerminalPane), e.panes[q]? = some pane →
    pane.subscribed = true → e.transcriptUnsub = some q
  follows : ∀ p, e.transcriptUnsub = some p → ∃ pane a, e.panes[p]? = some pane ∧
    pane.subscribed = true ∧ e.transcriptAccumulator = some a ∧ a.Follows pane.stream
  untracked : e.transcriptUnsub = none → e.transcriptAccumulator = none
  hosted : ∀ p, e.hosted = some p → e.transcriptUnsub = some p
  launching : ∀ p, e.launching = some p → e.transcriptUnsub = some p
  pending : ∀ p, e.releasePending = some p → e.transcriptUnsub = some p
  hosted_alone : e.hosted ≠ none → e.launching = none ∧ e.releasePending = none
  launching_alone : e.launching ≠ none → e.releasePending = none
  idle : e.hosted = none → e.launching = none → e.releasePending = none → e.transcriptUnsub = none

theorem onePane_init : ({} : TranscriptEngine).OnePane := by
  refine ⟨?_, ?_, fun _ => rfl, ?_, ?_, ?_, fun h => absurd rfl h, fun h => absurd rfl h,
    fun _ _ _ => rfl⟩
  · intro q pane hq
    cases hq
  · intro p hp
    cases hp
  · intro p hp
    cases hp
  · intro p hp
    cases hp
  · intro p hp
    cases hp

namespace OnePane

theorem stream_eq {p : ℕ} (h : e.OnePane) (hp : e.transcriptUnsub = some p) :
    ∃ pane a, e.panes[p]? = some pane ∧ e.stream = some pane.stream ∧
      e.transcriptAccumulator = some a ∧ a.Follows pane.stream := by
  obtain ⟨pane, a, hpane, -, ha, hfollows⟩ := h.follows p hp
  exact ⟨pane, a, hpane, by simp [stream, hp, hpane], ha, hfollows⟩

theorem exists_accumulator {text : Output} (h : e.OnePane) (hstream : e.stream = some text) :
    ∃ a, e.transcriptAccumulator = some a ∧ a.Follows text := by
  obtain ⟨p, hp, hpane⟩ := Option.bind_eq_some_iff.1 hstream
  obtain ⟨pane, a, hpane', hstream', ha, hfollows⟩ := h.stream_eq hp
  rw [hstream] at hstream'
  obtain rfl := Option.some.inj hstream'
  exact ⟨a, ha, hfollows⟩

/-- Nothing is tracked, nor any pane subscribed. -/
theorem dropExitTracking (h : e.OnePane) :
    (∀ (q : ℕ) (pane : TerminalPane), e.dropExitTracking.panes[q]? = some pane →
      pane.subscribed = false) ∧
      e.dropExitTracking.transcriptUnsub = none ∧
      e.dropExitTracking.transcriptAccumulator = none ∧
      e.dropExitTracking.transcriptGeneration = e.transcriptGeneration ∧
      e.dropExitTracking.launching = e.launching ∧ e.dropExitTracking.hosted = e.hosted ∧
      e.dropExitTracking.releasePending = e.releasePending := by
  unfold TranscriptEngine.dropExitTracking
  split
  · rename_i hnone
    refine ⟨fun q pane hq => ?_, rfl, rfl, rfl, rfl, rfl, rfl⟩
    by_contra hsubscribed
    have := h.subscribed q pane hq (Bool.eq_true_of_not_eq_false hsubscribed)
    rw [hnone] at this
    cases this
  · rename_i p hp
    refine ⟨fun q pane hq => ?_, rfl, rfl, rfl, rfl, rfl, rfl⟩
    have hq : (e.panes.modify p _)[q]? = some pane := hq
    rw [List.getElem?_modify] at hq
    obtain ⟨old, hold, rfl⟩ := Option.map_eq_some_iff.1 hq
    split
    · rfl
    · rename_i hne
      by_contra hsubscribed
      have := h.subscribed q old hold (Bool.eq_true_of_not_eq_false hsubscribed)
      rw [hp] at this
      exact hne (Option.some.inj this)

/-- An engine that tracks no pane. -/
theorem of_untracked (hpanes : ∀ (q : ℕ) (pane : TerminalPane), e.panes[q]? = some pane →
      pane.subscribed = false) (hunsub : e.transcriptUnsub = none)
    (haccumulator : e.transcriptAccumulator = none) (hhosted : e.hosted = none)
    (hlaunching : e.launching = none) (hpending : e.releasePending = none) : e.OnePane := by
  refine ⟨?_, ?_, fun _ => haccumulator, ?_, ?_, ?_, fun h => absurd hhosted h,
    fun h => absurd hlaunching h, fun _ _ _ => hunsub⟩
  · intro q pane hq hsubscribed
    rw [hpanes q pane hq] at hsubscribed
    cases hsubscribed
  · intro p hp
    rw [hunsub] at hp
    cases hp
  · intro p hp
    rw [hhosted] at hp
    cases hp
  · intro p hp
    rw [hlaunching] at hp
    cases hp
  · intro p hp
    rw [hpending] at hp
    cases hp

theorem getElem?_kill {p q : ℕ} {pane : TerminalPane} (hq : (e.kill p).panes[q]? = some pane) :
    ∃ old, e.panes[q]? = some old ∧ pane.subscribed = old.subscribed ∧
      pane.stream = old.stream := by
  have hq : (e.panes.modify p _)[q]? = some pane := hq
  rw [List.getElem?_modify] at hq
  obtain ⟨old, hold, rfl⟩ := Option.map_eq_some_iff.1 hq
  refine ⟨old, hold, ?_, ?_⟩ <;> split <;> rfl

theorem kill {p : ℕ} (h : e.OnePane) : (e.kill p).OnePane := by
  refine ⟨?_, ?_, h.untracked, h.hosted, h.launching, h.pending, h.hosted_alone,
    h.launching_alone, h.idle⟩
  · intro q pane hq hsubscribed
    obtain ⟨old, hold, heq, -⟩ := getElem?_kill hq
    exact h.subscribed q old hold (heq ▸ hsubscribed)
  · intro q hq
    obtain ⟨pane, a, hpane, hsubscribed, ha, hfollows⟩ := h.follows q hq
    have hkilled : (e.kill p).panes[q]? = some
        (if p = q then { pane with alive := false } else pane) := by
      show (e.panes.modify p _)[q]? = _
      rw [List.getElem?_modify, hpane]
      rfl
    refine ⟨_, a, hkilled, ?_, ha, ?_⟩
    · split <;> exact hsubscribed
    · split <;> exact hfollows

/-- A pane is dropped and killed, in either order, and the agent has none. -/
theorem release {p : ℕ} (h : e.OnePane) :
    ∀ (q : ℕ) (pane : TerminalPane), (e.dropExitTracking.kill p).panes[q]? = some pane →
      pane.subscribed = false := by
  intro q pane hq
  obtain ⟨old, hold, heq, -⟩ := getElem?_kill hq
  rw [heq]
  exact h.dropExitTracking.1 q old hold

theorem spawn (h : e.OnePane) (hguard : e.hosted = none → e.launching = none →
    e.releasePending = none) : e.spawn.OnePane := by
  unfold TranscriptEngine.spawn
  split
  · rename_i hfree
    have hpending := hguard hfree.1 hfree.2
    have hunsub := h.idle hfree.1 hfree.2 hpending
    refine ⟨?_, ?_, fun hnone => (by cases hnone), ?_, ?_, ?_, ?_, fun _ => hpending, ?_⟩
    · intro q pane hq hsubscribed
      have hq : (e.panes ++ [({} : TerminalPane)])[q]? = some pane := hq
      rw [List.getElem?_append] at hq
      split at hq
      · have := h.subscribed q pane hq hsubscribed
        rw [hunsub] at this
        cases this
      · have hlt := (List.getElem?_eq_some_iff.1 hq).1
        rw [List.length_singleton] at hlt
        show some e.panes.length = some q
        congr 1
        omega
    · intro p hp
      obtain rfl := Option.some.inj hp
      exact ⟨{}, {}, by simp, rfl, rfl, Pty.TranscriptTailAccumulator.follows_nil⟩
    · intro p hp
      rw [show e.hosted = some p from hp] at hfree
      cases hfree.1
    · intro p hp
      exact hp
    · intro p hp
      rw [show e.releasePending = some p from hp] at hpending
      cases hpending
    · intro hne
      exact absurd hfree.1 hne
    · intro _ hnone
      cases hnone
  · exact h

theorem launched (h : e.OnePane) : e.launched.OnePane := by
  unfold TranscriptEngine.launched
  split
  · exact h
  · rename_i p hp
    have hpending := h.launching_alone (by rw [hp]; exact Option.some_ne_none p)
    refine ⟨h.subscribed, h.follows, h.untracked, ?_, ?_, h.pending, fun _ => ⟨rfl, hpending⟩,
      fun _ => hpending, ?_⟩
    · intro q hq
      obtain rfl := Option.some.inj hq
      exact h.launching p hp
    · intro q hq
      cases hq
    · intro hnone
      cases hnone

theorem launchFails (h : e.OnePane) : e.launchFails.OnePane := by
  unfold TranscriptEngine.launchFails
  split
  · exact h
  · rename_i p hp
    have hpending := h.launching_alone (by rw [hp]; exact Option.some_ne_none p)
    have hhosted : e.hosted = none := by
      by_contra hne
      have := (h.hosted_alone hne).1
      rw [hp] at this
      cases this
    obtain ⟨hpanes, hunsub, hacc, -, -, hhosted', hpending'⟩ := (h.kill (p := p)).dropExitTracking
    exact of_untracked hpanes hunsub hacc (hhosted'.trans hhosted) rfl (hpending'.trans hpending)

theorem release_step (h : e.OnePane) : e.release.OnePane := by
  unfold TranscriptEngine.release
  split
  · exact h
  · rename_i p hp
    obtain ⟨hlaunching, hpending⟩ := h.hosted_alone (by rw [hp]; exact Option.some_ne_none p)
    obtain ⟨-, hunsub, hacc, -, hlaunching', -, hpending'⟩ := h.dropExitTracking
    exact of_untracked h.release hunsub hacc rfl (hlaunching'.trans hlaunching)
      (hpending'.trans hpending)

theorem releaseInTurn (h : e.OnePane) : e.releaseInTurn.OnePane := by
  unfold TranscriptEngine.releaseInTurn
  split
  · exact h
  · rename_i p hp
    obtain ⟨hlaunching, hpending⟩ := h.hosted_alone (by rw [hp]; exact Option.some_ne_none p)
    refine ⟨h.subscribed, h.follows, h.untracked, ?_, h.launching, ?_, fun hne => absurd rfl hne,
      fun hne => absurd hlaunching hne, ?_⟩
    · intro q hq
      cases hq
    · intro q hq
      obtain rfl := Option.some.inj hq
      exact h.hosted p hp
    · intro _ _ hnone
      cases hnone

theorem turnYields (h : e.OnePane) : e.turnYields.OnePane := by
  unfold TranscriptEngine.turnYields
  split
  · exact h
  · rename_i p hp
    have hhosted : e.hosted = none := by
      by_contra hne
      have := (h.hosted_alone hne).2
      rw [hp] at this
      cases this
    have hlaunching : e.launching = none := by
      by_contra hne
      have := h.launching_alone hne
      rw [hp] at this
      cases this
    obtain ⟨-, hunsub, hacc, -, hlaunching', hhosted', -⟩ := h.dropExitTracking
    exact of_untracked h.release hunsub hacc (hhosted'.trans hhosted)
      (hlaunching'.trans hlaunching) rfl

end OnePane

/-! ### Output -/

/-- What the write of a pane does to the transcript. -/
structure Wrote (agent : String) (e e' : TranscriptEngine) (chunk : Output)
    (push : Option OperatorIpcTranscript) : Prop where
  onePane : e'.OnePane
  generation : e'.transcriptGeneration = e.transcriptGeneration
  silent : push = none → e'.stream = e.stream
  pushed : ∀ sent, push = some sent → ∃ text, e.stream = some text ∧
    e'.stream = some (text ++ chunk) ∧ sent = ⟨agent, e.transcriptGeneration, text.length, chunk⟩

namespace OnePane

theorem getElem?_updatePane {p q : ℕ} {change : TerminalPane → TerminalPane} :
    (e.updatePane p change).panes[q]? =
      if p = q then e.panes[q]?.map change else e.panes[q]? := by
  show (e.panes.modify p change)[q]? = _
  rw [List.getElem?_modify]
  split
  · rfl
  · simp

theorem subscribed_write {p : ℕ} {chunk : Output} (h : e.OnePane) (q : ℕ) (pane : TerminalPane)
    (hq : (e.updatePane p fun pane => { pane with stream := pane.stream ++ chunk }).panes[q]? =
      some pane) (hsubscribed : pane.subscribed = true) : e.transcriptUnsub = some q := by
  rw [getElem?_updatePane] at hq
  split at hq
  · obtain ⟨old, hold, rfl⟩ := Option.map_eq_some_iff.1 hq
    exact h.subscribed q old hold hsubscribed
  · exact h.subscribed q pane hq hsubscribed

theorem output (agent : String) (p : ℕ) (chunk : Output) (h : e.OnePane) :
    Wrote agent e (e.output agent p chunk).1 chunk (e.output agent p chunk).2 := by
  unfold TranscriptEngine.output
  split
  · rename_i pane hpane
    split
    · dsimp only
      split
      · rename_i hsubscribed
        have hp := h.subscribed p pane hpane hsubscribed
        obtain ⟨pane', a, hpane', hstream, ha, hfollows⟩ := h.stream_eq hp
        rw [hpane] at hpane'
        obtain rfl := Option.some.inj hpane'
        have hwritten : (e.updatePane p fun pane =>
            { pane with stream := pane.stream ++ chunk }).panes[p]? =
              some { pane with stream := pane.stream ++ chunk } := by
          rw [getElem?_updatePane, if_pos rfl, hpane]
          rfl
        refine ⟨⟨subscribed_write h, ?_, ?_, h.hosted, h.launching, h.pending, h.hosted_alone,
          h.launching_alone, h.idle⟩, rfl, nofun, ?_⟩
        · intro q hq
          have hq : e.transcriptUnsub = some q := hq
          rw [hp] at hq
          obtain rfl := Option.some.inj hq
          refine ⟨_, a.append chunk, hwritten, hsubscribed, ?_, hfollows.append⟩
          show e.transcriptAccumulator.map _ = _
          rw [ha]
          rfl
        · intro hnone
          rw [show e.transcriptUnsub = none from hnone] at hp
          cases hp
        · intro sent hsent
          refine ⟨pane.stream, hstream, ?_, ?_⟩
          · show (e.transcriptUnsub.bind _) = _
            rw [hp, Option.bind_some]
            exact congrArg (Option.map TerminalPane.stream) hwritten
          · rw [← Option.some.inj hsent]
            show (⟨agent, e.transcriptGeneration, _, chunk⟩ : OperatorIpcTranscript) = _
            rw [← hfollows.nextOffset_eq]
            show (⟨agent, e.transcriptGeneration, (e.transcriptAccumulator.map _).getD 0, chunk⟩ :
              OperatorIpcTranscript) = _
            rw [ha]
            rfl
      · rename_i hsubscribed
        have hne : ∀ q, e.transcriptUnsub = some q → p ≠ q := by
          rintro q hq rfl
          obtain ⟨pane', -, hpane', hsubscribed', -⟩ := h.follows p hq
          rw [hpane] at hpane'
          obtain rfl := Option.some.inj hpane'
          exact hsubscribed hsubscribed'
        refine ⟨⟨subscribed_write h, ?_, h.untracked, h.hosted, h.launching, h.pending,
          h.hosted_alone, h.launching_alone, h.idle⟩, rfl, fun _ => ?_, nofun⟩
        · intro q hq
          obtain ⟨pane', a, hpane', hrest⟩ := h.follows q hq
          refine ⟨pane', a, ?_, hrest⟩
          rw [getElem?_updatePane, if_neg (hne q hq)]
          exact hpane'
        · show (e.transcriptUnsub.bind _) = e.transcriptUnsub.bind _
          cases hunsub : e.transcriptUnsub with
          | none => rfl
          | some q =>
            rw [Option.bind_some, Option.bind_some, getElem?_updatePane, if_neg (hne q hunsub)]
    · exact ⟨h, rfl, fun _ => rfl, nofun⟩
  · exact ⟨h, rfl, fun _ => rfl, nofun⟩

end OnePane

/-! ### Steps that write nothing -/

/-- The generation stays, and so does the stream, unless it is dropped. -/
def Calm (e e' : TranscriptEngine) : Prop :=
  e'.transcriptGeneration = e.transcriptGeneration ∧
    ∀ stream, e'.stream = some stream → e.stream = some stream

theorem calm_of_untracked {e' : TranscriptEngine}
    (hgeneration : e'.transcriptGeneration = e.transcriptGeneration)
    (hunsub : e'.transcriptUnsub = none) : e.Calm e' := by
  refine ⟨hgeneration, fun stream hs => ?_⟩
  rw [TranscriptEngine.stream, hunsub] at hs
  cases hs

theorem calm_launched : e.Calm e.launched := by
  unfold launched
  split <;> exact ⟨rfl, fun _ hs => hs⟩

theorem calm_releaseInTurn : e.Calm e.releaseInTurn := by
  unfold releaseInTurn
  split <;> exact ⟨rfl, fun _ hs => hs⟩

theorem calm_launchFails (h : e.OnePane) : e.Calm e.launchFails := by
  unfold launchFails
  split
  · exact ⟨rfl, fun _ hs => hs⟩
  · rename_i p _
    obtain ⟨-, hunsub, -, hgeneration, -⟩ := (h.kill (p := p)).dropExitTracking
    exact calm_of_untracked hgeneration hunsub

theorem calm_release (h : e.OnePane) : e.Calm e.release := by
  unfold release
  split
  · exact ⟨rfl, fun _ hs => hs⟩
  · obtain ⟨-, hunsub, -, hgeneration, -⟩ := h.dropExitTracking
    exact calm_of_untracked hgeneration hunsub

theorem calm_turnYields (h : e.OnePane) : e.Calm e.turnYields := by
  unfold turnYields
  split
  · exact ⟨rfl, fun _ hs => hs⟩
  · obtain ⟨-, hunsub, -, hgeneration, -⟩ := h.dropExitTracking
    exact calm_of_untracked hgeneration hunsub

theorem spawn_eq_self (h : ¬ (e.hosted = none ∧ e.launching = none)) : e.spawn = e := if_neg h

theorem spawn_of_free (h : e.hosted = none ∧ e.launching = none) :
    e.spawn.transcriptGeneration = e.transcriptGeneration + 1 ∧ e.spawn.stream = some [] := by
  rw [spawn, if_pos h]
  refine ⟨rfl, ?_⟩
  show ((e.panes ++ [({} : TerminalPane)])[e.panes.length]?).map TerminalPane.stream = some []
  simp

end TranscriptEngine

/-! ## Pushes on their way -/

namespace OperatorIpcTranscript

/-- The push has text of the generation. -/
def current (generation : ℕ) (push : OperatorIpcTranscript) : Bool :=
  push.generation = generation && push.chunk ≠ []

def stop (push : OperatorIpcTranscript) : ℕ := push.offset + push.chunk.length

end OperatorIpcTranscript

/-- The end of the last text of the generation. -/
def lastStop (generation : ℕ) : List OperatorIpcTranscript → Option ℕ
  | [] => none
  | push :: pushes =>
    match lastStop generation pushes with
    | some stop => some stop
    | none => if push.current generation then some push.stop else none

section Pushes

variable {generation : ℕ} {push : OperatorIpcTranscript} {pushes : List OperatorIpcTranscript}

theorem lastStop_concat :
    lastStop generation (pushes ++ [push]) =
      if push.current generation then some push.stop else lastStop generation pushes := by
  induction pushes with
  | nil => rfl
  | cons first pushes ih =>
    rw [List.cons_append, lastStop, ih]
    by_cases hcurrent : push.current generation
    · simp [hcurrent]
    · simp [hcurrent, lastStop]

theorem lastStop_eq_none (h : ∀ push ∈ pushes, push.generation ≠ generation) :
    lastStop generation pushes = none := by
  induction pushes with
  | nil => rfl
  | cons first pushes ih =>
    rw [lastStop, ih fun push hpush => h push (List.mem_cons_of_mem _ hpush)]
    simp [OperatorIpcTranscript.current, h first List.mem_cons_self]

theorem lastStop_isSome (h : ∃ push ∈ pushes, push.current generation) :
    (lastStop generation pushes).isSome := by
  induction pushes with
  | nil =>
    obtain ⟨push, hpush, -⟩ := h
    cases hpush
  | cons first pushes ih =>
    obtain ⟨push, hpush, hcurrent⟩ := h
    rw [lastStop]
    obtain rfl | hpush := List.mem_cons.1 hpush
    · split
      · rfl
      · rw [if_pos hcurrent]
        rfl
    · have := ih ⟨push, hpush, hcurrent⟩
      split
      · rfl
      · rename_i hnone
        rw [hnone] at this
        cases this

theorem lastStop_cons_congr {first : OperatorIpcTranscript} {pushes' : List OperatorIpcTranscript}
    (h : lastStop generation pushes = lastStop generation pushes') :
    lastStop generation (first :: pushes) = lastStop generation (first :: pushes') := by
  rw [lastStop, h, lastStop]

/-- Joining two pushes does not move the end. -/
theorem lastStop_coalesceAt (n : ℕ) :
    lastStop generation (coalesceAt n pushes) = lastStop generation pushes := by
  induction pushes generalizing n with
  | nil => cases n <;> rfl
  | cons first pushes ih =>
    cases n with
    | succ n => exact lastStop_cons_congr (ih n)
    | zero =>
      cases pushes with
      | nil => rfl
      | cons second pushes =>
        unfold coalesceAt
        split
        · rename_i hjoin
          obtain ⟨-, hgeneration, hoffset⟩ := hjoin
          simp only [lastStop]
          cases lastStop generation pushes with
          | some stop => rfl
          | none =>
            simp only [OperatorIpcTranscript.current, OperatorIpcTranscript.stop,
              OperatorIpcTranscript.join, hgeneration]
            by_cases hsecond : second.chunk = []
            · by_cases hfirst : first.chunk = []
              · simp [hfirst, hsecond]
              · by_cases heq : second.generation = generation
                · simp [hfirst, hsecond, heq]
                · simp [heq]
            · by_cases heq : second.generation = generation
              · simp [hsecond, heq, hoffset, Nat.add_assoc]
              · simp [heq]
        · rfl

/-- Cutting the front of a push does not move the end. -/
theorem lastStop_pruneAt (excess n : ℕ) :
    lastStop generation (pruneAt excess n pushes) = lastStop generation pushes := by
  induction pushes generalizing n with
  | nil => cases n <;> rfl
  | cons first pushes ih =>
    cases n with
    | succ n => exact lastStop_cons_congr (ih n)
    | zero =>
      unfold pruneAt
      split
      · rename_i hlt
        have hne : first.chunk ≠ [] := List.length_pos_iff.1 (by omega)
        have hdrop : first.chunk.drop excess ≠ [] := by
          intro hnil
          have := List.drop_eq_nil_iff.1 hnil
          omega
        have hcurrent : (first.cut excess).current generation = first.current generation := by
          unfold OperatorIpcTranscript.current
          rw [decide_eq_true hne]
          exact congrArg _ (decide_eq_true hdrop)
        have hstop : (first.cut excess).stop = first.stop := by
          show first.offset + excess + (first.chunk.drop excess).length =
            first.offset + first.chunk.length
          rw [List.length_drop]
          omega
        rw [lastStop, lastStop, hcurrent, hstop]
      · split
        · rename_i hlater
          rw [lastStop]
          cases hlast : lastStop generation pushes with
          | some stop => rfl
          | none =>
            rw [if_neg]
            intro hcurrent
            simp only [OperatorIpcTranscript.current, Bool.and_eq_true, decide_eq_true_eq]
              at hcurrent
            obtain ⟨later, hmem, hcurrent'⟩ := List.any_eq_true.1 hlater
            have hsome : (lastStop generation pushes).isSome := lastStop_isSome ⟨later, hmem, by
              rw [OperatorIpcTranscript.current, ← hcurrent.1]
              exact hcurrent'⟩
            rw [hlast] at hsome
            cases hsome
        · rfl

/-- What holds of two neighbours holds of their join. -/
theorem forall_coalesceAt {P : OperatorIpcTranscript → Prop}
    (hjoin : ∀ first second, P first → P second → first.agentId = second.agentId →
      first.generation = second.generation → second.offset = first.offset + first.chunk.length →
      P (first.join second)) (n : ℕ)
    (h : ∀ push ∈ pushes, P push) : ∀ push ∈ coalesceAt n pushes, P push := by
  induction pushes generalizing n with
  | nil => cases n <;> exact h
  | cons first pushes ih =>
    cases n with
    | succ n =>
      intro push hpush
      obtain rfl | hpush := List.mem_cons.1 hpush
      · exact h push List.mem_cons_self
      · exact ih n (fun other hother => h other (List.mem_cons_of_mem _ hother)) push hpush
    | zero =>
      cases pushes with
      | nil => exact h
      | cons second pushes =>
        unfold coalesceAt
        split
        · rename_i hsame
          intro push hpush
          obtain rfl | hpush := List.mem_cons.1 hpush
          · exact hjoin first second (h first List.mem_cons_self)
              (h second (List.mem_cons_of_mem _ List.mem_cons_self)) hsame.1 hsame.2.1 hsame.2.2
          · exact h push (List.mem_cons_of_mem _ (List.mem_cons_of_mem _ hpush))
        · exact h

theorem forall_pruneAt {P : OperatorIpcTranscript → Prop} {excess : ℕ}
    (hcut : ∀ first, P first → P (first.cut excess)) (n : ℕ)
    (h : ∀ push ∈ pushes, P push) : ∀ push ∈ pruneAt excess n pushes, P push := by
  induction pushes generalizing n with
  | nil => cases n <;> exact h
  | cons first pushes ih =>
    cases n with
    | succ n =>
      intro push hpush
      obtain rfl | hpush := List.mem_cons.1 hpush
      · exact h push List.mem_cons_self
      · exact ih n (fun other hother => h other (List.mem_cons_of_mem _ hother)) push hpush
    | zero =>
      unfold pruneAt
      split
      · intro push hpush
        obtain rfl | hpush := List.mem_cons.1 hpush
        · exact hcut first (h first List.mem_cons_self)
        · exact h push (List.mem_cons_of_mem _ hpush)
      · split
        · exact fun push hpush => h push (List.mem_cons_of_mem _ hpush)
        · exact h

end Pushes

end Orchestration.Desktop
