import Orchestration.Desktop.TermFeed
import Orchestration.Library.Run

/-!
# The console of one generation

Backfills and pieces of one stream reach the console in any order, and the terminal is fed
after each of them. The console shows one part of the stream at a time, and the terminal
was given the part that ends with it.
-/

namespace Orchestration.Desktop

open Pty (Output TranscriptTailAccumulator)

/-! ## The accumulator behind the console -/

namespace AgentsConsole

variable {vm : AgentsConsole} {stream : Output}

/-- The accumulator keeps no more than the console may show. -/
def Within (vm : AgentsConsole) : Prop :=
  vm.transcriptAccumulator.Within CONSOLE_TRANSCRIPT_MAX_CHARS
    CONSOLE_TRANSCRIPT_MAX_CHARS

theorem within_applyTranscriptSegment {offset : ℕ} {text : Output} (h : vm.Within)
    (hconsistent : vm.transcriptAccumulator.Consistent) :
    (vm.applyTranscriptSegment offset text).Within := by
  unfold applyTranscriptSegment
  split
  · exact h
  · split
    · exact TranscriptTailAccumulator.within_append h hconsistent text
    · exact TranscriptTailAccumulator.within_replace h _ _

theorem within_clearSegments (h : vm.Within) : vm.clearSegments.Within :=
  TranscriptTailAccumulator.within_clear h

theorem within_enterGeneration {generation : ℕ} (h : vm.Within) :
    (vm.enterGeneration generation).Within := by
  unfold enterGeneration
  split
  · exact within_clearSegments h
  · exact h

/-! ## One piece -/

/-- The piece meets what is shown. -/
def Touches (vm : AgentsConsole) (offset : ℕ) (text : Output) : Prop :=
  offset ≤ vm.transcriptOffset + vm.transcript.length ∧
    vm.transcriptOffset ≤ offset + text.length

instance (vm : AgentsConsole) (offset : ℕ) (text : Output) : Decidable (vm.Touches offset text) :=
  inferInstanceAs (Decidable (_ ∧ _))

/-- What `appendChunk` may do with a piece of the stream, of the generation that is shown. -/
inductive Appended (vm : AgentsConsole) (stream : Output) (offset : ℕ) (text : Output) :
    AgentsConsole × TranscriptApplyResult → Prop where
  | ignored (h : offset < vm.transcriptOffset ∧
      offset + text.length ≤ vm.transcriptOffset + vm.transcript.length) :
      Appended vm stream offset text (vm, .ignored)
  | gap (h : vm.transcriptOffset + vm.transcript.length < offset) :
      Appended vm stream offset text (vm, .gap)
  | replaced (h : offset = 0 ∧ 0 < vm.transcriptOffset) :
      Appended vm stream offset text
        (vm.clearSegments.applyTranscriptSegment offset text, .applied)
  | joined (start : ℕ) (newer : Output) (hne : newer ≠ [])
      (hat : Slice.At stream start newer) (hend : start + newer.length = offset + text.length)
      (htouches : vm.transcriptSegments ≠ [] → vm.Touches offset text) :
      Appended vm stream offset text (vm.applyTranscriptSegment start newer, .applied)

theorem stop_eq (h : vm.Consistent) (hshown : vm.transcriptSegments ≠ []) :
    vm.stop = vm.transcriptOffset + vm.transcript.length := by
  obtain hnone | ⟨-, hone, -⟩ := h.segments
  · exact absurd hnone hshown
  · exact stop_of_segments_eq hone

theorem appendText_eq {offset : ℕ} {text : Output} (h : vm.Consistent)
    (hpart : vm.PartOf stream) (hat : Slice.At stream offset text)
    (hstart : offset = 0 → vm.transcriptSegments = [] ∨ vm.transcriptOffset = 0) :
    vm.appendText offset text = vm.applyTranscriptSegment offset text := by
  rw [appendText, resetPrefixForLiveChunk_eq_none h hpart hat hstart]

theorem appendCurrent_appended {offset : ℕ} {text : Output} (h : vm.Consistent)
    (hpart : vm.PartOf stream) (htext : text ≠ []) (hat : Slice.At stream offset text) :
    Appended vm stream offset text (vm.appendCurrent offset text) := by
  unfold appendCurrent
  rw [if_neg htext]
  split
  · rename_i hrange
    have hnone : vm.transcriptSegments = [] := by
      obtain hnone | ⟨-, hone, -⟩ := h.segments
      · exact hnone
      · simp [transcriptRange, hone] at hrange
    rw [appendText_eq h hpart hat fun _ => .inl hnone]
    exact .joined offset text htext hat rfl fun hshown => absurd hnone hshown
  · rename_i start stop hrange
    obtain ⟨hshown, hoffset, hstop⟩ := range_of_segments_eq h hrange
    rw [stop_eq h hshown] at hstop
    split
    · rename_i hzero
      exact .replaced ⟨hzero.1, by omega⟩
    · rename_i hzero
      split
      · rename_i hbefore
        split
        · exact .ignored ⟨by omega, by omega⟩
        · rename_i hafter
          have hcut : Slice.At stream start (text.drop (start - offset)) := by
            have hdrop := hat.drop (start - offset)
            rwa [show offset + (start - offset) = start by omega] at hdrop
          have hlength : (text.drop (start - offset)).length = offset + text.length - start := by
            rw [List.length_drop]
            omega
          rw [if_neg (by omega), appendText_eq h hpart hcut fun hzero' => by omega]
          refine .joined start _ ?_ hcut (by omega) fun _ => ⟨by omega, by omega⟩
          intro hnil
          rw [hnil, List.length_nil] at hlength
          omega
      · split
        · exact .gap (by omega)
        · rw [appendText_eq h hpart hat fun hzero' => .inr (by omega)]
          exact .joined offset text htext hat rfl fun _ => ⟨by omega, by omega⟩

end AgentsConsole

/-! ## The console and its terminal -/

/-- What the console is told. -/
inductive ConsoleCall where
  | selectAgent (agentId : Option String)
  | clearSelectedTranscript
  | setTranscriptTail (offset : ℕ) (tail : Output)
  | appendChunk (offset : ℕ) (chunk : Output)
deriving DecidableEq, Repr

/-- Backfills are parts of the stream, and pieces are parts with some text. -/
def ConsoleCall.Of (stream : Output) : ConsoleCall → Prop
  | .selectAgent _ => True
  | .clearSelectedTranscript => True
  | .setTranscriptTail offset tail => Slice.At stream offset tail
  | .appendChunk offset chunk => Slice.At stream offset chunk ∧ chunk ≠ []

/-- The console, its terminal, and what the terminal was fed with last. -/
structure FedConsole where
  console : AgentsConsole := {}
  term : TermWriter := {}
  lastAgentId : Option String := none
  lastTranscript : Output := []
  lastTranscriptGeneration : ℕ := 0
  lastTranscriptOffset : ℕ := 0
deriving DecidableEq, Repr

namespace FedConsole

/-- Feed the terminal with what the console shows now. -/
def feed (s : FedConsole) : FedConsole :=
  { s with
    term := applyTermFeed s.term (decideTermFeed {
      selectedAgentId := s.console.selectedAgentId
      lastAgentId := s.lastAgentId
      transcript := s.console.transcript
      transcriptGeneration := some s.console.transcriptGeneration
      transcriptOffset := some s.console.transcriptOffset
      lastTranscript := s.lastTranscript
      lastTranscriptGeneration := some s.lastTranscriptGeneration
      lastTranscriptOffset := some s.lastTranscriptOffset })
    lastAgentId := s.console.selectedAgentId
    lastTranscript := s.console.transcript
    lastTranscriptGeneration := s.console.transcriptGeneration
    lastTranscriptOffset := s.console.transcriptOffset }

end FedConsole

variable {agent : String} {generation : ℕ} {stream : Output}

/-- A call about one generation of `agent`. -/
def ConsoleCall.perform (agent : String) (generation : ℕ) (vm : AgentsConsole) :
    ConsoleCall → AgentsConsole
  | .selectAgent agentId => vm.selectAgent agentId
  | .clearSelectedTranscript => vm.clearSelectedTranscript
  | .setTranscriptTail offset tail => vm.setTranscriptTail ⟨agent, generation, offset, tail⟩
  | .appendChunk offset chunk => (vm.appendChunk ⟨agent, generation, offset, chunk⟩).1

def FedConsole.step (agent : String) (generation : ℕ) (call : ConsoleCall) (s : FedConsole) :
    FedConsole :=
  { s with console := call.perform agent generation s.console }.feed

/-! ## What the console holds -/

namespace AgentsConsole

/-- What holds of the console between two calls about one generation of `agent`. -/
structure Holds (agent : String) (generation : ℕ) (stream : Output) (vm : AgentsConsole) :
    Prop where
  consistent : vm.Consistent
  within : vm.Within
  part : vm.PartOf stream
  blank : vm.transcriptSegments = [] → vm.transcript = [] ∧ vm.transcriptOffset = 0
  current : vm.transcriptSegments ≠ [] →
    vm.selectedAgentId = some agent ∧ vm.transcriptGeneration = generation
  generation_le : vm.transcriptGeneration ≤ generation

/-- Where the shown transcript ends. -/
def shownEnd (vm : AgentsConsole) : ℕ := vm.transcriptOffset + vm.transcript.length

/-- What is shown does not lose its end while its start moves on. -/
def KeepsEnd (vm vm' : AgentsConsole) : Prop :=
  vm.transcriptOffset < vm'.transcriptOffset → vm.shownEnd ≤ vm'.shownEnd

variable {vm : AgentsConsole} {offset : ℕ} {text : Output}

theorem holds_init : Holds agent generation stream {} := by
  refine ⟨consistent_init, ⟨rfl, rfl, Nat.zero_le _⟩, partOf_of_segments_eq_nil rfl,
    fun _ => ⟨rfl, rfl⟩, fun h => absurd rfl h, Nat.zero_le _⟩

/-- The text alone is shown, or its end. -/
def ShowsEndOf (vm : AgentsConsole) (offset : ℕ) (text : Output) : Prop :=
  ∃ dropped, dropped < text.length ∧ vm.transcript = text.drop dropped ∧
    vm.transcriptOffset = offset + dropped

theorem applyTranscriptSegment_of_blank (hnone : vm.transcriptSegments = []) (htext : text ≠ []) :
    vm.applyTranscriptSegment offset text =
      vm.applyAccumulatorSnapshot (vm.transcriptAccumulator.replace text offset) := by
  have hcontinues : vm.continues offset = false := by simp [continues, hnone]
  rw [applyTranscriptSegment, if_neg htext, hcontinues, hnone, List.nil_append,
    mergeSegments_singleton htext]
  simp

/-- Text that is put where nothing is shown stands alone, and in full unless it is too long. -/
theorem showsEndOf_of_blank (hconsistent : vm.transcriptAccumulator.Consistent)
    (hwithin : vm.Within) (hnone : vm.transcriptSegments = []) (htext : text ≠ []) :
    ((vm.applyTranscriptSegment offset text).ShowsEndOf offset text) ∧
      (text.length ≤ CONSOLE_TRANSCRIPT_MAX_CHARS →
        (vm.applyTranscriptSegment offset text).transcript = text ∧
          (vm.applyTranscriptSegment offset text).transcriptOffset = offset) := by
  obtain ⟨-, dropped, htail, hoffset, hlt, -⟩ := TranscriptTailAccumulator.replace_spec text offset
    hconsistent.softMaxChars_pos
  rw [applyTranscriptSegment_of_blank hnone htext]
  exact ⟨⟨dropped, hlt htext, htail, hoffset⟩, fun hshort =>
    TranscriptTailAccumulator.replace_short offset (hshort.trans hwithin.soft.ge)⟩

namespace Holds

theorem shown (h : Holds agent generation stream vm) (hne : vm.transcriptSegments ≠ []) :
    vm.transcript ≠ [] ∧ vm.transcriptSegments = [⟨vm.transcriptOffset, vm.transcript⟩] ∧
      vm.transcriptAccumulator.tail = vm.transcript := by
  obtain hnone | ⟨htext, hone, htail, -⟩ := h.consistent.segments
  · exact absurd hnone hne
  · exact ⟨htext, hone, htail⟩

/-- What is shown is a part of the stream. -/
theorem at_transcript (h : Holds agent generation stream vm) :
    Slice.At stream vm.transcriptOffset vm.transcript := by
  by_cases hnone : vm.transcriptSegments = []
  · rw [(h.blank hnone).1]
    exact Slice.at_nil
  · apply h.part ⟨vm.transcriptOffset, vm.transcript⟩
    rw [(h.shown hnone).2.1]
    exact List.mem_cons_self

theorem length_le (h : Holds agent generation stream vm) :
    vm.transcript.length ≤ CONSOLE_TRANSCRIPT_MAX_CHARS := by
  by_cases hnone : vm.transcriptSegments = []
  · rw [(h.blank hnone).1]
    exact Nat.zero_le _
  · rw [← (h.shown hnone).2.2, ← Nat.max_self CONSOLE_TRANSCRIPT_MAX_CHARS]
    exact h.within.length_le

theorem shownEnd_eq (h : Holds agent generation stream vm) : vm.shownEnd = vm.stop := by
  by_cases hnone : vm.transcriptSegments = []
  · obtain ⟨htext, hoffset⟩ := h.blank hnone
    simp [shownEnd, htext, hoffset, stop, transcriptRange, hnone]
  · exact (stop_eq h.consistent hnone).symm

theorem shownEnd_le_length (h : Holds agent generation stream vm) :
    vm.shownEnd ≤ stream.length := by
  rw [h.shownEnd_eq]
  exact stop_le_length h.consistent h.part

/-- A part of the stream is put in, for the agent and the generation that are shown. -/
theorem of_applyTranscriptSegment (hconsistent : vm.Consistent) (hwithin : vm.Within)
    (hpart : vm.PartOf stream) (hselected : vm.selectedAgentId = some agent)
    (hgeneration : vm.transcriptGeneration = generation) (htext : text ≠ [])
    (hat : Slice.At stream offset text) :
    Holds agent generation stream (vm.applyTranscriptSegment offset text) ∧
      (vm.applyTranscriptSegment offset text).transcriptSegments ≠ [] ∧
      (vm.applyTranscriptSegment offset text).shownEnd = max vm.stop (offset + text.length) := by
  obtain ⟨hpart', hshown, hstop⟩ := applyTranscriptSegment_partOf hconsistent hpart htext hat
  obtain ⟨hselected', hgeneration', -⟩ := applyTranscriptSegment_header vm offset text
  have hholds : Holds agent generation stream (vm.applyTranscriptSegment offset text) := by
    refine ⟨applyTranscriptSegment_consistent hconsistent.accumulator htext,
      within_applyTranscriptSegment hwithin hconsistent.accumulator, hpart',
      fun hnone => absurd hnone hshown, fun _ => ⟨?_, ?_⟩, ?_⟩
    · rw [hselected', hselected]
    · rw [hgeneration', hgeneration]
    · rw [hgeneration', hgeneration]
  refine ⟨hholds, hshown, ?_⟩
  rw [hholds.shownEnd_eq, hstop]

/-- The console shows nothing, of an agent and a generation that are not too new. -/
theorem of_blank (hconsistent : vm.transcriptAccumulator.Consistent) (hwithin : vm.Within)
    (hsegments : vm.transcriptSegments = []) (htext : vm.transcript = [])
    (hoffset : vm.transcriptOffset = 0) (hle : vm.transcriptGeneration ≤ generation) :
    Holds agent generation stream vm :=
  ⟨⟨hconsistent, .inl hsegments⟩, hwithin, partOf_of_segments_eq_nil hsegments,
    fun _ => ⟨htext, hoffset⟩, fun hne => absurd hsegments hne, hle⟩

/-- Entering the generation shows nothing else, as nothing of an older one is shown. -/
theorem enterGeneration (h : Holds agent generation stream vm) :
    Holds agent generation stream (vm.enterGeneration generation) ∧
      (vm.enterGeneration generation).transcriptGeneration = generation ∧
      (vm.enterGeneration generation).transcript = vm.transcript ∧
      (vm.enterGeneration generation).transcriptOffset = vm.transcriptOffset := by
  by_cases hlt : vm.transcriptGeneration < generation
  · have hnone : vm.transcriptSegments = [] := by
      by_contra hne
      have := (h.current hne).2
      omega
    obtain ⟨htext, hoffset⟩ := h.blank hnone
    rw [AgentsConsole.enterGeneration, if_pos hlt]
    exact ⟨of_blank (consistent_clear h.consistent.accumulator) (within_clearSegments h.within) rfl
      htext hoffset (Nat.le_refl _), rfl, rfl, rfl⟩
  · have hle := h.generation_le
    rw [AgentsConsole.enterGeneration, if_neg hlt]
    exact ⟨h, by omega, rfl, rfl⟩

theorem clearSegments (h : Holds agent generation stream vm) {vm' : AgentsConsole}
    (haccumulator : vm'.transcriptAccumulator = vm.transcriptAccumulator)
    (htext : vm'.transcript = []) (hoffset : vm'.transcriptOffset = 0)
    (hle : vm'.transcriptGeneration ≤ generation) :
    Holds agent generation stream vm'.clearSegments := by
  refine of_blank ?_ ?_ rfl htext hoffset hle
  · show vm'.transcriptAccumulator.clear.Consistent
    rw [haccumulator]
    exact consistent_clear h.consistent.accumulator
  · show vm'.transcriptAccumulator.clear.Within _ _
    rw [haccumulator]
    exact TranscriptTailAccumulator.within_clear h.within

theorem selectAgent (h : Holds agent generation stream vm) (agentId : Option String) :
    Holds agent generation stream (vm.selectAgent agentId) := by
  unfold AgentsConsole.selectAgent
  refine h.clearSegments rfl rfl rfl ?_
  dsimp only
  split
  · exact h.generation_le
  · exact Nat.zero_le _

theorem clearSelectedTranscript (h : Holds agent generation stream vm) :
    Holds agent generation stream vm.clearSelectedTranscript := by
  unfold AgentsConsole.clearSelectedTranscript
  split
  · exact h
  · exact h.clearSegments rfl rfl rfl h.generation_le

theorem keepsEnd_of_blank {vm' : AgentsConsole} (hoffset : vm'.transcriptOffset = 0) :
    vm.KeepsEnd vm' := by
  intro hlt
  rw [hoffset] at hlt
  cases hlt

theorem setTranscriptTail (h : Holds agent generation stream vm)
    (hat : Slice.At stream offset text) :
    Holds agent generation stream (vm.setTranscriptTail ⟨agent, generation, offset, text⟩) ∧
      vm.shownEnd ≤ (vm.setTranscriptTail ⟨agent, generation, offset, text⟩).shownEnd := by
  by_cases hselected : vm.selectedAgentId = some agent
  · obtain ⟨hentered, hgeneration, hsame, hoffset⟩ := h.enterGeneration
    have hend : (vm.enterGeneration generation).shownEnd = vm.shownEnd := by
      rw [shownEnd, shownEnd, hsame, hoffset]
    rw [setTranscriptTail_current hselected h.generation_le]
    by_cases htext : text = []
    · rw [applyTranscriptSegment, if_pos htext]
      exact ⟨hentered, hend.ge⟩
    · obtain ⟨hholds, -, hstop⟩ := of_applyTranscriptSegment hentered.consistent hentered.within
        hentered.part ((enterGeneration_header vm generation).1.trans hselected) hgeneration htext
        hat
      refine ⟨hholds, ?_⟩
      rw [hstop, ← hend, hentered.shownEnd_eq]
      exact Nat.le_max_left _ _
  · rw [setTranscriptTail_of_ne hselected]
    exact ⟨h, Nat.le_refl _⟩

/-- A piece that replaces what is shown stands alone. -/
theorem replaced (h : Holds agent generation stream vm)
    (hselected : vm.selectedAgentId = some agent) (hgeneration : vm.transcriptGeneration = generation)
    (htext : text ≠ []) (hat : Slice.At stream offset text) :
    Holds agent generation stream (vm.clearSegments.applyTranscriptSegment offset text) :=
  (of_applyTranscriptSegment (clearSegments_consistent h.consistent.accumulator)
    (within_clearSegments h.within) (partOf_of_segments_eq_nil rfl) hselected hgeneration htext
    hat).1

theorem appended {r : AgentsConsole × TranscriptApplyResult}
    (h : Holds agent generation stream vm) (hselected : vm.selectedAgentId = some agent)
    (hgeneration : vm.transcriptGeneration = generation) (htext : text ≠ [])
    (hat : Slice.At stream offset text) (hr : Appended vm stream offset text r) :
    Holds agent generation stream r.1 ∧
      ((offset = 0 → vm.transcriptOffset = 0 ∨ text.length ≤ CONSOLE_TRANSCRIPT_MAX_CHARS) →
        vm.KeepsEnd r.1) := by
  cases hr with
  | ignored _ => exact ⟨h, fun _ _ => Nat.le_refl _⟩
  | gap _ => exact ⟨h, fun _ _ => Nat.le_refl _⟩
  | replaced hzero =>
    refine ⟨h.replaced hselected hgeneration htext hat, fun hfits => ?_⟩
    have hshort : text.length ≤ CONSOLE_TRANSCRIPT_MAX_CHARS :=
      (hfits hzero.1).resolve_left (by omega)
    obtain ⟨-, hfull⟩ := showsEndOf_of_blank (consistent_clear h.consistent.accumulator)
      (within_clearSegments h.within) rfl htext
    apply keepsEnd_of_blank
    rw [(hfull hshort).2, hzero.1]
  | joined start newer hne hat' hend _ =>
    obtain ⟨hholds, -, hstop⟩ := of_applyTranscriptSegment h.consistent h.within h.part hselected
      hgeneration hne hat'
    refine ⟨hholds, fun _ _ => ?_⟩
    rw [hstop, h.shownEnd_eq]
    exact Nat.le_max_left _ _

theorem appendChunk (h : Holds agent generation stream vm) (htext : text ≠ [])
    (hat : Slice.At stream offset text) :
    Holds agent generation stream (vm.appendChunk ⟨agent, generation, offset, text⟩).1 ∧
      ((offset = 0 → vm.transcriptOffset = 0 ∨ text.length ≤ CONSOLE_TRANSCRIPT_MAX_CHARS) →
        vm.KeepsEnd (vm.appendChunk ⟨agent, generation, offset, text⟩).1) := by
  by_cases hselected : vm.selectedAgentId = some agent
  · obtain ⟨hentered, hgeneration, hsame, hoffset⟩ := h.enterGeneration
    have hend : (vm.enterGeneration generation).shownEnd = vm.shownEnd := by
      rw [shownEnd, shownEnd, hsame, hoffset]
    obtain ⟨-, hgap⟩ | happend := @appendChunk_current vm ⟨agent, generation, offset, text⟩
      hselected h.generation_le
    · rw [hgap]
      exact ⟨hentered, fun _ _ => hend.ge⟩
    · rw [happend]
      obtain ⟨hholds, hkeeps⟩ := hentered.appended
        ((enterGeneration_header vm generation).1.trans hselected) hgeneration htext hat
        (appendCurrent_appended hentered.consistent hentered.part htext hat)
      refine ⟨hholds, fun hfits hlt => ?_⟩
      rw [← hend]
      apply hkeeps
      · rw [hoffset]
        exact hfits
      · rw [hoffset]
        exact hlt
  · rw [appendChunk_of_ne hselected]
    exact ⟨h, fun _ _ => Nat.le_refl _⟩

end Holds

/-! ### Text that does not touch what is shown -/

/-- The same transcript is shown. -/
def ShowsSame (vm vm' : AgentsConsole) : Prop :=
  vm'.transcript = vm.transcript ∧ vm'.transcriptOffset = vm.transcriptOffset

/-- A piece is reported to leave a gap, or ignored as it is older than what is shown, or shown
alone. -/
def KeepsApart (vm : AgentsConsole) (offset : ℕ) (text : Output)
    (r : AgentsConsole × TranscriptApplyResult) : Prop :=
  r.2 = .gap ∧ vm.ShowsSame r.1 ∨
    r.2 = .ignored ∧ vm.ShowsSame r.1 ∧ offset + text.length < vm.transcriptOffset ∨
    r.2 = .applied ∧ r.1.ShowsEndOf offset text

namespace Holds

theorem segments_ne_nil (h : Holds agent generation stream vm) (hshown : vm.transcript ≠ []) :
    vm.transcriptSegments ≠ [] :=
  fun hnone => hshown (h.blank hnone).1

theorem enterGeneration_shown (h : Holds agent generation stream vm)
    (hshown : vm.transcript ≠ []) :
    vm.selectedAgentId = some agent ∧ vm.enterGeneration generation = vm := by
  obtain ⟨hselected, hgeneration⟩ := h.current (h.segments_ne_nil hshown)
  refine ⟨hselected, ?_⟩
  rw [← hgeneration]
  exact enterGeneration_self

theorem appendChunk_apart (h : Holds agent generation stream vm) (hshown : vm.transcript ≠ [])
    (htext : text ≠ []) (hat : Slice.At stream offset text) (hapart : ¬ vm.Touches offset text) :
    vm.KeepsApart offset text (vm.appendChunk ⟨agent, generation, offset, text⟩) := by
  obtain ⟨hselected, hentered⟩ := h.enterGeneration_shown hshown
  obtain ⟨hlt, -⟩ | happend := @appendChunk_current vm ⟨agent, generation, offset, text⟩
    hselected h.generation_le
  · have hlt : vm.transcriptGeneration < generation := hlt
    rw [(h.current (h.segments_ne_nil hshown)).2] at hlt
    exact absurd hlt (Nat.lt_irrefl _)
  · rw [happend]
    dsimp only
    rw [hentered]
    have happended := appendCurrent_appended h.consistent h.part htext hat
    revert happended
    generalize vm.appendCurrent offset text = r
    intro happended
    cases happended with
    | ignored hbefore =>
      refine .inr (.inl ⟨rfl, ⟨rfl, rfl⟩, ?_⟩)
      unfold Touches at hapart
      omega
    | gap hafter => exact .inl ⟨rfl, rfl, rfl⟩
    | replaced hzero =>
      obtain ⟨hends, -⟩ := showsEndOf_of_blank (consistent_clear h.consistent.accumulator)
        (within_clearSegments h.within) rfl htext
      exact .inr (.inr ⟨rfl, hends⟩)
    | joined start newer hne hat' hend htouches =>
      exact absurd (htouches (h.segments_ne_nil hshown)) hapart

theorem setTranscriptTail_apart (h : Holds agent generation stream vm)
    (hshown : vm.transcript ≠ []) (htext : text ≠ []) (hapart : ¬ vm.Touches offset text) :
    vm.ShowsSame (vm.setTranscriptTail ⟨agent, generation, offset, text⟩) ∨
      (vm.setTranscriptTail ⟨agent, generation, offset, text⟩).ShowsEndOf offset text := by
  obtain ⟨hselected, hentered⟩ := h.enterGeneration_shown hshown
  obtain ⟨-, hone, -⟩ := h.shown (h.segments_ne_nil hshown)
  rw [setTranscriptTail_current hselected h.generation_le]
  dsimp only
  rw [hentered]
  unfold Touches at hapart
  have hpos := List.length_pos_iff.2 htext
  have hcontinues : vm.continues offset = false := by
    have hne : vm.transcriptOffset + vm.transcript.length ≠ offset := by omega
    simp [continues, transcriptRange, hone, TranscriptSegment.stop, hne]
  rw [applyTranscriptSegment, if_neg htext, hcontinues, hone, List.singleton_append]
  by_cases hle : vm.transcriptOffset ≤ offset
  · have hlater : newestContiguousSuffix
        (mergeSegments [⟨vm.transcriptOffset, vm.transcript⟩, ⟨offset, text⟩]) =
          [⟨offset, text⟩] := by
      have hsorted : mergeSegments [⟨vm.transcriptOffset, vm.transcript⟩, ⟨offset, text⟩] =
          [(⟨vm.transcriptOffset, vm.transcript⟩ : TranscriptSegment), ⟨offset, text⟩].foldl
            mergeSegment [] := by
        simp [mergeSegments, hshown, htext, hle]
      rw [hsorted, mergeSegment_pair, if_neg]
      show ¬ offset ≤ vm.transcriptOffset + vm.transcript.length
      omega
    rw [hlater]
    obtain ⟨-, dropped, htail, hoffset, hlt, -⟩ := TranscriptTailAccumulator.replace_spec text
      offset h.consistent.accumulator.softMaxChars_pos
    refine .inr ⟨dropped, hlt htext, ?_, ?_⟩
    · simpa [applyAccumulatorSnapshot] using htail
    · simpa [applyAccumulatorSnapshot] using hoffset
  · have hearlier : newestContiguousSuffix
        (mergeSegments [⟨vm.transcriptOffset, vm.transcript⟩, ⟨offset, text⟩]) =
          [⟨vm.transcriptOffset, vm.transcript⟩] := by
      have hsorted : mergeSegments [⟨vm.transcriptOffset, vm.transcript⟩, ⟨offset, text⟩] =
          [(⟨offset, text⟩ : TranscriptSegment), ⟨vm.transcriptOffset, vm.transcript⟩].foldl
            mergeSegment [] := by
        simp [mergeSegments, hshown, htext, hle]
      rw [hsorted, mergeSegment_pair, if_neg]
      show ¬ vm.transcriptOffset ≤ offset + text.length
      omega
    rw [hearlier]
    obtain ⟨htail, hoffset⟩ := TranscriptTailAccumulator.replace_short
      vm.transcriptOffset (h.length_le.trans h.within.soft.ge)
    refine .inl ⟨?_, ?_⟩
    · simpa [applyAccumulatorSnapshot] using htail
    · simpa [applyAccumulatorSnapshot] using hoffset

end Holds

end AgentsConsole

/-! ## Runs -/

namespace ConsoleCall

/-- A piece that starts the stream over is no longer than what the console may show, unless the
console shows the start of the stream, or nothing. -/
def Fits (call : ConsoleCall) (s : FedConsole) : Prop :=
  match call with
  | .appendChunk offset chunk =>
    offset = 0 → s.console.transcriptOffset = 0 ∨ chunk.length ≤ CONSOLE_TRANSCRIPT_MAX_CHARS
  | _ => True

theorem perform_holds {call : ConsoleCall} {s : FedConsole} (hof : call.Of stream)
    (h : s.console.Holds agent generation stream) :
    (call.perform agent generation s.console).Holds agent generation stream ∧
      (call.Fits s → s.console.KeepsEnd (call.perform agent generation s.console)) := by
  cases call with
  | selectAgent agentId =>
    exact ⟨h.selectAgent agentId, fun _ => AgentsConsole.Holds.keepsEnd_of_blank rfl⟩
  | clearSelectedTranscript =>
    refine ⟨h.clearSelectedTranscript, fun _ => ?_⟩
    show s.console.KeepsEnd s.console.clearSelectedTranscript
    unfold AgentsConsole.clearSelectedTranscript
    split
    · exact fun _ => Nat.le_refl _
    · exact AgentsConsole.Holds.keepsEnd_of_blank rfl
  | setTranscriptTail offset tail =>
    obtain ⟨hholds, hend⟩ := h.setTranscriptTail hof
    exact ⟨hholds, fun _ _ => hend⟩
  | appendChunk offset chunk =>
    exact h.appendChunk hof.2 hof.1

end ConsoleCall

namespace FedConsole

/-- What was fed last is what the console shows. -/
def UpToDate (s : FedConsole) : Prop :=
  s.lastTranscript = s.console.transcript ∧ s.lastTranscriptOffset = s.console.transcriptOffset

/-- The terminal was given a part of the stream, which ends with what the console shows. -/
def Follows (s : FedConsole) (stream : Output) : Prop :=
  Fed stream s.console.transcriptOffset s.console.transcript s.term

theorem step_follows {call : ConsoleCall} {s : FedConsole} (hof : call.Of stream)
    (h : s.console.Holds agent generation stream) (hlast : s.UpToDate) (hfits : call.Fits s)
    (hfed : s.Follows stream) : (s.step agent generation call).Follows stream := by
  obtain ⟨hholds, hkeeps⟩ := call.perform_holds hof h
  refine decideTermFeed_fed hholds.at_transcript ?_ fun _ _ hlt _ => ?_
  · show Fed stream s.lastTranscriptOffset s.lastTranscript s.term
    rw [hlast.1, hlast.2]
    exact hfed
  · have hlt : s.lastTranscriptOffset < _ := hlt
    show s.lastTranscriptOffset + s.lastTranscript.length ≤ _
    rw [hlast.2] at hlt
    rw [hlast.1, hlast.2]
    exact hkeeps hfits hlt

/-- What the console shows, and does with the text of the stream that comes next. -/
structure ShowsStream (agent : String) (generation : ℕ) (stream : Output) (s : FedConsole) :
    Prop where
  transcript : s.console.transcript =
    slice stream s.console.transcriptOffset s.console.shownEnd
  length_le : s.console.transcript.length ≤ CONSOLE_TRANSCRIPT_MAX_CHARS
  pieces : ∀ offset text, Slice.At stream offset text → text ≠ [] → s.console.transcript ≠ [] →
    ¬ s.console.Touches offset text →
      s.console.KeepsApart offset text (s.console.appendChunk ⟨agent, generation, offset, text⟩)
  backfills : ∀ offset text, Slice.At stream offset text → text ≠ [] →
    s.console.transcript ≠ [] → ¬ s.console.Touches offset text →
      s.console.ShowsSame (s.console.setTranscriptTail ⟨agent, generation, offset, text⟩) ∨
        (s.console.setTranscriptTail ⟨agent, generation, offset, text⟩).ShowsEndOf offset text

/-- The terminal was given the stream, from somewhere up to where the console ends. -/
def TerminalFollows (stream : Output) (s : FedConsole) : Prop :=
  s.console.shownEnd ≤ stream.length ∧
    ∃ start, start ≤ s.console.shownEnd ∧ s.term.written = slice stream start s.console.shownEnd

end FedConsole

/-! ### Every run -/

variable {calls : List ConsoleCall}

theorem holds_run (hcalls : ∀ call ∈ calls, call.Of stream) :
    (Run.after (FedConsole.step agent generation) calls {}).console.Holds agent generation stream ∧
      (Run.after (FedConsole.step agent generation) calls {}).UpToDate := by
  have hguard : Run.Guarded (FedConsole.step agent generation) (fun call _ => call.Of stream)
      calls {} := Run.guarded_of_forall hcalls
  refine Run.invariant (fun s : FedConsole =>
    s.console.Holds agent generation stream ∧ s.UpToDate) ?_ hguard
    ⟨AgentsConsole.holds_init, rfl, rfl⟩
  intro call s hof hs
  exact ⟨(call.perform_holds hof hs.1).1, rfl, rfl⟩

theorem follows_run (hcalls : ∀ call ∈ calls, call.Of stream)
    (hfits : Run.Guarded (FedConsole.step agent generation) ConsoleCall.Fits calls {}) :
    (Run.after (FedConsole.step agent generation) calls {}).Follows stream := by
  have hguard : Run.Guarded (FedConsole.step agent generation)
      (fun call s => call.Of stream ∧ call.Fits s) calls {} :=
    Run.guarded_and.2 ⟨Run.guarded_of_forall hcalls, hfits⟩
  have hinit : ({} : FedConsole).Follows stream := ⟨Nat.le_refl _, Nat.le_refl _, Slice.at_nil⟩
  refine (Run.invariant (fun s : FedConsole => s.console.Holds agent generation stream ∧
    s.UpToDate ∧ s.Follows stream) ?_ hguard ⟨AgentsConsole.holds_init, ⟨rfl, rfl⟩, hinit⟩).2.2
  intro call s hcall hs
  exact ⟨(call.perform_holds hcall.1 hs.1).1, ⟨rfl, rfl⟩,
    FedConsole.step_follows hcall.1 hs.1 hs.2.1 hcall.2 hs.2.2⟩

/-- Whatever is selected, cleared, backfilled and pushed of one generation, in any order: the
console shows a part of the stream, and joins no text to it that does not touch it. The
terminal is given the stream without a break, as long as no piece that is longer than the
console may show starts the stream over. -/
theorem console_shows_stream (hcalls : ∀ call ∈ calls, call.Of stream) :
    (Run.after (FedConsole.step agent generation) calls {}).ShowsStream agent generation stream ∧
      (Run.Guarded (FedConsole.step agent generation) ConsoleCall.Fits calls {} →
        (Run.after (FedConsole.step agent generation) calls {}).TerminalFollows stream) := by
  obtain ⟨hholds, -⟩ := @holds_run agent generation stream calls hcalls
  refine ⟨⟨?_, hholds.length_le, ?_, ?_⟩, fun hfits => ?_⟩
  · exact hholds.at_transcript.eq_drop_take
  · intro offset text hat htext hshown hapart
    exact hholds.appendChunk_apart hshown htext hat hapart
  · intro offset text _ htext hshown hapart
    exact hholds.setTranscriptTail_apart hshown htext hapart
  · have hfollows := @follows_run agent generation stream calls hcalls hfits
    revert hholds hfollows
    generalize Run.after (FedConsole.step agent generation) calls {} = s
    intro hholds hfollows
    have hstarts := hfollows.starts
    have hslice := hfollows.part.eq_drop_take
    rw [Nat.sub_add_cancel hstarts] at hslice
    exact ⟨hholds.shownEnd_le_length, s.console.shownEnd - s.term.written.length, Nat.sub_le _ _,
      hslice⟩

instance (stream : Output) : (call : ConsoleCall) → Decidable (call.Of stream)
  | .selectAgent _ => .isTrue trivial
  | .clearSelectedTranscript => .isTrue trivial
  | .setTranscriptTail offset tail => inferInstanceAs (Decidable (Slice.At stream offset tail))
  | .appendChunk offset chunk =>
    inferInstanceAs (Decidable (Slice.At stream offset chunk ∧ chunk ≠ []))

/-- A backfill, the piece that follows it, one that overlaps it, and one that comes late. -/
def overlappingCalls : List ConsoleCall :=
  [.selectAgent (some "a"), .setTranscriptTail 2 (Pty.units "cd"), .appendChunk 4 (Pty.units "ef"),
    .appendChunk 1 (Pty.units "bcdefgh"), .appendChunk 3 (Pty.units "d")]

example : (Run.after (FedConsole.step "a" 1) overlappingCalls {}).term.written =
    Pty.units "cdefgh" := by
  decide +kernel

theorem console_shows_overlaps :
    (Run.after (FedConsole.step "a" 1) overlappingCalls {}).ShowsStream "a" 1 (Pty.units "abcdefgh") ∧
      (Run.Guarded (FedConsole.step "a" 1) ConsoleCall.Fits overlappingCalls {} →
        (Run.after (FedConsole.step "a" 1) overlappingCalls {}).TerminalFollows
          (Pty.units "abcdefgh")) :=
  console_shows_stream (by decide +kernel)

/-! ### A piece that is too long -/

variable {limit : ℕ}

/-- Output that enters the alternate screen after twenty units. -/
def lateScreen (limit : ℕ) : Output :=
  List.replicate 20 0 ++ ([0x9B, 0x3F, 0x34, 0x37, 0x68] ++ List.replicate limit 0)

theorem length_lateScreen : (lateScreen limit).length = limit + 25 := by
  simp [lateScreen]

/-- The first boundary is where the screen is entered. -/
theorem boundary_ge {n i : ℕ} {boundary : Pty.TranscriptReplayBoundary}
    (h : Pty.boundaryAt ((lateScreen limit).take n) .altScreenEnter i = some boundary) : 20 ≤ i := by
  by_contra hlt
  obtain ⟨alternative, hfind, -⟩ := Option.map_eq_some_iff.1 h
  have hfront : alternative <+: ((lateScreen limit).take n).drop i := by
    simpa using List.find?_some hfind
  have hhead : ∀ alternative ∈ Pty.TranscriptReplayBoundaryKind.altScreenEnter.pattern,
      alternative[0]? ≠ some 0 ∧ alternative[0]? ≠ none := by decide
  obtain ⟨hzero, hsome⟩ := hhead alternative (List.mem_of_find?_eq_some hfind)
  obtain ⟨rest, hrest⟩ := hfront
  obtain ⟨c, hc⟩ := Option.ne_none_iff_exists'.1 hsome
  have hat : (((lateScreen limit).take n).drop i)[0]? = some c := by
    rw [← hrest, List.getElem?_append_left (List.getElem?_eq_some_iff.1 hc).1]
    exact hc
  rw [List.getElem?_drop, List.getElem?_take] at hat
  split at hat
  · rw [Nat.add_zero, lateScreen, List.getElem?_append_left (by simp; omega),
      List.getElem?_replicate, if_pos (by omega)] at hat
    exact hzero (hc.trans hat.symm)
  · cases hat

theorem lastBoundary_lateScreen {n : ℕ} (hn : 25 ≤ n) :
    ∃ i, Pty.lastBoundaryAtOrAfter ((lateScreen limit).take n) .altScreenEnter 5 = some i ∧
      20 ≤ i := by
  have hlength : 25 ≤ ((lateScreen limit).take n).length := by
    rw [List.length_take, length_lateScreen]
    omega
  have henter : Pty.boundaryAt ((lateScreen limit).take n) .altScreenEnter 20 =
      some ⟨.altScreenEnter, 20, 25⟩ := by
    have hdrop : ((lateScreen limit).take n).drop 20 =
        [0x9B, 0x3F, 0x34, 0x37, 0x68] ++ (List.replicate limit (0 : UInt16)).take (n - 25) := by
      have htwenty : ((List.replicate 20 0 : Output)).length = 20 := rfl
      rw [lateScreen, List.take_append, List.take_of_length_le (by rw [htwenty]; omega),
        List.drop_left' htwenty, htwenty, List.take_append, List.take_of_length_le (by simp; omega)]
      congr 2
    rw [Pty.boundaryAt, hdrop]
    rfl
  have hmem : (⟨.altScreenEnter, 20, 25⟩ : Pty.TranscriptReplayBoundary) ∈
      ((List.range ((lateScreen limit).take n).length).filterMap
        (Pty.boundaryAt ((lateScreen limit).take n) .altScreenEnter)).filter
          fun boundary => 5 ≤ boundary.index := by
    rw [List.mem_filter]
    exact ⟨List.mem_filterMap.2 ⟨20, List.mem_range.2 (by omega), henter⟩, by decide⟩
  have hne := List.ne_nil_of_mem hmem
  refine ⟨_, by rw [Pty.lastBoundaryAtOrAfter, List.getLast?_eq_some_getLast hne]; rfl, ?_⟩
  have hlast := List.mem_of_mem_filter (List.getLast_mem hne)
  obtain ⟨i, -, hi⟩ := List.mem_filterMap.1 hlast
  have hge := boundary_ge hi
  obtain ⟨alternative, -, heq⟩ := Option.map_eq_some_iff.1 hi
  rw [← heq]
  exact hge

/-- What is shown of a piece that is too long starts where the screen is entered. -/
theorem dropped_lateScreen (hlimit : 20 ≤ limit) :
    20 ≤ (Pty.retainTranscriptTail ((lateScreen limit).take (limit + 5)) limit limit).dropped := by
  have hlength : ((lateScreen limit).take (limit + 5)).length = limit + 5 := by
    rw [List.length_take, length_lateScreen]
    omega
  obtain ⟨i, hi, hge⟩ := @lastBoundary_lateScreen limit (limit + 5) (by omega)
  rw [Pty.retainTranscriptTail, if_neg (by omega)]
  dsimp only
  rw [hlength, Nat.max_self, Nat.add_sub_cancel_left, hi]
  exact hge

theorem getElem?_slice {text : Output} {start stop i : ℕ} (h : start + i < stop) :
    (slice text start stop)[i]? = text[start + i]? := by
  rw [slice, List.getElem?_drop, List.getElem?_take_of_lt h]

/-- Two texts of one length that end at different places of the stream differ where the screen is
entered. -/
theorem lateScreen_slices_ne {start : ℕ} (hstart : start ≤ 5) (hlimit : 20 ≤ limit) :
    slice (lateScreen limit) (start + 5) (limit + 10) ≠
      slice (lateScreen limit) start (limit + 5) := by
  intro heq
  have hunit := congrArg (fun text : Output => text[15 - start]?) heq
  rw [getElem?_slice (by omega), getElem?_slice (by omega),
    show start + 5 + (15 - start) = 20 by omega, show start + (15 - start) = 15 by omega,
    lateScreen, List.getElem?_append_right (by simp), List.getElem?_append_left (by simp)] at hunit
  simp at hunit

/-- A backfill, and a piece that starts the stream over. -/
def strayingCalls (backfill piece : Output) : List ConsoleCall :=
  [.selectAgent (some "a"), .setTranscriptTail 10 backfill, .appendChunk 0 piece]

section Straying

open AgentsConsole

variable {backfill piece : Output}

/-- The backfill fills the console. -/
theorem backfill_shown (hback : Slice.At stream 10 backfill) (hne : backfill ≠ [])
    (hfull : backfill.length = CONSOLE_TRANSCRIPT_MAX_CHARS) :
    ∃ s, s = Run.after (FedConsole.step "a" 1) [.selectAgent (some "a"),
        .setTranscriptTail 10 backfill] {} ∧
      s.console.Holds "a" 1 stream ∧ s.UpToDate ∧ s.Follows stream ∧
      s.lastAgentId = s.console.selectedAgentId ∧
      s.lastTranscriptGeneration = s.console.transcriptGeneration ∧
      s.console.transcript = backfill ∧ s.console.transcriptOffset = 10 := by
  have hfirst : ∀ call ∈ [ConsoleCall.selectAgent (some "a")], call.Of stream := by
    intro call hcall
    rw [List.mem_singleton.1 hcall]
    trivial
  have hof : ∀ call ∈ [ConsoleCall.selectAgent (some "a"), .setTranscriptTail 10 backfill],
      call.Of stream := by
    intro call hcall
    obtain rfl | hcall := List.mem_cons.1 hcall
    · trivial
    · rw [List.mem_singleton.1 hcall]
      exact hback
  obtain ⟨hselected, -⟩ := @holds_run "a" 1 _ _ hfirst
  obtain ⟨hentered, -⟩ := hselected.enterGeneration
  obtain ⟨htranscript, hoffset⟩ := (showsEndOf_of_blank hentered.consistent.accumulator
    hentered.within rfl hne).2 hfull.le
  obtain ⟨hholds, hlast⟩ := @holds_run "a" 1 _ _ hof
  exact ⟨_, rfl, hholds, hlast, follows_run hof ⟨trivial, trivial, trivial⟩, rfl, rfl, htranscript,
    hoffset⟩

/-- A piece that starts the stream over and is too long is shown from its last boundary on. -/
theorem appendChunk_startsOver {vm : AgentsConsole} (h : vm.Holds "a" 1 stream)
    (hshown : vm.transcript ≠ []) (hoffset : vm.transcriptOffset = 10) (hne : piece ≠ []) :
    (vm.appendChunk ⟨"a", 1, 0, piece⟩).1.transcriptOffset =
        (Pty.retainTranscriptTail piece CONSOLE_TRANSCRIPT_MAX_CHARS
          CONSOLE_TRANSCRIPT_MAX_CHARS).dropped ∧
      (vm.appendChunk ⟨"a", 1, 0, piece⟩).1.shownEnd = piece.length ∧
      (vm.appendChunk ⟨"a", 1, 0, piece⟩).1.selectedAgentId = vm.selectedAgentId ∧
      (vm.appendChunk ⟨"a", 1, 0, piece⟩).1.transcriptGeneration = vm.transcriptGeneration := by
  obtain ⟨hselected, hentered⟩ := h.enterGeneration_shown hshown
  obtain ⟨-, hone, -⟩ := h.shown (h.segments_ne_nil hshown)
  have hgeneration : vm.transcriptGeneration = 1 := (h.current (h.segments_ne_nil hshown)).2
  have happend : (vm.appendChunk ⟨"a", 1, 0, piece⟩).1 =
      vm.clearSegments.applyTranscriptSegment 0 piece := by
    obtain ⟨hlt, -⟩ | happend := @appendChunk_current vm ⟨"a", 1, 0, piece⟩ hselected
      h.generation_le
    · have hlt : vm.transcriptGeneration < 1 := hlt
      omega
    · have hrange : vm.transcriptRange = some (10, 10 + vm.transcript.length) := by
        simp [transcriptRange, hone, hoffset, TranscriptSegment.stop]
      rw [happend]
      dsimp only
      rw [hentered, appendCurrent, if_neg hne, hrange]
      rfl
  have hwithin := within_clearSegments h.within
  have hends : (vm.clearSegments.applyTranscriptSegment 0 piece).ShowsEndOf 0 piece :=
    (showsEndOf_of_blank (consistent_clear h.consistent.accumulator) hwithin rfl hne).1
  obtain ⟨hselected', hgeneration', -⟩ :=
    applyTranscriptSegment_header vm.clearSegments 0 piece
  rw [happend]
  refine ⟨?_, ?_, hselected', hgeneration'⟩
  · obtain ⟨-, -, -, hdropped⟩ := TranscriptTailAccumulator.replace_same
      vm.clearSegments.transcriptAccumulator piece 0
    rw [hwithin.soft, hwithin.hard, Nat.zero_add] at hdropped
    rw [applyTranscriptSegment_of_blank rfl hne]
    exact hdropped
  · obtain ⟨dropped, hlt, htranscript, hstart⟩ := hends
    rw [shownEnd, hstart, htranscript, List.length_drop]
    omega

/-- When the start that is shown moves on and the end back, the terminal is left as it is. -/
theorem terminal_left {s : FedConsole} (h : s.console.Holds "a" 1 stream) (hlast : s.UpToDate)
    (hagent : s.lastAgentId = s.console.selectedAgentId)
    (hgeneration : s.lastTranscriptGeneration = s.console.transcriptGeneration)
    (hshown : s.console.transcript ≠ []) (hoffset : s.console.transcriptOffset = 10)
    (hpiece : Slice.At stream 0 piece) (hne : piece ≠ [])
    (hdropped : 10 < (Pty.retainTranscriptTail piece CONSOLE_TRANSCRIPT_MAX_CHARS
      CONSOLE_TRANSCRIPT_MAX_CHARS).dropped)
    (hend : piece.length < s.console.shownEnd) :
    (s.step "a" 1 (.appendChunk 0 piece)).term = s.term ∧
      (s.step "a" 1 (.appendChunk 0 piece)).console.shownEnd = piece.length := by
  obtain ⟨hstart, hstop, hselected, hcurrent⟩ := appendChunk_startsOver h hshown hoffset hne
  refine ⟨?_, hstop⟩
  obtain ⟨hholds, -⟩ := h.appendChunk hne hpiece
  have hnoop := decideByOffsets_noop hholds.at_transcript h.at_transcript (by omega)
    (hstop.trans_lt hend)
  have hfeed : (s.step "a" 1 (.appendChunk 0 piece)).term =
      applyTermFeed s.term (decideTermFeed
        ⟨(s.console.appendChunk ⟨"a", 1, 0, piece⟩).1.selectedAgentId, s.lastAgentId,
          (s.console.appendChunk ⟨"a", 1, 0, piece⟩).1.transcript,
          some (s.console.appendChunk ⟨"a", 1, 0, piece⟩).1.transcriptGeneration,
          some (s.console.appendChunk ⟨"a", 1, 0, piece⟩).1.transcriptOffset, s.lastTranscript,
          some s.lastTranscriptGeneration, some s.lastTranscriptOffset⟩) := rfl
  rw [hfeed, hselected, hcurrent, hagent, hgeneration, hlast.1, hlast.2, decideTermFeed_same,
    hnoop]
  rfl

end Straying

theorem lateScreen_strays (hlimit : limit = CONSOLE_TRANSCRIPT_MAX_CHARS) :
    (∀ call ∈ strayingCalls (((lateScreen limit).drop 10).take limit)
        ((lateScreen limit).take (limit + 5)), call.Of (lateScreen limit)) ∧
      ¬ (Run.after (FedConsole.step "a" 1)
        (strayingCalls (((lateScreen limit).drop 10).take limit)
          ((lateScreen limit).take (limit + 5))) {}).TerminalFollows (lateScreen limit) := by
  have hlarge : 20 ≤ limit := by
    rw [hlimit]
    decide
  have hback : Slice.At (lateScreen limit) 10 (((lateScreen limit).drop 10).take limit) :=
    Slice.at_drop.take _
  have hpiece : Slice.At (lateScreen limit) 0 ((lateScreen limit).take (limit + 5)) := by
    rw [Slice.At, List.drop_zero]
    exact List.take_prefix _ _
  have hfull : (((lateScreen limit).drop 10).take limit).length = limit := by
    rw [List.length_take, List.length_drop, length_lateScreen]
    omega
  have hlength : ((lateScreen limit).take (limit + 5)).length = limit + 5 := by
    rw [List.length_take, length_lateScreen]
    omega
  have hdropped := dropped_lateScreen hlarge
  have hne : ∀ {text : Output}, 20 ≤ text.length → text ≠ [] := by
    rintro _ h rfl
    cases h
  generalize ((lateScreen limit).drop 10).take limit = backfill at *
  generalize (lateScreen limit).take (limit + 5) = piece at *
  refine ⟨?_, ?_⟩
  · intro call hcall
    simp only [strayingCalls, List.mem_cons, List.not_mem_nil, or_false] at hcall
    obtain rfl | rfl | rfl := hcall
    · trivial
    · exact hback
    · exact ⟨hpiece, hne (by omega)⟩
  · obtain ⟨s, hs, hholds, hlast, hfollows, hagent, hgeneration, htranscript, hoffset⟩ :=
      backfill_shown hback (hne (by omega)) (hfull.trans hlimit)
    have hend : s.console.shownEnd = limit + 10 := by
      rw [AgentsConsole.shownEnd, htranscript, hoffset]
      omega
    obtain ⟨hterm, hend'⟩ := terminal_left hholds hlast hagent hgeneration
      (by rw [htranscript]; exact hne (by omega)) hoffset hpiece (hne (by omega))
      (by rw [← hlimit]; omega) (by omega)
    have hrun : Run.after (FedConsole.step "a" 1) (strayingCalls backfill piece) {} =
        s.step "a" 1 (.appendChunk 0 piece) := by
      rw [hs]
      rfl
    rw [hrun]
    rintro ⟨-, start, hstart, hwritten⟩
    rw [hterm, hend', hlength] at hwritten
    rw [hend', hlength] at hstart
    have hshorter := hfollows.shorter
    have hstarts := hfollows.starts
    have hpart := hfollows.part.eq_drop_take
    rw [Nat.sub_add_cancel hstarts] at hpart
    rw [htranscript, hfull] at hshorter
    have hlengths := congrArg List.length hwritten
    rw [slice, List.length_drop, List.length_take, length_lateScreen] at hlengths
    have hfollowed : s.term.written = slice (lateScreen limit) (start + 5) (limit + 10) := by
      rw [htranscript, hoffset, hfull] at hpart hstarts
      rw [show start + 5 = 10 + limit - s.term.written.length by omega, Nat.add_comm limit 10]
      exact hpart
    exact lateScreen_slices_ne (by omega) hlarge (hfollowed.symm.trans hwritten)

/-- A piece that comes late is neither a gap nor shown, and a piece that starts the stream over
and is too long leaves the terminal ahead of the console. -/
theorem console_ignores_and_strays :
    (∃ s, s = Run.after (FedConsole.step "a" 1)
        [.selectAgent (some "a"), .setTranscriptTail 5 (Pty.units "fgh")] {} ∧
      Slice.At (Pty.units "abcdefgh") 5 (Pty.units "fgh") ∧
      Slice.At (Pty.units "abcdefgh") 1 (Pty.units "b") ∧
      ¬ s.console.Touches 1 (Pty.units "b") ∧
      (s.console.appendChunk ⟨"a", 1, 1, Pty.units "b"⟩).2 = .ignored ∧
      (s.console.appendChunk ⟨"a", 1, 1, Pty.units "b"⟩).1.transcript = Pty.units "fgh") ∧
    ∃ stream calls, (∀ call ∈ calls, ConsoleCall.Of stream call) ∧
      ¬ (Run.after (FedConsole.step "a" 1) calls {}).TerminalFollows stream :=
  ⟨⟨_, rfl, by decide +kernel⟩, _, _, lateScreen_strays rfl⟩

end Orchestration.Desktop
