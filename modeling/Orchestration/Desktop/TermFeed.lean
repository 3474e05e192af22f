import Orchestration.Desktop.ShownTranscript

/-!
# Feeding the terminal

The renderer compares what is shown with what it fed to its terminal last. It writes the
new end where it can, and starts the terminal over where it cannot.
-/

namespace Orchestration.Desktop

open Pty (Output)

/-- A terminal, as the text that it was given since its last reset. -/
structure TermWriter where
  written : Output := []
deriving DecidableEq, Repr

namespace TermWriter

def write (term : TermWriter) (data : Output) : TermWriter := ⟨term.written ++ data⟩

def reset (_term : TermWriter) : TermWriter := ⟨[]⟩

end TermWriter

inductive TermFeed where
  | reset (data : Output)
  | append (data : Output)
  | noop
deriving DecidableEq, Repr

structure TermFeedInput where
  selectedAgentId : Option String
  lastAgentId : Option String
  transcript : Output
  transcriptGeneration : Option ℕ
  transcriptOffset : Option ℕ
  lastTranscript : Output
  lastTranscriptGeneration : Option ℕ
  lastTranscriptOffset : Option ℕ

def feedDelta (delta : Output) : TermFeed := if delta = [] then .noop else .append delta

/-- `decideTermFeed` of one agent and generation, by the offsets. -/
def decideByOffsets (transcriptOffset : ℕ) (transcript : Output) (lastTranscriptOffset : ℕ)
    (lastTranscript : Output) : TermFeed :=
  let transcriptEnd := transcriptOffset + transcript.length
  let lastTranscriptEnd := lastTranscriptOffset + lastTranscript.length
  if transcriptOffset < lastTranscriptOffset then .reset transcript
  else if lastTranscriptEnd < transcriptOffset then .reset transcript
  else if transcriptOffset = lastTranscriptOffset then
    if transcript.length < lastTranscript.length then .reset transcript
    else if !lastTranscript.isPrefixOf transcript then .reset transcript
    else feedDelta (transcript.drop lastTranscript.length)
  else if transcriptOffset = lastTranscriptEnd then feedDelta transcript
  else
    let overlapLength := min transcriptEnd lastTranscriptEnd - transcriptOffset
    let start := transcriptOffset - lastTranscriptOffset
    let existing := slice lastTranscript start (start + overlapLength)
    let incoming := transcript.take overlapLength
    if 0 < overlapLength ∧ existing ≠ incoming then .reset transcript
    else if transcriptEnd ≤ lastTranscriptEnd then
      if transcriptOffset = lastTranscriptOffset ∧ transcript.length < lastTranscript.length then
        .reset transcript
      else .noop
    else feedDelta (transcript.drop (lastTranscriptEnd - transcriptOffset))

def decideTermFeed (input : TermFeedInput) : TermFeed :=
  if input.selectedAgentId ≠ input.lastAgentId then .reset input.transcript
  else if input.transcriptGeneration.isSome && input.lastTranscriptGeneration.isSome &&
      input.transcriptGeneration ≠ input.lastTranscriptGeneration then
    .reset input.transcript
  else
    match input.transcriptOffset, input.lastTranscriptOffset with
    | some transcriptOffset, some lastTranscriptOffset =>
      decideByOffsets transcriptOffset input.transcript lastTranscriptOffset input.lastTranscript
    | _, _ =>
      if input.lastTranscript.isPrefixOf input.transcript then
        feedDelta (input.transcript.drop input.lastTranscript.length)
      else .reset input.transcript

def applyTermFeed (term : TermWriter) : TermFeed → TermWriter
  | .reset data => if data = [] then term.reset else term.reset.write data
  | .append data => if data = [] then term else term.write data
  | .noop => term

/-! ## What the terminal was given -/

/-- The terminal was given the part of `stream` that ends where the transcript does, and at
least the transcript. -/
structure Fed (stream : Output) (offset : ℕ) (transcript : Output) (term : TermWriter) : Prop where
  shorter : transcript.length ≤ term.written.length
  starts : term.written.length ≤ offset + transcript.length
  part : Slice.At stream (offset + transcript.length - term.written.length) term.written

variable {stream transcript lastTranscript : Output} {offset lastOffset : ℕ} {term : TermWriter}

theorem fed_reset (hat : Slice.At stream offset transcript) :
    Fed stream offset transcript (applyTermFeed term (.reset transcript)) := by
  have hwritten : (applyTermFeed term (.reset transcript)).written = transcript := by
    by_cases hnil : transcript = []
    · simp [applyTermFeed, TermWriter.reset, hnil]
    · simp [applyTermFeed, TermWriter.reset, TermWriter.write, hnil]
  refine ⟨?_, ?_, ?_⟩
  · rw [hwritten]
  · rw [hwritten]
    omega
  · rw [hwritten, Nat.add_sub_cancel]
    exact hat

theorem written_feedDelta (delta : Output) :
    (applyTermFeed term (feedDelta delta)).written = term.written ++ delta := by
  unfold feedDelta
  split
  · rename_i hnil
    simp [applyTermFeed, hnil]
  · rename_i hne
    simp [applyTermFeed, TermWriter.write, hne]

/-- What is shown lies further on than what was fed last, which it meets, and reaches as far. -/
theorem fed_delta (hat : Slice.At stream offset transcript)
    (hfed : Fed stream lastOffset lastTranscript term) (hle : lastOffset ≤ offset)
    (hmeet : offset ≤ lastOffset + lastTranscript.length)
    (hreach : lastOffset + lastTranscript.length ≤ offset + transcript.length) :
    Fed stream offset transcript (applyTermFeed term
      (feedDelta (transcript.drop (lastOffset + lastTranscript.length - offset)))) := by
  have hdelta : (transcript.drop (lastOffset + lastTranscript.length - offset)).length =
      offset + transcript.length - (lastOffset + lastTranscript.length) := by
    rw [List.length_drop]
    omega
  have hshorter := hfed.shorter
  have hstarts := hfed.starts
  refine ⟨?_, ?_, ?_⟩
  · rw [written_feedDelta, List.length_append, hdelta]
    omega
  · rw [written_feedDelta, List.length_append, hdelta]
    omega
  · rw [written_feedDelta, List.length_append, hdelta]
    have hstart : offset + transcript.length - (term.written.length +
        (offset + transcript.length - (lastOffset + lastTranscript.length))) =
          lastOffset + lastTranscript.length - term.written.length := by omega
    rw [hstart]
    apply hfed.part.append
    have hdrop := hat.drop (lastOffset + lastTranscript.length - offset)
    rwa [show offset + (lastOffset + lastTranscript.length - offset) =
      lastOffset + lastTranscript.length - term.written.length + term.written.length by omega]
      at hdrop

theorem fed_noop (hfed : Fed stream lastOffset lastTranscript term) (hle : lastOffset ≤ offset)
    (hend : offset + transcript.length = lastOffset + lastTranscript.length) :
    Fed stream offset transcript (applyTermFeed term .noop) := by
  have hshorter := hfed.shorter
  have hstarts := hfed.starts
  refine ⟨?_, ?_, ?_⟩
  · show transcript.length ≤ term.written.length
    omega
  · show term.written.length ≤ offset + transcript.length
    omega
  · show Slice.At stream (offset + transcript.length - term.written.length) term.written
    rw [hend]
    exact hfed.part

/-- Unless the transcript loses its end while its start moves on, the terminal follows it. -/
theorem decideByOffsets_fed (hat : Slice.At stream offset transcript)
    (hfed : Fed stream lastOffset lastTranscript term)
    (hend : lastOffset < offset → offset ≤ lastOffset + lastTranscript.length →
      lastOffset + lastTranscript.length ≤ offset + transcript.length) :
    Fed stream offset transcript
      (applyTermFeed term (decideByOffsets offset transcript lastOffset lastTranscript)) := by
  unfold decideByOffsets
  dsimp only
  split
  · exact fed_reset hat
  · rename_i hle
    split
    · exact fed_reset hat
    · rename_i hmeet
      split
      · rename_i heq
        split
        · exact fed_reset hat
        · rename_i hlength
          split
          · exact fed_reset hat
          · have hdelta := fed_delta hat hfed (by omega) (by omega) (by omega)
            rwa [show lastOffset + lastTranscript.length - offset = lastTranscript.length
              by omega] at hdelta
      · rename_i hne
        have hreach := hend (by omega) (by omega)
        split
        · have hdelta := fed_delta hat hfed (by omega) (by omega) hreach
          rwa [show lastOffset + lastTranscript.length - offset = 0 by omega, List.drop_zero]
            at hdelta
        · split
          · exact fed_reset hat
          · split
            · rw [if_neg fun h => hne h.1]
              exact fed_noop hfed (by omega) (by omega)
            · exact fed_delta hat hfed (by omega) (by omega) hreach

/-- A transcript that loses its end while its start moves on leaves the terminal ahead of it. -/
theorem decideByOffsets_noop (hat : Slice.At stream offset transcript)
    (hlast : Slice.At stream lastOffset lastTranscript) (hlt : lastOffset < offset)
    (hend : offset + transcript.length < lastOffset + lastTranscript.length) :
    decideByOffsets offset transcript lastOffset lastTranscript = .noop := by
  have hoverlap : min (offset + transcript.length) (lastOffset + lastTranscript.length) - offset =
      transcript.length := by omega
  have hexisting : slice lastTranscript (offset - lastOffset)
      (offset - lastOffset + transcript.length) = transcript.take transcript.length := by
    have hpart := (hlast.take (offset - lastOffset + transcript.length)).drop (offset - lastOffset)
    rw [show lastOffset + (offset - lastOffset) = offset by omega] at hpart
    rw [List.take_length]
    apply hpart.unique hat
    rw [List.length_drop, List.length_take]
    omega
  unfold decideByOffsets
  dsimp only
  rw [if_neg (by omega), if_neg (by omega), if_neg (by omega), if_neg (by omega), hoverlap,
    if_neg fun h => h.2 hexisting, if_pos (by omega), if_neg (by omega)]

/-- Of one agent and generation, the offsets decide. -/
theorem decideTermFeed_same {selected : Option String} {generation : ℕ} :
    decideTermFeed ⟨selected, selected, transcript, some generation, some offset, lastTranscript,
      some generation, some lastOffset⟩ =
        decideByOffsets offset transcript lastOffset lastTranscript := by
  simp [decideTermFeed]

/-- The renderer's call, which has all the offsets. -/
theorem decideTermFeed_fed {selected lastAgent : Option String} {generation lastGeneration : ℕ}
    (hat : Slice.At stream offset transcript) (hfed : Fed stream lastOffset lastTranscript term)
    (hend : selected = lastAgent → generation = lastGeneration → lastOffset < offset →
      offset ≤ lastOffset + lastTranscript.length →
      lastOffset + lastTranscript.length ≤ offset + transcript.length) :
    Fed stream offset transcript (applyTermFeed term (decideTermFeed
      ⟨selected, lastAgent, transcript, some generation, some offset, lastTranscript,
        some lastGeneration, some lastOffset⟩)) := by
  unfold decideTermFeed
  dsimp only
  split
  · exact fed_reset hat
  · rename_i hagent
    split
    · exact fed_reset hat
    · rename_i hgeneration
      refine decideByOffsets_fed hat hfed (hend (not_not.1 hagent) ?_)
      simpa using hgeneration

end Orchestration.Desktop
