import Mathlib.Data.List.Sort
import Orchestration.Pty.TranscriptTail

/-!
# The transcript of the agents console

The console shows the terminal of one selected agent. It is put together from backfills
and from the chunks that the daemon pushes, by their generation and their offset.
-/

namespace Orchestration.Desktop

open Pty (Output TranscriptTailAccumulator)

def CONSOLE_TRANSCRIPT_MAX_CHARS : ℕ := 2 * Pty.TRANSCRIPT_TAIL_HARD_MAX_CHARS

/-- A backfill. -/
structure TranscriptTail where
  agentId : String
  generation : ℕ
  offset : ℕ
  tail : Output
deriving DecidableEq, Repr

/-- A push. -/
structure OperatorIpcTranscript where
  agentId : String
  generation : ℕ
  offset : ℕ
  chunk : Output
deriving DecidableEq, Repr

structure TranscriptSegment where
  offset : ℕ
  text : Output
deriving DecidableEq, Repr

namespace TranscriptSegment

def stop (segment : TranscriptSegment) : ℕ := segment.offset + segment.text.length

end TranscriptSegment

inductive TranscriptApplyResult where
  | applied
  | ignored
  | gap
deriving DecidableEq, Repr

/-- The part of `AgentsConsoleVM` that the transcript depends on. -/
structure AgentsConsole where
  selectedAgentId : Option String := none
  transcript : Output := []
  transcriptGeneration : ℕ := 0
  transcriptOffset : ℕ := 0
  /-- `connection` is `'live'`. -/
  live : Bool := false
  transcriptSegments : List TranscriptSegment := []
  transcriptAccumulator : TranscriptTailAccumulator :=
    { softMaxChars := CONSOLE_TRANSCRIPT_MAX_CHARS, hardMaxChars := CONSOLE_TRANSCRIPT_MAX_CHARS }
deriving DecidableEq, Repr

/-- `text.slice(start, stop)`. -/
def slice (text : Output) (start stop : ℕ) : Output := (text.take stop).drop start

namespace AgentsConsole

def transcriptRange (vm : AgentsConsole) : Option (ℕ × ℕ) :=
  match vm.transcriptSegments.head?, vm.transcriptSegments.getLast? with
  | some first, some last => some (first.offset, last.stop)
  | _, _ => none

def clearSegments (vm : AgentsConsole) : AgentsConsole :=
  { vm with
    transcriptSegments := []
    transcriptAccumulator := vm.transcriptAccumulator.clear }

/-! ## Overlaps with what is shown -/

/-- `contiguousPrefixBefore`, from a segment on. -/
def contiguousPrefixFrom (offset : ℕ) : List TranscriptSegment → ℕ → Output → Output
  | [], _, _ => []
  | segment :: segments, cursor, kept =>
    if cursor < segment.offset then []
    else
      let startInSegment := cursor - segment.offset
      let endInSegment := min segment.text.length (offset - segment.offset)
      let longer := startInSegment < endInSegment
      let kept := if longer then kept ++ slice segment.text startInSegment endInSegment else kept
      let cursor := if longer then segment.offset + endInSegment else cursor
      if offset ≤ cursor then kept.take offset
      else contiguousPrefixFrom offset segments cursor kept

def contiguousPrefixBefore (vm : AgentsConsole) (offset : ℕ) : Output :=
  if offset = 0 then [] else contiguousPrefixFrom offset vm.transcriptSegments 0 []

def overlaps (offset : ℕ) (text : Output) (segment : TranscriptSegment) : Bool :=
  max offset segment.offset < min (offset + text.length) segment.stop

/-- The segment has other text than the chunk where the two overlap. -/
def contradicts (offset : ℕ) (text : Output) (segment : TranscriptSegment) : Bool :=
  let start := max offset segment.offset
  let stop := min (offset + text.length) segment.stop
  overlaps offset text segment &&
    slice segment.text (start - segment.offset) (stop - segment.offset) ≠
      slice text (start - offset) (stop - offset)

def resetPrefixForLiveChunk (vm : AgentsConsole) (offset : ℕ) (text : Output) : Option Output :=
  if text = [] ∨ vm.transcriptSegments = [] then none
  else if vm.transcriptSegments.any (contradicts offset text) then
    some (vm.contiguousPrefixBefore offset)
  else if !vm.transcriptSegments.any (overlaps offset text) && offset = 0 then some []
  else none

/-! ## Applying a segment -/

def mergeSegment (merged : List TranscriptSegment) (segment : TranscriptSegment) :
    List TranscriptSegment :=
  match merged.getLast? with
  | none => [segment]
  | some last =>
    if segment.offset ≤ last.stop then
      let text := last.text ++ segment.text.drop (last.stop - segment.offset)
      merged.dropLast ++ [{ last with text := text }]
    else merged ++ [segment]

def mergeSegments (segments : List TranscriptSegment) : List TranscriptSegment :=
  ((segments.filter fun segment => segment.text ≠ []).insertionSort
    fun a b => a.offset ≤ b.offset).foldl mergeSegment []

/-- `newestContiguousSuffix`, over the segments from the last to the first. -/
def contiguousSuffixFrom : List TranscriptSegment → List TranscriptSegment → List TranscriptSegment
  | suffix, [] => suffix
  | [], last :: earlier => contiguousSuffixFrom [last] earlier
  | first :: suffix, segment :: earlier =>
    if segment.stop = first.offset then
      contiguousSuffixFrom (segment :: first :: suffix) earlier
    else first :: suffix

def newestContiguousSuffix (segments : List TranscriptSegment) : List TranscriptSegment :=
  contiguousSuffixFrom [] segments.reverse

def applyAccumulatorSnapshot (vm : AgentsConsole) (accumulator : TranscriptTailAccumulator) :
    AgentsConsole :=
  { vm with
    transcriptAccumulator := accumulator
    transcriptSegments :=
      if accumulator.tail = [] then [] else [⟨accumulator.offset, accumulator.tail⟩]
    transcript := accumulator.tail
    transcriptOffset := accumulator.offset }

/-- The segments are one, which the text continues. -/
def continues (vm : AgentsConsole) (offset : ℕ) : Bool :=
  vm.transcriptSegments.length = 1 && vm.transcriptRange.map Prod.snd = some offset &&
    vm.transcriptAccumulator.nextOffset = offset

def applyTranscriptSegment (vm : AgentsConsole) (offset : ℕ) (text : Output) : AgentsConsole :=
  if text = [] then vm
  else if vm.continues offset then
    vm.applyAccumulatorSnapshot (vm.transcriptAccumulator.append text)
  else
    let contiguous := newestContiguousSuffix
      (mergeSegments (vm.transcriptSegments ++ [⟨offset, text⟩]))
    let start := (contiguous.head?.map TranscriptSegment.offset).getD offset
    vm.applyAccumulatorSnapshot
      (vm.transcriptAccumulator.replace (contiguous.flatMap TranscriptSegment.text) start)

/-! ## The view-model's methods -/

def selectAgent (vm : AgentsConsole) (agentId : Option String) : AgentsConsole :=
  clearSegments { vm with
    selectedAgentId := agentId
    transcript := []
    transcriptGeneration := if vm.selectedAgentId = agentId then vm.transcriptGeneration else 0
    transcriptOffset := 0 }

def clearSelectedTranscript (vm : AgentsConsole) : AgentsConsole :=
  if vm.selectedAgentId = none then vm
  else clearSegments { vm with transcript := [], transcriptOffset := 0 }

/-- The text of a newer generation takes the place of what is shown. -/
def enterGeneration (vm : AgentsConsole) (generation : ℕ) : AgentsConsole :=
  if vm.transcriptGeneration < generation then
    { vm.clearSegments with transcriptGeneration := generation }
  else vm

def setTranscriptTail (vm : AgentsConsole) (tail : TranscriptTail) : AgentsConsole :=
  if some tail.agentId ≠ vm.selectedAgentId then vm
  else if tail.generation < vm.transcriptGeneration then vm
  else (vm.enterGeneration tail.generation).applyTranscriptSegment tail.offset tail.tail

/-- `appendChunk` of text that follows what is shown, or overlaps it. -/
def appendText (vm : AgentsConsole) (offset : ℕ) (text : Output) : AgentsConsole :=
  let vm :=
    match vm.resetPrefixForLiveChunk offset text with
    | none => vm
    | some kept =>
      { vm with
        transcriptSegments := if kept = [] then [] else [⟨0, kept⟩]
        transcriptAccumulator :=
          if kept = [] then vm.transcriptAccumulator.clear
          else vm.transcriptAccumulator.replace kept 0 }
  vm.applyTranscriptSegment offset text

/-- `appendChunk` of the generation that is shown. -/
def appendCurrent (vm : AgentsConsole) (offset : ℕ) (text : Output) :
    AgentsConsole × TranscriptApplyResult :=
  if text = [] then (vm, .ignored)
  else
    match vm.transcriptRange with
    | none => (vm.appendText offset text, .applied)
    | some (start, stop) =>
      if offset = 0 ∧ 0 < start then
        (vm.clearSegments.applyTranscriptSegment offset text, .applied)
      else if offset < start then
        if offset + text.length ≤ stop then (vm, .ignored)
        else if stop < start then (vm, .gap)
        else (vm.appendText start (text.drop (start - offset)), .applied)
      else if stop < offset then (vm, .gap)
      else (vm.appendText offset text, .applied)

def appendChunk (vm : AgentsConsole) (push : OperatorIpcTranscript) :
    AgentsConsole × TranscriptApplyResult :=
  if some push.agentId ≠ vm.selectedAgentId then (vm, .ignored)
  else if push.generation < vm.transcriptGeneration then (vm, .ignored)
  else
    let entered := vm.enterGeneration push.generation
    if vm.transcriptGeneration < push.generation ∧ vm.transcriptSegments = [] ∧ 0 < push.offset then
      (entered, .gap)
    else entered.appendCurrent push.offset push.chunk

end AgentsConsole

end Orchestration.Desktop
