import Orchestration.Desktop.AgentsConsole

/-!
# What the agents console shows

The console shows one part of a stream at a time. Backfills and pushes of that stream
only add to it, and the part reaches the end of whatever is put in last.
-/

namespace Orchestration.Desktop

open Pty (Output TranscriptTailAccumulator)

namespace AgentsConsole

variable {vm : AgentsConsole} {stream : Output}

/-- Nothing is shown as current, or one segment, which the accumulator holds. -/
structure Consistent (vm : AgentsConsole) : Prop where
  accumulator : vm.transcriptAccumulator.Consistent
  segments : vm.transcriptSegments = [] ∨
    vm.transcript ≠ [] ∧ vm.transcriptSegments = [⟨vm.transcriptOffset, vm.transcript⟩] ∧
      vm.transcriptAccumulator.tail = vm.transcript ∧
      vm.transcriptAccumulator.offset = vm.transcriptOffset

/-- Every segment is a part of `stream`. -/
def PartOf (vm : AgentsConsole) (stream : Output) : Prop :=
  ∀ segment ∈ vm.transcriptSegments, Slice.At stream segment.offset segment.text

/-- The end of what is shown. -/
def stop (vm : AgentsConsole) : ℕ := (vm.transcriptRange.map Prod.snd).getD 0

theorem consistent_init : ({} : AgentsConsole).Consistent := by
  refine ⟨⟨by decide, rfl, ?_⟩, .inl rfl⟩
  exact ⟨fun _ h => (by cases h), fun _ h => (by cases h)⟩

theorem consistent_clear {a : TranscriptTailAccumulator} (h : a.Consistent) :
    a.clear.Consistent :=
  ⟨h.softMaxChars_pos, rfl, fun _ hi => (by cases hi), fun _ hi => (by cases hi)⟩

theorem clearSegments_consistent (h : vm.transcriptAccumulator.Consistent) :
    vm.clearSegments.Consistent :=
  ⟨consistent_clear h, .inl rfl⟩

theorem partOf_of_segments_eq_nil (h : vm.transcriptSegments = []) : vm.PartOf stream := by
  intro segment hsegment
  rw [h] at hsegment
  cases hsegment

/-- The parts of the state that say whose transcript is shown. -/
def SameHeader (vm vm' : AgentsConsole) : Prop :=
  vm'.selectedAgentId = vm.selectedAgentId ∧
    vm'.transcriptGeneration = vm.transcriptGeneration ∧ vm'.live = vm.live

theorem SameHeader.refl : vm.SameHeader vm := ⟨rfl, rfl, rfl⟩

theorem SameHeader.trans {vm' vm'' : AgentsConsole} (h : vm.SameHeader vm')
    (h' : vm'.SameHeader vm'') : vm.SameHeader vm'' :=
  ⟨h'.1.trans h.1, h'.2.1.trans h.2.1, h'.2.2.trans h.2.2⟩

theorem applyAccumulatorSnapshot_consistent {a : TranscriptTailAccumulator} (h : a.Consistent) :
    (vm.applyAccumulatorSnapshot a).Consistent := by
  refine ⟨h, ?_⟩
  unfold applyAccumulatorSnapshot
  dsimp only
  by_cases htail : a.tail = []
  · exact .inl (if_pos htail)
  · exact .inr ⟨htail, if_neg htail, rfl, rfl⟩

/-- The end of a part of the stream is shown. -/
theorem applyAccumulatorSnapshot_partOf (vm : AgentsConsole) {a : TranscriptTailAccumulator}
    {text : Output} {offset : ℕ} (ha : a.Retains text offset) (htext : text ≠ [])
    (hpart : Slice.At stream offset text) :
    (vm.applyAccumulatorSnapshot a).PartOf stream ∧
      (vm.applyAccumulatorSnapshot a).transcriptSegments ≠ [] ∧
      (vm.applyAccumulatorSnapshot a).stop = offset + text.length := by
  obtain ⟨dropped, htail, hoffset, hlt, -⟩ := ha
  have hlt := hlt htext
  have hne : a.tail ≠ [] := by
    rw [htail]
    intro hnil
    have := List.drop_eq_nil_iff.1 hnil
    omega
  have hsegments : (vm.applyAccumulatorSnapshot a).transcriptSegments = [⟨a.offset, a.tail⟩] :=
    if_neg hne
  refine ⟨?_, ?_, ?_⟩
  · intro segment hsegment
    rw [hsegments] at hsegment
    rw [List.mem_singleton.1 hsegment]
    show Slice.At stream a.offset a.tail
    rw [hoffset, htail]
    exact hpart.drop dropped
  · rw [hsegments]
    exact List.cons_ne_nil _ _
  · unfold stop transcriptRange
    rw [hsegments]
    show a.offset + a.tail.length = offset + text.length
    rw [hoffset, htail, List.length_drop]
    omega

theorem applyAccumulatorSnapshot_header {a : TranscriptTailAccumulator} :
    vm.SameHeader (vm.applyAccumulatorSnapshot a) := ⟨rfl, rfl, rfl⟩

theorem applyTranscriptSegment_header (vm : AgentsConsole) (offset : ℕ) (text : Output) :
    vm.SameHeader (vm.applyTranscriptSegment offset text) := by
  unfold applyTranscriptSegment
  split
  · exact .refl
  · split
    · exact applyAccumulatorSnapshot_header
    · exact applyAccumulatorSnapshot_header

theorem applyTranscriptSegment_consistent {offset : ℕ} {text : Output}
    (h : vm.transcriptAccumulator.Consistent) (htext : text ≠ []) :
    (vm.applyTranscriptSegment offset text).Consistent := by
  unfold applyTranscriptSegment
  rw [if_neg htext]
  split
  · exact applyAccumulatorSnapshot_consistent
      (TranscriptTailAccumulator.append_spec h text).1
  · exact applyAccumulatorSnapshot_consistent
      (TranscriptTailAccumulator.replace_spec _ _ h.softMaxChars_pos).1

/-! ### Merging -/

theorem mergeSegments_singleton {offset : ℕ} {text : Output} (htext : text ≠ []) :
    newestContiguousSuffix (mergeSegments [⟨offset, text⟩]) = [⟨offset, text⟩] := by
  simp [mergeSegments, htext, mergeSegment, newestContiguousSuffix, contiguousSuffixFrom]

/-- Two segments join when they meet; otherwise the later one stays. -/
theorem mergeSegment_pair {a b : TranscriptSegment} :
    newestContiguousSuffix ([a, b].foldl mergeSegment []) =
      if b.offset ≤ a.stop then [⟨a.offset, a.text ++ b.text.drop (a.stop - b.offset)⟩]
      else [b] := by
  by_cases hmeet : b.offset ≤ a.stop
  · simp [mergeSegment, hmeet, newestContiguousSuffix, contiguousSuffixFrom]
  · have hne : a.stop ≠ b.offset := by omega
    simp [mergeSegment, hmeet, newestContiguousSuffix, contiguousSuffixFrom, hne]

/-- The joined text of two parts of the stream is a part, and reaches the end of both. -/
theorem mergeSegment_pair_partOf {a b : TranscriptSegment} (ha : Slice.At stream a.offset a.text)
    (hb : Slice.At stream b.offset b.text) (_hle : a.offset ≤ b.offset) (hane : a.text ≠ [])
    (hbne : b.text ≠ []) :
    ∃ segment : TranscriptSegment,
      newestContiguousSuffix ([a, b].foldl mergeSegment []) = [segment] ∧ segment.text ≠ [] ∧
        Slice.At stream segment.offset segment.text ∧ segment.stop = max a.stop b.stop := by
  rw [mergeSegment_pair]
  by_cases hmeet : b.offset ≤ a.stop
  · rw [if_pos hmeet]
    refine ⟨_, rfl, ?_, ha.join hb hmeet, ?_⟩
    · exact List.append_ne_nil_of_left_ne_nil hane _
    · show a.offset + (a.text ++ b.text.drop (a.stop - b.offset)).length = max a.stop b.stop
      rw [List.length_append, List.length_drop]
      unfold TranscriptSegment.stop at *
      omega
  · rw [if_neg hmeet]
    refine ⟨b, rfl, hbne, hb, ?_⟩
    unfold TranscriptSegment.stop at *
    omega

theorem stop_of_segments_eq {segment : TranscriptSegment}
    (h : vm.transcriptSegments = [segment]) : vm.stop = segment.stop := by
  unfold stop transcriptRange
  rw [h]
  rfl

/-- What is shown is merged with the text as its newer neighbour, or as its older one. -/
theorem mergeSegments_partOf {a b : TranscriptSegment} (ha : Slice.At stream a.offset a.text)
    (hb : Slice.At stream b.offset b.text) (hane : a.text ≠ []) (hbne : b.text ≠ []) :
    ∃ segment : TranscriptSegment,
      newestContiguousSuffix (mergeSegments [a, b]) = [segment] ∧ segment.text ≠ [] ∧
        Slice.At stream segment.offset segment.text ∧ segment.stop = max a.stop b.stop := by
  by_cases hle : a.offset ≤ b.offset
  · have hsorted : mergeSegments [a, b] = [a, b].foldl mergeSegment [] := by
      simp [mergeSegments, hane, hbne, hle]
    rw [hsorted]
    exact mergeSegment_pair_partOf ha hb hle hane hbne
  · have hsorted : mergeSegments [a, b] = [b, a].foldl mergeSegment [] := by
      simp [mergeSegments, hane, hbne, hle]
    rw [hsorted, max_comm]
    exact mergeSegment_pair_partOf hb ha (by omega) hbne hane

theorem applyTranscriptSegment_partOf {offset : ℕ} {text : Output} (h : vm.Consistent)
    (hpart : vm.PartOf stream) (htext : text ≠ []) (hat : Slice.At stream offset text) :
    (vm.applyTranscriptSegment offset text).PartOf stream ∧
      (vm.applyTranscriptSegment offset text).transcriptSegments ≠ [] ∧
      (vm.applyTranscriptSegment offset text).stop = max vm.stop (offset + text.length) := by
  unfold applyTranscriptSegment
  rw [if_neg htext]
  obtain hnone | ⟨hne, hone, htail, hoffset⟩ := h.segments
  · have hcontinues : vm.continues offset = false := by simp [continues, hnone]
    have hstop : vm.stop = 0 := by simp [stop, transcriptRange, hnone]
    rw [hcontinues, hnone, List.nil_append, mergeSegments_singleton htext, hstop, Nat.zero_max]
    obtain ⟨-, hretains⟩ := TranscriptTailAccumulator.replace_spec text offset
      h.accumulator.softMaxChars_pos
    have happlied := applyAccumulatorSnapshot_partOf vm hretains htext hat
    simpa using happlied
  · have hshown : Slice.At stream vm.transcriptOffset vm.transcript :=
      hpart ⟨vm.transcriptOffset, vm.transcript⟩ (by rw [hone]; exact List.mem_cons_self)
    have hstop : vm.stop = vm.transcriptOffset + vm.transcript.length := stop_of_segments_eq hone
    cases hcontinues : vm.continues offset with
    | true =>
      have hoffset' : offset = vm.transcriptOffset + vm.transcript.length := by
        simp only [continues, transcriptRange, hone, Bool.and_eq_true, decide_eq_true_eq]
          at hcontinues
        exact (Option.some.inj hcontinues.1.2).symm
      obtain ⟨-, hretains, -⟩ := TranscriptTailAccumulator.append_spec h.accumulator text
      rw [htail, hoffset] at hretains
      rw [hoffset'] at hat
      have happlied := applyAccumulatorSnapshot_partOf vm hretains
        (List.append_ne_nil_of_left_ne_nil hne _) (hshown.append hat)
      rw [List.length_append] at happlied
      refine ⟨happlied.1, happlied.2.1, ?_⟩
      rw [if_pos rfl, happlied.2.2, hstop]
      omega
    | false =>
      obtain ⟨segment, hmerged, hsegment, hpart', hstop'⟩ :=
        mergeSegments_partOf (a := ⟨vm.transcriptOffset, vm.transcript⟩) (b := ⟨offset, text⟩)
          hshown hat hne htext
      obtain ⟨-, hretains⟩ := TranscriptTailAccumulator.replace_spec segment.text segment.offset
        h.accumulator.softMaxChars_pos
      have happlied := applyAccumulatorSnapshot_partOf vm hretains hsegment hpart'
      rw [hone, List.singleton_append, hmerged]
      simp only [Bool.false_eq_true, if_false, List.flatMap_cons, List.flatMap_nil,
        List.append_nil, List.head?_cons, Option.map_some, Option.getD_some]
      refine ⟨happlied.1, happlied.2.1, ?_⟩
      rw [happlied.2.2, hstop]
      exact hstop'

/-! ### Chunks -/

/-- Two parts of one stream agree where they overlap. -/
theorem contradicts_eq_false {offset : ℕ} {text : Output} {segment : TranscriptSegment}
    (hsegment : Slice.At stream segment.offset segment.text) (hat : Slice.At stream offset text) :
    contradicts offset text segment = false := by
  unfold contradicts
  dsimp only
  cases hoverlaps : overlaps offset text segment with
  | false => rfl
  | true =>
    simp only [overlaps, TranscriptSegment.stop] at hoverlaps
    have hleft : Slice.At stream (max offset segment.offset)
        (slice segment.text (max offset segment.offset - segment.offset)
          (min (offset + text.length) segment.stop - segment.offset)) := by
      have hpart := (hsegment.take (min (offset + text.length) segment.stop -
        segment.offset)).drop (max offset segment.offset - segment.offset)
      rwa [show segment.offset + (max offset segment.offset - segment.offset) =
        max offset segment.offset by omega] at hpart
    have hright : Slice.At stream (max offset segment.offset)
        (slice text (max offset segment.offset - offset)
          (min (offset + text.length) segment.stop - offset)) := by
      have hpart := (hat.take (min (offset + text.length) segment.stop - offset)).drop
        (max offset segment.offset - offset)
      rwa [show offset + (max offset segment.offset - offset) =
        max offset segment.offset by omega] at hpart
    have hsame := hleft.unique hright (by
      simp only [slice, List.length_drop, List.length_take, TranscriptSegment.stop]
      omega)
    simp [hsame]

theorem resetPrefixForLiveChunk_eq_none {offset : ℕ} {text : Output} (h : vm.Consistent)
    (hpart : vm.PartOf stream) (hat : Slice.At stream offset text)
    (hstart : offset = 0 → vm.transcriptSegments = [] ∨ vm.transcriptOffset = 0) :
    vm.resetPrefixForLiveChunk offset text = none := by
  unfold resetPrefixForLiveChunk
  by_cases hnil : text = [] ∨ vm.transcriptSegments = []
  · rw [if_pos hnil]
  · rw [if_neg hnil]
    obtain ⟨htext, hsegments⟩ := not_or.1 hnil
    have hagree : vm.transcriptSegments.any (contradicts offset text) = false := by
      rw [List.any_eq_false]
      intro segment hsegment
      rw [contradicts_eq_false (hpart segment hsegment) hat]
      exact Bool.false_ne_true
    rw [hagree, if_neg Bool.false_ne_true, if_neg]
    intro hzero
    simp only [Bool.and_eq_true, Bool.not_eq_true', decide_eq_true_eq] at hzero
    obtain ⟨hoverlaps, rfl⟩ := hzero
    obtain hnone | ⟨hne, hone, -⟩ := h.segments
    · exact hsegments hnone
    · have hzero := (hstart rfl).resolve_left hsegments
      rw [hone, List.any_cons, List.any_nil, Bool.or_false] at hoverlaps
      have hshown := List.length_pos_iff.2 hne
      have hlength := List.length_pos_iff.2 htext
      simp only [overlaps, TranscriptSegment.stop, hzero, decide_eq_false_iff_not] at hoverlaps
      omega

theorem appendText_partOf {offset : ℕ} {text : Output} (h : vm.Consistent)
    (hpart : vm.PartOf stream) (htext : text ≠ []) (hat : Slice.At stream offset text)
    (hstart : offset = 0 → vm.transcriptSegments = [] ∨ vm.transcriptOffset = 0) :
    (vm.appendText offset text).PartOf stream ∧
      (vm.appendText offset text).transcriptSegments ≠ [] ∧
      (vm.appendText offset text).stop = max vm.stop (offset + text.length) := by
  unfold appendText
  rw [resetPrefixForLiveChunk_eq_none h hpart hat hstart]
  exact applyTranscriptSegment_partOf h hpart htext hat

theorem appendText_header {offset : ℕ} {text : Output} :
    vm.SameHeader (vm.appendText offset text) := by
  unfold appendText
  dsimp only
  split
  · exact applyTranscriptSegment_header _ _ _
  · exact SameHeader.trans ⟨rfl, rfl, rfl⟩ (applyTranscriptSegment_header _ _ _)

theorem appendText_consistent {offset : ℕ} {text : Output} (h : vm.Consistent)
    (htext : text ≠ []) : (vm.appendText offset text).Consistent := by
  unfold appendText
  dsimp only
  split
  · exact applyTranscriptSegment_consistent h.accumulator htext
  · rename_i kept _
    refine applyTranscriptSegment_consistent ?_ htext
    show (if kept = [] then vm.transcriptAccumulator.clear
      else vm.transcriptAccumulator.replace kept 0).Consistent
    split
    · exact consistent_clear h.accumulator
    · exact (TranscriptTailAccumulator.replace_spec _ _ h.accumulator.softMaxChars_pos).1

theorem appendCurrent_header (vm : AgentsConsole) (offset : ℕ) (text : Output) :
    vm.SameHeader (vm.appendCurrent offset text).1 := by
  unfold appendCurrent
  split
  · exact .refl
  · split
    · exact appendText_header
    · split
      · exact SameHeader.trans ⟨rfl, rfl, rfl⟩ (applyTranscriptSegment_header _ _ _)
      · split
        · split
          · exact .refl
          · split
            · exact .refl
            · exact appendText_header
        · split
          · exact .refl
          · exact appendText_header

theorem appendCurrent_consistent {offset : ℕ} {text : Output} (h : vm.Consistent) :
    (vm.appendCurrent offset text).1.Consistent := by
  unfold appendCurrent
  split
  · exact h
  · rename_i htext
    split
    · exact appendText_consistent h htext
    · rename_i start stop _
      split
      · exact applyTranscriptSegment_consistent (consistent_clear h.accumulator) htext
      · split
        · split
          · exact h
          · rename_i hafter
            split
            · exact h
            · refine appendText_consistent h ?_
              intro hnil
              have := List.drop_eq_nil_iff.1 hnil
              omega
        · split
          · exact h
          · exact appendText_consistent h htext

theorem range_of_segments_eq {start stop : ℕ} (h : vm.Consistent)
    (hrange : vm.transcriptRange = some (start, stop)) :
    vm.transcriptSegments ≠ [] ∧ vm.transcriptOffset = start ∧ vm.stop = stop := by
  have hstop : vm.stop = stop := by
    rw [AgentsConsole.stop, hrange]
    rfl
  obtain hnone | ⟨hne, hone, -⟩ := h.segments
  · simp [transcriptRange, hnone] at hrange
  · refine ⟨by simp [hone], ?_, hstop⟩
    simp only [transcriptRange, hone, List.head?_cons] at hrange
    exact congrArg Prod.fst (Option.some.inj hrange)

/-- The chunk is shown with what stands before it, or it is known, or something is missing. -/
theorem appendCurrent_partOf {offset : ℕ} {text : Output} (h : vm.Consistent)
    (hpart : vm.PartOf stream) (hat : Slice.At stream offset text) :
    (vm.appendCurrent offset text).1.PartOf stream ∧
      (text = [] → (vm.appendCurrent offset text).1 = vm) ∧
      (text ≠ [] → (vm.appendCurrent offset text).2 ≠ .gap →
        (vm.appendCurrent offset text).1.transcriptSegments ≠ [] ∧
          offset + text.length ≤ (vm.appendCurrent offset text).1.stop) := by
  unfold appendCurrent
  split
  · rename_i hnil
    exact ⟨hpart, fun _ => rfl, fun hne => absurd hnil hne⟩
  · rename_i htext
    split
    · rename_i hrange
      have hnone : vm.transcriptSegments = [] := by
        obtain hnone | ⟨-, hone, -⟩ := h.segments
        · exact hnone
        · simp [transcriptRange, hone] at hrange
      obtain ⟨happlied, hshown, hstop⟩ := appendText_partOf h hpart htext hat fun _ => .inl hnone
      refine ⟨happlied, fun hnil => absurd hnil htext, fun _ _ => ⟨hshown, ?_⟩⟩
      exact le_of_le_of_eq (Nat.le_max_right _ _) hstop.symm
    · rename_i start stop hrange
      obtain ⟨hsegments, hoffset, hend⟩ := range_of_segments_eq h hrange
      split
      · obtain ⟨happlied, hshown, hstop⟩ := applyTranscriptSegment_partOf
          (clearSegments_consistent h.accumulator) (partOf_of_segments_eq_nil rfl) htext hat
        refine ⟨happlied, fun hnil => absurd hnil htext, fun _ _ => ⟨hshown, ?_⟩⟩
        exact le_of_le_of_eq (Nat.le_max_right _ _) hstop.symm
      · split
        · split
          · refine ⟨hpart, fun hnil => absurd hnil htext, fun _ _ => ⟨hsegments, ?_⟩⟩
            show offset + text.length ≤ vm.stop
            omega
          · split
            · exact ⟨hpart, fun hnil => absurd hnil htext, fun _ hgap => absurd rfl hgap⟩
            · have hcut : Slice.At stream start (text.drop (start - offset)) := by
                have hdrop := hat.drop (start - offset)
                rwa [show offset + (start - offset) = start by omega] at hdrop
              have hne : text.drop (start - offset) ≠ [] := by
                intro hnil
                have := List.drop_eq_nil_iff.1 hnil
                omega
              obtain ⟨happlied, hshown, hstop⟩ :=
                appendText_partOf h hpart hne hcut fun hzero => by omega
              rw [List.length_drop] at hstop
              refine ⟨happlied, fun hnil => absurd hnil htext, fun _ _ => ⟨hshown, ?_⟩⟩
              show offset + text.length ≤ (vm.appendText start (text.drop (start - offset))).stop
              omega
        · split
          · exact ⟨hpart, fun hnil => absurd hnil htext, fun _ hgap => absurd rfl hgap⟩
          · obtain ⟨happlied, hshown, hstop⟩ :=
              appendText_partOf h hpart htext hat fun hzero => .inr (by omega)
            refine ⟨happlied, fun hnil => absurd hnil htext, fun _ _ => ⟨hshown, ?_⟩⟩
            exact le_of_le_of_eq (Nat.le_max_right _ _) hstop.symm

/-! ### Backfills and pushes -/

theorem enterGeneration_consistent {generation : ℕ} (h : vm.Consistent) :
    (vm.enterGeneration generation).Consistent := by
  unfold enterGeneration
  split
  · exact ⟨consistent_clear h.accumulator, .inl rfl⟩
  · exact h

theorem setTranscriptTail_consistent {tail : TranscriptTail} (h : vm.Consistent) :
    (vm.setTranscriptTail tail).Consistent := by
  unfold setTranscriptTail
  split
  · exact h
  · split
    · exact h
    · by_cases htext : tail.tail = []
      · rw [applyTranscriptSegment, if_pos htext]
        exact enterGeneration_consistent h
      · exact applyTranscriptSegment_consistent (enterGeneration_consistent h).accumulator htext

theorem appendChunk_consistent {push : OperatorIpcTranscript} (h : vm.Consistent) :
    (vm.appendChunk push).1.Consistent := by
  unfold appendChunk
  split
  · exact h
  · split
    · exact h
    · dsimp only
      split
      · exact enterGeneration_consistent h
      · exact appendCurrent_consistent (enterGeneration_consistent h)

theorem enterGeneration_partOf {generation : ℕ} (hle : vm.transcriptGeneration ≤ generation)
    (hpart : vm.transcriptGeneration = generation → vm.PartOf stream) :
    (vm.enterGeneration generation).PartOf stream := by
  unfold enterGeneration
  split
  · exact partOf_of_segments_eq_nil rfl
  · exact hpart (by omega)

theorem enterGeneration_generation {generation : ℕ} (hle : vm.transcriptGeneration ≤ generation) :
    (vm.enterGeneration generation).transcriptGeneration = generation := by
  unfold enterGeneration
  split
  · rfl
  · omega

theorem enterGeneration_header (vm : AgentsConsole) (generation : ℕ) :
    (vm.enterGeneration generation).selectedAgentId = vm.selectedAgentId ∧
      (vm.enterGeneration generation).live = vm.live := by
  unfold enterGeneration
  split <;> exact ⟨rfl, rfl⟩

theorem enterGeneration_self : vm.enterGeneration vm.transcriptGeneration = vm := by
  rw [enterGeneration, if_neg (Nat.lt_irrefl _)]

/-- Nothing beyond the stream is shown. -/
theorem stop_le_length (h : vm.Consistent) (hpart : vm.PartOf stream) :
    vm.stop ≤ stream.length := by
  obtain hnone | ⟨hne, hone, -⟩ := h.segments
  · simp [stop, transcriptRange, hnone]
  · rw [stop_of_segments_eq hone]
    exact (hpart _ (by rw [hone]; exact List.mem_cons_self)).le_length hne

/-- What is shown up to the end of the stream is the end of the stream. -/
theorem transcript_eq_drop (h : vm.Consistent) (hpart : vm.PartOf stream)
    (hshown : vm.transcriptSegments ≠ []) (hstop : vm.stop = stream.length) :
    vm.transcript ≠ [] ∧ vm.transcript = stream.drop vm.transcriptOffset := by
  obtain hnone | ⟨hne, hone, -⟩ := h.segments
  · exact absurd hnone hshown
  · refine ⟨hne, (hpart ⟨vm.transcriptOffset, vm.transcript⟩ ?_).eq_drop ?_⟩
    · rw [hone]
      exact List.mem_cons_self
    · rw [← hstop, stop_of_segments_eq hone]
      rfl

theorem setTranscriptTail_stale {tail : TranscriptTail}
    (h : tail.generation < vm.transcriptGeneration) : vm.setTranscriptTail tail = vm := by
  unfold setTranscriptTail
  split
  · rfl
  · rfl

theorem setTranscriptTail_header (vm : AgentsConsole) (tail : TranscriptTail) :
    (vm.setTranscriptTail tail).selectedAgentId = vm.selectedAgentId ∧
      (vm.setTranscriptTail tail).live = vm.live := by
  unfold setTranscriptTail
  split
  · exact ⟨rfl, rfl⟩
  · split
    · exact ⟨rfl, rfl⟩
    · obtain ⟨hselected, hlive⟩ := enterGeneration_header vm tail.generation
      have happlied := applyTranscriptSegment_header (vm.enterGeneration tail.generation)
        tail.offset tail.tail
      exact ⟨happlied.1.trans hselected, happlied.2.2.trans hlive⟩

/-- A backfill of the agent that is shown, of its generation or a newer one. -/
theorem setTranscriptTail_current {tail : TranscriptTail}
    (hagent : vm.selectedAgentId = some tail.agentId)
    (hle : vm.transcriptGeneration ≤ tail.generation) :
    vm.setTranscriptTail tail =
      (vm.enterGeneration tail.generation).applyTranscriptSegment tail.offset tail.tail := by
  rw [setTranscriptTail, hagent, if_neg (by simp), if_neg (by omega)]

theorem setTranscriptTail_generation {tail : TranscriptTail}
    (hagent : vm.selectedAgentId = some tail.agentId)
    (hle : vm.transcriptGeneration ≤ tail.generation) :
    (vm.setTranscriptTail tail).transcriptGeneration = tail.generation := by
  rw [setTranscriptTail_current hagent hle]
  exact (applyTranscriptSegment_header _ _ _).2.1.trans (enterGeneration_generation hle)

theorem setTranscriptTail_partOf {tail : TranscriptTail} (h : vm.Consistent)
    (hagent : vm.selectedAgentId = some tail.agentId)
    (hle : vm.transcriptGeneration ≤ tail.generation)
    (hpart : vm.transcriptGeneration = tail.generation → vm.PartOf stream)
    (hat : Slice.At stream tail.offset tail.tail) :
    (vm.setTranscriptTail tail).PartOf stream ∧
      (tail.tail ≠ [] → (vm.setTranscriptTail tail).transcriptSegments ≠ [] ∧
        tail.offset + tail.tail.length ≤ (vm.setTranscriptTail tail).stop) ∧
      (vm.transcriptGeneration = tail.generation → vm.transcriptSegments ≠ [] →
        (vm.setTranscriptTail tail).transcriptSegments ≠ [] ∧
          vm.stop ≤ (vm.setTranscriptTail tail).stop) := by
  rw [setTranscriptTail_current hagent hle]
  have hentered := enterGeneration_partOf hle hpart
  by_cases htail : tail.tail = []
  · rw [applyTranscriptSegment, if_pos htail]
    refine ⟨hentered, fun hne => absurd htail hne, fun heq hshown => ?_⟩
    rw [← heq, enterGeneration_self]
    exact ⟨hshown, Nat.le_refl _⟩
  · obtain ⟨happlied, hshown, hstop⟩ := applyTranscriptSegment_partOf
      (enterGeneration_consistent h) hentered htail hat
    refine ⟨happlied, fun _ => ⟨hshown, ?_⟩, fun heq _ => ⟨hshown, ?_⟩⟩
    · rw [hstop]
      exact Nat.le_max_right _ _
    · rw [hstop, ← heq, enterGeneration_self]
      exact Nat.le_max_left _ _

/-- A push of an older generation is ignored. -/
theorem appendChunk_stale {push : OperatorIpcTranscript}
    (h : push.generation < vm.transcriptGeneration) : vm.appendChunk push = (vm, .ignored) := by
  unfold appendChunk
  split
  · rfl
  · rfl

theorem appendChunk_header (vm : AgentsConsole) (push : OperatorIpcTranscript) :
    (vm.appendChunk push).1.selectedAgentId = vm.selectedAgentId ∧
      (vm.appendChunk push).1.live = vm.live := by
  unfold appendChunk
  split
  · exact ⟨rfl, rfl⟩
  · split
    · exact ⟨rfl, rfl⟩
    · obtain ⟨hselected, hlive⟩ := enterGeneration_header vm push.generation
      dsimp only
      split
      · exact ⟨hselected, hlive⟩
      · have happended := appendCurrent_header (vm.enterGeneration push.generation) push.offset
          push.chunk
        exact ⟨happended.1.trans hselected, happended.2.2.trans hlive⟩

/-- What a push of the generation that is shown, or of a newer one, may do. -/
theorem appendChunk_current {push : OperatorIpcTranscript}
    (hagent : vm.selectedAgentId = some push.agentId)
    (hle : vm.transcriptGeneration ≤ push.generation) :
    vm.transcriptGeneration < push.generation ∧
        vm.appendChunk push = (vm.enterGeneration push.generation, .gap) ∨
      vm.appendChunk push =
        (vm.enterGeneration push.generation).appendCurrent push.offset push.chunk := by
  unfold appendChunk
  rw [hagent, if_neg (by simp), if_neg (by omega)]
  dsimp only
  split
  · rename_i hgap
    exact .inl ⟨hgap.1, rfl⟩
  · exact .inr rfl

theorem appendChunk_generation {push : OperatorIpcTranscript}
    (hagent : vm.selectedAgentId = some push.agentId)
    (hle : vm.transcriptGeneration ≤ push.generation) :
    (vm.appendChunk push).1.transcriptGeneration = push.generation := by
  obtain ⟨-, hgap⟩ | happend := appendChunk_current hagent hle
  · rw [hgap]
    exact enterGeneration_generation hle
  · rw [happend]
    exact (appendCurrent_header _ _ _).2.1.trans (enterGeneration_generation hle)

theorem appendChunk_partOf {push : OperatorIpcTranscript} (h : vm.Consistent)
    (hagent : vm.selectedAgentId = some push.agentId)
    (hle : vm.transcriptGeneration ≤ push.generation)
    (hpart : vm.transcriptGeneration = push.generation → vm.PartOf stream)
    (hat : Slice.At stream push.offset push.chunk) :
    (vm.appendChunk push).1.PartOf stream ∧
      (push.chunk = [] → vm.transcriptGeneration = push.generation →
        (vm.appendChunk push).1 = vm) ∧
      (push.chunk ≠ [] → (vm.appendChunk push).2 ≠ .gap →
        (vm.appendChunk push).1.transcriptSegments ≠ [] ∧
          push.offset + push.chunk.length ≤ (vm.appendChunk push).1.stop) := by
  have hentered := enterGeneration_partOf hle hpart
  obtain ⟨hlt, hgap⟩ | happend := appendChunk_current hagent hle
  · rw [hgap]
    exact ⟨hentered, fun _ heq => absurd heq (Nat.ne_of_lt hlt), fun _ hne => absurd rfl hne⟩
  · rw [happend]
    obtain ⟨happended, hnil, hshown⟩ := appendCurrent_partOf (enterGeneration_consistent h)
      hentered hat
    refine ⟨happended, fun hempty heq => ?_, hshown⟩
    rw [hnil hempty, ← heq, enterGeneration_self]

/-! ### Messages in general -/

theorem setTranscriptTail_of_ne {tail : TranscriptTail}
    (h : vm.selectedAgentId ≠ some tail.agentId) : vm.setTranscriptTail tail = vm := by
  rw [setTranscriptTail, if_pos fun heq => h heq.symm]

theorem appendChunk_of_ne {push : OperatorIpcTranscript}
    (h : vm.selectedAgentId ≠ some push.agentId) : vm.appendChunk push = (vm, .ignored) := by
  rw [appendChunk, if_pos fun heq => h heq.symm]

/-- A message leaves the generation, or brings its own, if it is of the agent that is shown. -/
theorem setTranscriptTail_generation_le {tail : TranscriptTail} {generation : ℕ}
    (h : vm.transcriptGeneration ≤ generation) (htail : tail.generation ≤ generation) :
    (vm.setTranscriptTail tail).transcriptGeneration ≤ generation := by
  by_cases hagent : vm.selectedAgentId = some tail.agentId
  · by_cases hle : vm.transcriptGeneration ≤ tail.generation
    · rw [setTranscriptTail_generation hagent hle]
      exact htail
    · rw [setTranscriptTail_stale (by omega)]
      exact h
  · rw [setTranscriptTail_of_ne hagent]
    exact h

theorem appendChunk_generation_le {push : OperatorIpcTranscript} {generation : ℕ}
    (h : vm.transcriptGeneration ≤ generation) (hpush : push.generation ≤ generation) :
    (vm.appendChunk push).1.transcriptGeneration ≤ generation := by
  by_cases hagent : vm.selectedAgentId = some push.agentId
  · by_cases hle : vm.transcriptGeneration ≤ push.generation
    · rw [appendChunk_generation hagent hle]
      exact hpush
    · rw [appendChunk_stale (by omega)]
      exact h
  · rw [appendChunk_of_ne hagent]
    exact h

end AgentsConsole

end Orchestration.Desktop
