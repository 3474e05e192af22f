import Orchestration.Library.Slice

/-!
# The retained tail of a terminal transcript

The engine and the desktop keep a bounded part of what a pane has written, and cut it
where a terminal can start to replay. Whatever they cut, they keep the end.
-/

namespace Orchestration.Pty

/-- Terminal output, in UTF-16 code units. -/
abbrev Output := List UInt16

def units (text : String) : Output := text.toList.map fun c => c.val.toUInt16

def TRANSCRIPT_TAIL_MAX_CHARS : ℕ := 64 * 1024
def TRANSCRIPT_TAIL_HARD_MAX_CHARS : ℕ := 4 * TRANSCRIPT_TAIL_MAX_CHARS
def TRANSCRIPT_REPLAY_BOUNDARY_SCAN_OVERLAP : ℕ := 16

/-! ## Replay boundaries -/

def CSI : List Output := [[0x1B, 0x5B], [0x9B]]

def ALT_SCREEN_ENTER : List Output :=
  CSI.flatMap fun csi => ["?1049h", "?1047h", "?47h"].map fun text => csi ++ units text

def FULL_SCREEN_CLEAR : List Output :=
  CSI.flatMap fun csi => ["2J", "3J"].map fun text => csi ++ units text

inductive TranscriptReplayBoundaryKind where
  | altScreenEnter
  | fullScreenClear
deriving DecidableEq, Repr

def TranscriptReplayBoundaryKind.pattern : TranscriptReplayBoundaryKind → List Output
  | .altScreenEnter => ALT_SCREEN_ENTER
  | .fullScreenClear => FULL_SCREEN_CLEAR

structure TranscriptReplayBoundary where
  kind : TranscriptReplayBoundaryKind
  index : ℕ
  stop : ℕ
deriving DecidableEq, Repr

/-- The boundary that starts at `index`. No two of them overlap, so a global search meets all. -/
def boundaryAt (buffer : Output) (kind : TranscriptReplayBoundaryKind) (index : ℕ) :
    Option TranscriptReplayBoundary :=
  (kind.pattern.find? fun alternative => alternative.isPrefixOf (buffer.drop index)).map
    fun alternative => ⟨kind, index, index + alternative.length⟩

def scanTranscriptReplayBoundaries (buffer : Output) : List TranscriptReplayBoundary :=
  (List.range buffer.length).flatMap fun index =>
    (boundaryAt buffer .altScreenEnter index).toList ++
      (boundaryAt buffer .fullScreenClear index).toList

def lastBoundaryAtOrAfter (buffer : Output) (kind : TranscriptReplayBoundaryKind)
    (minStart : ℕ) : Option ℕ :=
  (((List.range buffer.length).filterMap (boundaryAt buffer kind)).filter
    fun boundary => minStart ≤ boundary.index).getLast?.map TranscriptReplayBoundary.index

theorem pattern_pos (kind : TranscriptReplayBoundaryKind) :
    ∀ alternative ∈ kind.pattern, 0 < alternative.length := by
  cases kind <;> decide

theorem boundaryAt_stop {buffer : Output} {kind : TranscriptReplayBoundaryKind} {index : ℕ}
    {boundary : TranscriptReplayBoundary} (h : boundaryAt buffer kind index = some boundary) :
    boundary.index < boundary.stop ∧ boundary.stop ≤ buffer.length := by
  obtain ⟨alternative, hfind, rfl⟩ := Option.map_eq_some_iff.1 h
  have hmem := List.mem_of_find?_eq_some hfind
  have hfront : alternative <+: buffer.drop index := by simpa using List.find?_some hfind
  have hpos : 0 < alternative.length := pattern_pos kind alternative hmem
  have hle := List.IsPrefix.length_le hfront
  rw [List.length_drop] at hle
  exact ⟨by dsimp only; omega, by dsimp only; omega⟩

theorem lastBoundaryAtOrAfter_lt {buffer : Output} {kind : TranscriptReplayBoundaryKind}
    {minStart index : ℕ} (h : lastBoundaryAtOrAfter buffer kind minStart = some index) :
    index < buffer.length := by
  obtain ⟨boundary, hlast, rfl⟩ := Option.map_eq_some_iff.1 h
  have hmem := List.mem_of_getLast? hlast
  obtain ⟨i, -, hi⟩ := List.mem_filterMap.1 (List.mem_of_mem_filter hmem)
  have := boundaryAt_stop hi
  omega

theorem lastBoundaryAtOrAfter_ge {buffer : Output} {kind : TranscriptReplayBoundaryKind}
    {minStart index : ℕ} (h : lastBoundaryAtOrAfter buffer kind minStart = some index) :
    minStart ≤ index := by
  obtain ⟨boundary, hlast, rfl⟩ := Option.map_eq_some_iff.1 h
  have hmem := List.mem_of_getLast? hlast
  simpa using List.of_mem_filter hmem

theorem scan_stop {buffer : Output} {boundary : TranscriptReplayBoundary}
    (h : boundary ∈ scanTranscriptReplayBoundaries buffer) :
    boundary.index < boundary.stop ∧ boundary.stop ≤ buffer.length := by
  obtain ⟨i, -, hi⟩ := List.mem_flatMap.1 h
  obtain hi | hi := List.mem_append.1 hi
  · exact boundaryAt_stop (Option.mem_toList.1 hi)
  · exact boundaryAt_stop (Option.mem_toList.1 hi)

/-! ## Retention -/

structure RetainedTail where
  tail : Output
  dropped : ℕ
deriving DecidableEq, Repr

def retainTranscriptTail (buffer : Output) (softMaxChars hardMaxChars : ℕ) : RetainedTail :=
  let hardMaxChars := max softMaxChars hardMaxChars
  if buffer.length ≤ softMaxChars then ⟨buffer, 0⟩
  else
    let softStart := buffer.length - softMaxChars
    let hardStart := buffer.length - hardMaxChars
    match lastBoundaryAtOrAfter buffer .altScreenEnter hardStart with
    | some altEnter => ⟨buffer.drop altEnter, altEnter⟩
    | none =>
      let start := (lastBoundaryAtOrAfter buffer .fullScreenClear softStart).getD softStart
      ⟨buffer.drop start, start⟩

/-- What is retained is the end of the buffer, and not nothing. -/
theorem retainTranscriptTail_spec (buffer : Output) {softMaxChars : ℕ} (hardMaxChars : ℕ)
    (hsoft : 0 < softMaxChars) :
    (retainTranscriptTail buffer softMaxChars hardMaxChars).tail =
        buffer.drop (retainTranscriptTail buffer softMaxChars hardMaxChars).dropped ∧
      (buffer ≠ [] →
        (retainTranscriptTail buffer softMaxChars hardMaxChars).dropped < buffer.length) ∧
      (buffer = [] → (retainTranscriptTail buffer softMaxChars hardMaxChars).dropped = 0) := by
  unfold retainTranscriptTail
  dsimp only
  split
  · exact ⟨rfl, List.length_pos_iff.2, fun _ => rfl⟩
  · rename_i hlong
    split
    · rename_i altEnter halt
      have hlt := lastBoundaryAtOrAfter_lt halt
      exact ⟨rfl, fun _ => hlt, fun hnil => by simp [hnil] at hlt⟩
    · refine ⟨rfl, fun _ => ?_, fun hnil => by simp [hnil] at hlong⟩
      cases hclear : lastBoundaryAtOrAfter buffer .fullScreenClear
        (buffer.length - softMaxChars) with
      | none =>
        show buffer.length - softMaxChars < buffer.length
        omega
      | some clear => exact lastBoundaryAtOrAfter_lt hclear

/-- No more is retained than the larger limit. -/
theorem length_retainTranscriptTail_le (buffer : Output) (softMaxChars hardMaxChars : ℕ) :
    (retainTranscriptTail buffer softMaxChars hardMaxChars).tail.length ≤
      max softMaxChars hardMaxChars := by
  unfold retainTranscriptTail
  dsimp only
  split
  · dsimp only
    omega
  · split
    · rename_i altEnter halt
      have hge := lastBoundaryAtOrAfter_ge halt
      rw [List.length_drop]
      omega
    · rw [List.length_drop]
      cases hclear : lastBoundaryAtOrAfter buffer .fullScreenClear
        (buffer.length - softMaxChars) with
      | none =>
        rw [Option.getD_none]
        omega
      | some clear =>
        have hge := lastBoundaryAtOrAfter_ge hclear
        rw [Option.getD_some]
        omega

/-! ## The accumulator -/

structure TranscriptTailAccumulator where
  softMaxChars : ℕ := TRANSCRIPT_TAIL_MAX_CHARS
  hardMaxChars : ℕ := TRANSCRIPT_TAIL_HARD_MAX_CHARS
  tail : Output := []
  offset : ℕ := 0
  nextOffset : ℕ := 0
  boundaryCarry : Output := []
  lastAltEnterOffset : Option ℕ := none
  lastClearOffset : Option ℕ := none
deriving DecidableEq, Repr

namespace TranscriptTailAccumulator

/-- `clear()`. -/
def clear (a : TranscriptTailAccumulator) : TranscriptTailAccumulator :=
  { a with
    tail := []
    offset := 0
    nextOffset := 0
    boundaryCarry := []
    lastAltEnterOffset := none
    lastClearOffset := none }

/-- The last units of a text, which a boundary may have begun in. -/
def carry (text : Output) : Output :=
  text.drop (text.length - TRANSCRIPT_REPLAY_BOUNDARY_SCAN_OVERLAP)

def recordBoundary (a : TranscriptTailAccumulator) (kind : TranscriptReplayBoundaryKind)
    (absoluteIndex : ℕ) : TranscriptTailAccumulator :=
  match kind with
  | .altScreenEnter => { a with lastAltEnterOffset := some absoluteIndex }
  | .fullScreenClear => { a with lastClearOffset := some absoluteIndex }

/-- Remember the boundaries of the tail. -/
def rememberBoundaries (a : TranscriptTailAccumulator) : TranscriptTailAccumulator :=
  (scanTranscriptReplayBoundaries a.tail).foldl
    (fun remembering boundary =>
      remembering.recordBoundary boundary.kind (a.offset + boundary.index)) a

def replace (a : TranscriptTailAccumulator) (tail : Output) (offset : ℕ) :
    TranscriptTailAccumulator :=
  let retained := retainTranscriptTail tail a.softMaxChars a.hardMaxChars
  rememberBoundaries { a with
    tail := retained.tail
    offset := offset + retained.dropped
    nextOffset := offset + retained.dropped + retained.tail.length
    boundaryCarry := carry retained.tail
    lastAltEnterOffset := none
    lastClearOffset := none }

def recordBoundaries (a : TranscriptTailAccumulator) (chunk : Output) (chunkOffset : ℕ) :
    TranscriptTailAccumulator :=
  let scanned := a.boundaryCarry ++ chunk
  let recorded := ((scanTranscriptReplayBoundaries scanned).filter
      fun boundary => a.boundaryCarry.length < boundary.stop).foldl
    (fun recorded boundary => recorded.recordBoundary boundary.kind
      (chunkOffset + boundary.index - a.boundaryCarry.length)) a
  { recorded with boundaryCarry := carry scanned }

/-- Where `retain` starts a buffer that is too long. -/
def retainStart (a : TranscriptTailAccumulator) (bufferStartOffset bufferEndOffset : ℕ) : ℕ :=
  let softStart := bufferEndOffset - a.softMaxChars
  let hardStart := bufferEndOffset - max a.softMaxChars a.hardMaxChars
  match a.lastAltEnterOffset.filter fun i => hardStart ≤ i && bufferStartOffset ≤ i with
  | some altEnter => altEnter
  | none =>
    (a.lastClearOffset.filter fun i => softStart ≤ i && bufferStartOffset ≤ i).getD softStart

/-- `retain`, for a buffer that starts at the offset and stops at the next offset. -/
def retain (a : TranscriptTailAccumulator) (buffer : Output) : TranscriptTailAccumulator :=
  if buffer.length ≤ a.softMaxChars then { a with tail := buffer }
  else
    let start := a.retainStart a.offset a.nextOffset
    { a with tail := buffer.drop (start - a.offset), offset := start }

def append (a : TranscriptTailAccumulator) (chunk : Output) : TranscriptTailAccumulator :=
  if chunk = [] then a
  else
    let recorded := a.recordBoundaries chunk a.nextOffset
    retain { recorded with nextOffset := a.nextOffset + chunk.length } (a.tail ++ chunk)

/-! ## What the accumulator keeps -/

variable {a b : TranscriptTailAccumulator}

/-- The boundaries that are remembered lie before `limit`. -/
def BoundariesBelow (a : TranscriptTailAccumulator) (limit : ℕ) : Prop :=
  (∀ i ∈ a.lastAltEnterOffset, i < limit) ∧ ∀ i ∈ a.lastClearOffset, i < limit

/-- The two accumulators hold the same tail under the same bounds. -/
def SameTail (a b : TranscriptTailAccumulator) : Prop :=
  (b.softMaxChars = a.softMaxChars ∧ b.hardMaxChars = a.hardMaxChars) ∧
    b.tail = a.tail ∧ b.offset = a.offset ∧ b.nextOffset = a.nextOffset

/-- What holds of an accumulator between two calls. -/
structure Consistent (a : TranscriptTailAccumulator) : Prop where
  softMaxChars_pos : 0 < a.softMaxChars
  nextOffset_eq : a.nextOffset = a.offset + a.tail.length
  boundaries : a.BoundariesBelow a.nextOffset

theorem recordBoundary_spec {kind : TranscriptReplayBoundaryKind} {i limit : ℕ}
    (h : a.BoundariesBelow limit) (hi : i < limit) :
    a.SameTail (a.recordBoundary kind i) ∧ (a.recordBoundary kind i).BoundariesBelow limit := by
  cases kind with
  | altScreenEnter => exact ⟨⟨⟨rfl, rfl⟩, rfl, rfl, rfl⟩, by simpa [recordBoundary] using hi, h.2⟩
  | fullScreenClear => exact ⟨⟨⟨rfl, rfl⟩, rfl, rfl, rfl⟩, h.1, by simpa [recordBoundary] using hi⟩

theorem SameTail.trans {c : TranscriptTailAccumulator} (h : a.SameTail b) (h' : b.SameTail c) :
    a.SameTail c :=
  ⟨⟨h'.1.1.trans h.1.1, h'.1.2.trans h.1.2⟩, h'.2.1.trans h.2.1, h'.2.2.1.trans h.2.2.1,
    h'.2.2.2.trans h.2.2.2⟩

theorem foldl_recordBoundary (boundaries : List TranscriptReplayBoundary)
    (index : TranscriptReplayBoundary → ℕ) {limit : ℕ} (h : a.BoundariesBelow limit)
    (hindex : ∀ boundary ∈ boundaries, index boundary < limit) :
    a.SameTail (boundaries.foldl
        (fun a boundary => a.recordBoundary boundary.kind (index boundary)) a) ∧
      (boundaries.foldl (fun a boundary => a.recordBoundary boundary.kind (index boundary))
        a).BoundariesBelow limit := by
  induction boundaries generalizing a with
  | nil => exact ⟨⟨⟨rfl, rfl⟩, rfl, rfl, rfl⟩, h⟩
  | cons boundary boundaries ih =>
    have hone : a.SameTail (a.recordBoundary boundary.kind (index boundary)) ∧
        (a.recordBoundary boundary.kind (index boundary)).BoundariesBelow limit :=
      recordBoundary_spec h (hindex boundary List.mem_cons_self)
    obtain ⟨hsame, hbelow⟩ := ih hone.2 fun other hother =>
      hindex other (List.mem_cons_of_mem _ hother)
    exact ⟨hone.1.trans hsame, hbelow⟩

theorem rememberBoundaries_spec (hnext : a.nextOffset = a.offset + a.tail.length)
    (h : a.BoundariesBelow a.nextOffset) :
    a.SameTail a.rememberBoundaries ∧ a.rememberBoundaries.BoundariesBelow a.nextOffset := by
  refine foldl_recordBoundary _ (fun boundary => a.offset + boundary.index) h ?_
  intro boundary hboundary
  have := scan_stop hboundary
  omega

/-- `b` holds the end of `buffer`, which starts at `start`, and some of it if there is any. -/
def Retains (b : TranscriptTailAccumulator) (buffer : Output) (start : ℕ) : Prop :=
  ∃ dropped, b.tail = buffer.drop dropped ∧ b.offset = start + dropped ∧
    (buffer ≠ [] → dropped < buffer.length) ∧ (buffer = [] → dropped = 0)

theorem replace_spec (tail : Output) (offset : ℕ) (hsoft : 0 < a.softMaxChars) :
    (a.replace tail offset).Consistent ∧ (a.replace tail offset).Retains tail offset := by
  obtain ⟨htail, hdropped, hnil⟩ := retainTranscriptTail_spec tail a.hardMaxChars hsoft
  unfold replace
  dsimp only
  generalize hreplaced : ({ a with
    tail := (retainTranscriptTail tail a.softMaxChars a.hardMaxChars).tail
    offset := offset + (retainTranscriptTail tail a.softMaxChars a.hardMaxChars).dropped
    nextOffset := offset + (retainTranscriptTail tail a.softMaxChars a.hardMaxChars).dropped +
      (retainTranscriptTail tail a.softMaxChars a.hardMaxChars).tail.length
    boundaryCarry := carry (retainTranscriptTail tail a.softMaxChars a.hardMaxChars).tail
    lastAltEnterOffset := none
    lastClearOffset := none } : TranscriptTailAccumulator) = replaced
  have hnext : replaced.nextOffset = replaced.offset + replaced.tail.length := by
    rw [← hreplaced]
  have hbelow : replaced.BoundariesBelow replaced.nextOffset := by
    rw [← hreplaced]
    exact ⟨nofun, nofun⟩
  obtain ⟨⟨⟨hmax, -⟩, hsame, hoffset, hnextOffset⟩, hboundaries⟩ :=
    rememberBoundaries_spec hnext hbelow
  refine ⟨⟨?_, ?_, ?_⟩, (retainTranscriptTail tail a.softMaxChars a.hardMaxChars).dropped, ?_, ?_,
    hdropped, hnil⟩
  · rw [hmax, ← hreplaced]
    exact hsoft
  · rw [hnextOffset, hoffset, hsame]
    exact hnext
  · rw [hnextOffset]
    exact hboundaries
  · rw [hsame, ← hreplaced]
    exact htail
  · rw [hoffset, ← hreplaced]

/-- A boundary that is found in the carry and the chunk starts before the end of the chunk. -/
theorem recordBoundaries_spec {chunk : Output} (h : a.Consistent) (hchunk : chunk ≠ []) :
    a.SameTail (a.recordBoundaries chunk a.nextOffset) ∧
      (a.recordBoundaries chunk a.nextOffset).BoundariesBelow (a.nextOffset + chunk.length) := by
  have hpos := List.length_pos_iff.2 hchunk
  have hbelow : a.BoundariesBelow (a.nextOffset + chunk.length) :=
    ⟨fun i hi => Nat.lt_add_right _ (h.boundaries.1 i hi),
      fun i hi => Nat.lt_add_right _ (h.boundaries.2 i hi)⟩
  unfold recordBoundaries
  dsimp only
  obtain ⟨hsame, hrecorded⟩ := foldl_recordBoundary
    ((scanTranscriptReplayBoundaries (a.boundaryCarry ++ chunk)).filter
      fun boundary => a.boundaryCarry.length < boundary.stop)
    (fun boundary => a.nextOffset + boundary.index - a.boundaryCarry.length) hbelow (by
      intro boundary hboundary
      have hstop := scan_stop (List.mem_of_mem_filter hboundary)
      rw [List.length_append] at hstop
      omega)
  exact ⟨⟨hsame.1, hsame.2⟩, hrecorded⟩

theorem retainStart_spec {start stop : ℕ} (hsoft : 0 < a.softMaxChars)
    (hlong : start + a.softMaxChars < stop) (h : a.BoundariesBelow stop) :
    start ≤ a.retainStart start stop ∧ a.retainStart start stop < stop := by
  unfold retainStart
  dsimp only
  split
  · rename_i altEnter halt
    obtain ⟨hmem, hkept⟩ := Option.filter_eq_some_iff.1 halt
    have := h.1 altEnter hmem
    simp only [Bool.and_eq_true, decide_eq_true_eq] at hkept
    omega
  · cases hclear : a.lastClearOffset.filter fun i =>
      stop - a.softMaxChars ≤ i && start ≤ i with
    | none =>
      show start ≤ stop - a.softMaxChars ∧ stop - a.softMaxChars < stop
      omega
    | some clear =>
      obtain ⟨hmem, hkept⟩ := Option.filter_eq_some_iff.1 hclear
      have := h.2 clear hmem
      simp only [Bool.and_eq_true, decide_eq_true_eq] at hkept
      show start ≤ clear ∧ clear < stop
      omega

theorem retain_spec {buffer : Output} (hsoft : 0 < a.softMaxChars)
    (hnext : a.nextOffset = a.offset + buffer.length) (h : a.BoundariesBelow a.nextOffset) :
    (a.retain buffer).Consistent ∧ (a.retain buffer).Retains buffer a.offset ∧
      (a.retain buffer).nextOffset = a.nextOffset := by
  unfold retain
  dsimp only
  split
  · exact ⟨⟨hsoft, hnext, h⟩, ⟨0, rfl, rfl, List.length_pos_iff.2, fun _ => rfl⟩, rfl⟩
  · rename_i hlong
    obtain ⟨hstart, hlt⟩ : a.offset ≤ a.retainStart a.offset a.nextOffset ∧
        a.retainStart a.offset a.nextOffset < a.nextOffset :=
      retainStart_spec hsoft (by omega) h
    refine ⟨⟨hsoft, ?_, h⟩, ⟨a.retainStart a.offset a.nextOffset - a.offset, rfl, ?_, ?_, ?_⟩, rfl⟩
    · show a.nextOffset = a.retainStart a.offset a.nextOffset + (buffer.drop _).length
      rw [List.length_drop]
      omega
    · show a.retainStart a.offset a.nextOffset = a.offset + _
      omega
    · omega
    · intro hnil
      rw [hnil] at hlong
      simp at hlong

theorem append_spec (h : a.Consistent) (chunk : Output) :
    (a.append chunk).Consistent ∧ (a.append chunk).Retains (a.tail ++ chunk) a.offset ∧
      (a.append chunk).nextOffset = a.nextOffset + chunk.length := by
  unfold append
  split
  · rename_i hnil
    subst hnil
    rw [List.append_nil]
    exact ⟨h, ⟨0, rfl, rfl, List.length_pos_iff.2, fun _ => rfl⟩, rfl⟩
  · rename_i hchunk
    obtain ⟨⟨⟨hsoft, -⟩, htail, hoffset, -⟩, hbelow⟩ := recordBoundaries_spec h hchunk
    have hnext := h.nextOffset_eq
    dsimp only
    generalize hrecorded : ({ a.recordBoundaries chunk a.nextOffset with
      nextOffset := a.nextOffset + chunk.length } : TranscriptTailAccumulator) = recorded
    have hstart : recorded.offset = a.offset := by
      rw [← hrecorded]
      exact hoffset
    have hstop : recorded.nextOffset = a.nextOffset + chunk.length := by
      rw [← hrecorded]
    rw [← hstart, ← hstop]
    apply retain_spec
    · rw [← hrecorded]
      show 0 < (a.recordBoundaries chunk a.nextOffset).softMaxChars
      rw [hsoft]
      exact h.softMaxChars_pos
    · rw [hstop, hstart, hnext, List.length_append, Nat.add_assoc]
    · rw [hstop, ← hrecorded]
      exact hbelow

/-! ### How much it keeps -/

/-- The accumulator has the limits, and keeps no more than the larger one. -/
structure Within (a : TranscriptTailAccumulator) (softMaxChars hardMaxChars : ℕ) : Prop where
  soft : a.softMaxChars = softMaxChars
  hard : a.hardMaxChars = hardMaxChars
  length_le : a.tail.length ≤ max softMaxChars hardMaxChars

variable {softMaxChars hardMaxChars : ℕ}

theorem within_clear (h : a.Within softMaxChars hardMaxChars) :
    a.clear.Within softMaxChars hardMaxChars :=
  ⟨h.soft, h.hard, Nat.zero_le _⟩

theorem recordBoundary_same (kind : TranscriptReplayBoundaryKind) (i : ℕ) :
    a.SameTail (a.recordBoundary kind i) := by
  cases kind with
  | altScreenEnter => exact ⟨⟨rfl, rfl⟩, rfl, rfl, rfl⟩
  | fullScreenClear => exact ⟨⟨rfl, rfl⟩, rfl, rfl, rfl⟩

theorem foldl_recordBoundary_same (boundaries : List TranscriptReplayBoundary)
    (index : TranscriptReplayBoundary → ℕ) (a : TranscriptTailAccumulator) :
    a.SameTail (boundaries.foldl
      (fun a boundary => a.recordBoundary boundary.kind (index boundary)) a) := by
  induction boundaries generalizing a with
  | nil => exact ⟨⟨rfl, rfl⟩, rfl, rfl, rfl⟩
  | cons boundary boundaries ih =>
    exact (recordBoundary_same boundary.kind (index boundary)).trans (ih _)

/-- `replace` keeps the limits, and the tail that is retained. -/
theorem replace_same (a : TranscriptTailAccumulator) (tail : Output) (offset : ℕ) :
    (a.replace tail offset).softMaxChars = a.softMaxChars ∧
      (a.replace tail offset).hardMaxChars = a.hardMaxChars ∧
      (a.replace tail offset).tail =
        (retainTranscriptTail tail a.softMaxChars a.hardMaxChars).tail ∧
      (a.replace tail offset).offset =
        offset + (retainTranscriptTail tail a.softMaxChars a.hardMaxChars).dropped := by
  unfold replace rememberBoundaries
  dsimp only
  obtain ⟨⟨hsoft, hhard⟩, htail, hoffset, -⟩ := foldl_recordBoundary_same
    (scanTranscriptReplayBoundaries
      (retainTranscriptTail tail a.softMaxChars a.hardMaxChars).tail)
    (fun boundary => offset + (retainTranscriptTail tail a.softMaxChars
      a.hardMaxChars).dropped + boundary.index) { a with
    tail := (retainTranscriptTail tail a.softMaxChars a.hardMaxChars).tail
    offset := offset + (retainTranscriptTail tail a.softMaxChars a.hardMaxChars).dropped
    nextOffset := offset + (retainTranscriptTail tail a.softMaxChars a.hardMaxChars).dropped +
      (retainTranscriptTail tail a.softMaxChars a.hardMaxChars).tail.length
    boundaryCarry := carry (retainTranscriptTail tail a.softMaxChars a.hardMaxChars).tail
    lastAltEnterOffset := none
    lastClearOffset := none }
  exact ⟨hsoft, hhard, htail, hoffset⟩

/-- A tail within the soft limit is kept as it is. -/
theorem replace_short {tail : Output} (offset : ℕ) (h : tail.length ≤ a.softMaxChars) :
    (a.replace tail offset).tail = tail ∧ (a.replace tail offset).offset = offset := by
  obtain ⟨-, -, htail, hoffset⟩ := replace_same a tail offset
  rw [htail, hoffset, retainTranscriptTail, if_pos h]
  exact ⟨rfl, rfl⟩

theorem within_replace (h : a.Within softMaxChars hardMaxChars) (tail : Output) (offset : ℕ) :
    (a.replace tail offset).Within softMaxChars hardMaxChars := by
  obtain ⟨hsoft, hhard, htail, -⟩ := replace_same a tail offset
  refine ⟨hsoft.trans h.soft, hhard.trans h.hard, ?_⟩
  rw [htail, ← h.soft, ← h.hard]
  exact length_retainTranscriptTail_le tail a.softMaxChars a.hardMaxChars

theorem retainStart_ge (a : TranscriptTailAccumulator) (start stop : ℕ) :
    stop - max a.softMaxChars a.hardMaxChars ≤ a.retainStart start stop := by
  unfold retainStart
  dsimp only
  split
  · rename_i altEnter halt
    obtain ⟨-, hkept⟩ := Option.filter_eq_some_iff.1 halt
    simp only [Bool.and_eq_true, decide_eq_true_eq] at hkept
    exact hkept.1
  · cases hclear : a.lastClearOffset.filter fun i =>
      stop - a.softMaxChars ≤ i && start ≤ i with
    | none =>
      rw [Option.getD_none]
      omega
    | some clear =>
      obtain ⟨-, hkept⟩ := Option.filter_eq_some_iff.1 hclear
      simp only [Bool.and_eq_true, decide_eq_true_eq] at hkept
      rw [Option.getD_some]
      omega

theorem within_retain {buffer : Output} (hsoft : a.softMaxChars = softMaxChars)
    (hhard : a.hardMaxChars = hardMaxChars) (hnext : a.nextOffset = a.offset + buffer.length) :
    (a.retain buffer).Within softMaxChars hardMaxChars := by
  unfold retain
  dsimp only
  split
  · refine ⟨hsoft, hhard, ?_⟩
    show buffer.length ≤ max softMaxChars hardMaxChars
    omega
  · refine ⟨hsoft, hhard, ?_⟩
    show (buffer.drop (a.retainStart a.offset a.nextOffset - a.offset)).length ≤
      max softMaxChars hardMaxChars
    have hge := retainStart_ge a a.offset a.nextOffset
    rw [List.length_drop]
    omega

theorem recordBoundaries_same (a : TranscriptTailAccumulator) (chunk : Output) (chunkOffset : ℕ) :
    a.SameTail (a.recordBoundaries chunk chunkOffset) := by
  obtain ⟨hbounds, hsame⟩ := foldl_recordBoundary_same
    ((scanTranscriptReplayBoundaries (a.boundaryCarry ++ chunk)).filter
      fun boundary => a.boundaryCarry.length < boundary.stop)
    (fun boundary => chunkOffset + boundary.index - a.boundaryCarry.length) a
  exact ⟨hbounds, hsame⟩

theorem within_append (h : a.Within softMaxChars hardMaxChars) (hconsistent : a.Consistent)
    (chunk : Output) : (a.append chunk).Within softMaxChars hardMaxChars := by
  unfold append
  split
  · exact h
  · obtain ⟨⟨hsoft, hhard⟩, -, hoffset, -⟩ :=
      recordBoundaries_same a chunk a.nextOffset
    have hnext := hconsistent.nextOffset_eq
    apply within_retain
    · exact hsoft.trans h.soft
    · exact hhard.trans h.hard
    · show a.nextOffset + chunk.length =
        (a.recordBoundaries chunk a.nextOffset).offset + (a.tail ++ chunk).length
      rw [hoffset, List.length_append]
      omega

/-! ## The tail of a stream -/

/-- The accumulator has been given `stream`, and keeps its end. -/
structure Follows (a : TranscriptTailAccumulator) (stream : Output) : Prop where
  consistent : a.Consistent
  nextOffset_eq : a.nextOffset = stream.length
  tail_eq : a.tail = stream.drop a.offset
  tail_ne_nil : stream ≠ [] → a.tail ≠ []

theorem follows_nil : Follows {} [] := by
  refine ⟨⟨by decide, rfl, ?_⟩, rfl, rfl, fun h => absurd rfl h⟩
  exact ⟨fun _ h => (by cases h), fun _ h => (by cases h)⟩

theorem Follows.append {stream chunk : Output} (h : a.Follows stream) :
    (a.append chunk).Follows (stream ++ chunk) := by
  obtain ⟨hconsistent, ⟨dropped, htail, hoffset, hlt, hnil⟩, hnext⟩ :=
    append_spec h.consistent chunk
  have hle : a.offset ≤ stream.length := by
    rw [← h.nextOffset_eq, h.consistent.nextOffset_eq]
    omega
  have hbuffer : a.tail ++ chunk = (stream ++ chunk).drop a.offset := by
    rw [h.tail_eq, List.drop_append_of_le_length hle]
  refine ⟨hconsistent, ?_, ?_, ?_⟩
  · rw [hnext, h.nextOffset_eq, List.length_append]
  · rw [htail, hoffset, hbuffer, List.drop_drop]
  · intro hne
    have hbufferNe : a.tail ++ chunk ≠ [] := by
      intro happend
      obtain ⟨hold, rfl⟩ := List.append_eq_nil_iff.1 happend
      rw [List.append_nil] at hne
      exact h.tail_ne_nil hne hold
    rw [htail]
    intro hdrop
    have := List.drop_eq_nil_iff.1 hdrop
    have := hlt hbufferNe
    omega

end TranscriptTailAccumulator

end Orchestration.Pty
