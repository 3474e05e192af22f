import Mathlib.Data.List.Induction
import Orchestration.Pty.TranscriptTail

/-!
# The window of a transcript

However the output of a pane is cut into chunks, the accumulator keeps a window of it: it starts
at the last alternate screen that the hard limit reaches, or at the last full-screen clear that
the soft limit reaches, or at the soft limit.
-/

namespace Orchestration.Pty

/-! ## The boundaries of a stream -/

/-- A boundary of the kind stands between the two indices of the stream. -/
def Boundary (stream : Output) (kind : TranscriptReplayBoundaryKind) (index stop : ℕ) : Prop :=
  ∃ alternative ∈ kind.pattern,
    Slice.At stream index alternative ∧ stop = index + alternative.length

/-- The last boundary of the kind starts at the index. -/
def LastBoundary (stream : Output) (kind : TranscriptReplayBoundaryKind) (index : ℕ) : Prop :=
  (∃ stop, Boundary stream kind index stop) ∧
    ∀ other stop, Boundary stream kind other stop → other ≤ index

/-- A unit that boundaries start with, and that nothing else in them is. -/
def isIntroducer (u : UInt16) : Bool := u = 0x1B || u = 0x9B

theorem pattern_head (kind : TranscriptReplayBoundaryKind) :
    ∀ alternative ∈ kind.pattern, alternative.head?.any isIntroducer = true ∧
      alternative.tail.all (fun u => !isIntroducer u) = true ∧
      alternative.length ≤ 8 := by
  cases kind <;> decide

/-- At one place there is one boundary of a kind at most. -/
theorem pattern_eq (kind : TranscriptReplayBoundaryKind) :
    ∀ alternative ∈ kind.pattern, ∀ other ∈ kind.pattern, alternative <+: other →
      alternative = other := by
  cases kind <;> decide

section

variable {stream more : Output} {kind other : TranscriptReplayBoundaryKind}
variable {index stop index' stop' : ℕ}

theorem Boundary.bounds (h : Boundary stream kind index stop) :
    index < stop ∧ stop ≤ index + 8 ∧ stop ≤ stream.length := by
  obtain ⟨alternative, hmem, hat, rfl⟩ := h
  have hpos := pattern_pos kind alternative hmem
  have hlength := (pattern_head kind alternative hmem).2.2
  have hle := hat.le_length (List.length_pos_iff.1 hpos)
  omega

theorem Boundary.grow (h : Boundary stream kind index stop) :
    Boundary (stream ++ more) kind index stop := by
  obtain ⟨alternative, hmem, hat, hstop⟩ := h
  have hpos := pattern_pos kind alternative hmem
  exact ⟨alternative, hmem, hat.grow (List.length_pos_iff.1 hpos), hstop⟩

/-- A boundary that stops within the stream was there before it grew. -/
theorem Boundary.of_grown (h : Boundary (stream ++ more) kind index stop)
    (hstop : stop ≤ stream.length) : Boundary stream kind index stop := by
  have hbounds := h.bounds
  obtain ⟨alternative, hmem, hat, rfl⟩ := h
  refine ⟨alternative, hmem, ?_, rfl⟩
  rw [Slice.At, List.drop_append_of_le_length (by omega)] at hat
  refine List.prefix_of_prefix_length_le hat (List.prefix_append _ _) ?_
  rw [List.length_drop]
  omega

theorem boundary_drop {k : ℕ} :
    Boundary (stream.drop k) kind index stop ↔ Boundary stream kind (k + index) (k + stop) := by
  constructor
  · rintro ⟨alternative, hmem, hat, rfl⟩
    rw [Slice.At, List.drop_drop] at hat
    exact ⟨alternative, hmem, hat, (Nat.add_assoc _ _ _).symm⟩
  · rintro ⟨alternative, hmem, hat, hstop⟩
    rw [Slice.At, ← List.drop_drop] at hat
    exact ⟨alternative, hmem, hat, by omega⟩

/-- The unit at a place of a boundary. -/
theorem Boundary.getElem? (h : Boundary stream kind index stop) {i : ℕ} (hindex : index ≤ i)
    (hstop : i < stop) : ∃ u, stream[i]? = some u ∧ (isIntroducer u = true ↔ i = index) := by
  obtain ⟨alternative, hmem, hat, rfl⟩ := h
  obtain ⟨hhead, htail, -⟩ := pattern_head kind alternative hmem
  obtain ⟨rest, hrest⟩ := hat
  obtain ⟨n, rfl⟩ := Nat.exists_eq_add_of_le hindex
  have hunit : stream[index + n]? = alternative[n]? := by
    rw [← List.getElem?_drop, ← hrest, List.getElem?_append_left (by omega)]
  cases halternative : alternative with
  | nil => simp [halternative] at hhead
  | cons first tail =>
    rw [halternative] at hhead htail hunit hstop
    cases n with
    | zero => exact ⟨first, hunit, by simpa using hhead⟩
    | succ n =>
      rw [List.length_cons] at hstop
      have hlt : n < tail.length := by omega
      refine ⟨tail[n], ?_, ?_⟩
      · rw [hunit, List.getElem?_cons_succ, List.getElem?_eq_getElem hlt]
      · have hnone := List.all_eq_true.1 htail tail[n] (List.getElem_mem hlt)
        simp only [Bool.not_eq_true'] at hnone
        simp [hnone]

/-- Boundaries do not overlap. -/
theorem Boundary.stop_le (h : Boundary stream kind index stop)
    (h' : Boundary stream other index' stop') (hlt : index < index') : stop ≤ index' := by
  by_contra hover
  obtain ⟨u, hu, hinner⟩ := h.getElem? (i := index') (by omega) (by omega)
  obtain ⟨u', hu', hfirst⟩ := h'.getElem? (i := index') (Nat.le_refl _) h'.bounds.1
  obtain rfl : u = u' := Option.some.inj (hu.symm.trans hu')
  have := hinner.1 (hfirst.2 rfl)
  omega

theorem boundaryAt_eq_some_iff {boundary : TranscriptReplayBoundary} :
    boundaryAt stream kind index = some boundary ↔
      boundary.kind = kind ∧ boundary.index = index ∧ Boundary stream kind index boundary.stop := by
  constructor
  · intro h
    obtain ⟨alternative, hfind, rfl⟩ := Option.map_eq_some_iff.1 h
    have hprefix : alternative <+: stream.drop index := by simpa using List.find?_some hfind
    exact ⟨rfl, rfl, alternative, List.mem_of_find?_eq_some hfind, hprefix, rfl⟩
  · rintro ⟨hkind, hindex, alternative, hmem, hat, hstop⟩
    have hsome : (kind.pattern.find? fun alternative =>
        alternative.isPrefixOf (stream.drop index)).isSome = true := by
      rw [List.find?_isSome]
      exact ⟨alternative, hmem, List.isPrefixOf_iff_prefix.2 hat⟩
    obtain ⟨found, hfind⟩ := Option.isSome_iff_exists.1 hsome
    have hfound : found <+: stream.drop index := by simpa using List.find?_some hfind
    have hsame : found = alternative := by
      have hfoundMem := List.mem_of_find?_eq_some hfind
      obtain hle | hle := List.prefix_or_prefix_of_prefix hfound hat
      · exact pattern_eq kind found hfoundMem alternative hmem hle
      · exact (pattern_eq kind alternative hmem found hfoundMem hle).symm
    obtain ⟨boundaryKind, boundaryIndex, boundaryStop⟩ := boundary
    obtain rfl : boundaryKind = kind := hkind
    obtain rfl : boundaryIndex = index := hindex
    obtain rfl : boundaryStop = boundaryIndex + alternative.length := hstop
    rw [boundaryAt, hfind, hsame]
    rfl

theorem mem_scan {boundary : TranscriptReplayBoundary} :
    boundary ∈ scanTranscriptReplayBoundaries stream ↔
      Boundary stream boundary.kind boundary.index boundary.stop := by
  simp only [scanTranscriptReplayBoundaries, List.mem_flatMap, List.mem_range, List.mem_append,
    Option.mem_toList, boundaryAt_eq_some_iff]
  constructor
  · rintro ⟨i, -, ⟨hkind, rfl, h⟩ | ⟨hkind, rfl, h⟩⟩
    · rwa [hkind]
    · rwa [hkind]
  · intro h
    have hbounds := h.bounds
    refine ⟨boundary.index, by omega, ?_⟩
    cases hkind : boundary.kind with
    | altScreenEnter => exact .inl ⟨rfl, rfl, hkind ▸ h⟩
    | fullScreenClear => exact .inr ⟨rfl, rfl, hkind ▸ h⟩

/-- The scan meets the boundaries in order. -/
theorem pairwise_scan (stream : Output) :
    (scanTranscriptReplayBoundaries stream).Pairwise fun a b => a.index ≤ b.index := by
  have hindex : ∀ i boundary, boundary ∈ (boundaryAt stream .altScreenEnter i).toList ++
      (boundaryAt stream .fullScreenClear i).toList → boundary.index = i := by
    intro i boundary hmem
    simp only [List.mem_append, Option.mem_toList, boundaryAt_eq_some_iff] at hmem
    obtain ⟨-, h, -⟩ | ⟨-, h, -⟩ := hmem
    · exact h
    · exact h
  rw [scanTranscriptReplayBoundaries, List.pairwise_flatMap]
  refine ⟨fun i _ => ?_, ?_⟩
  · exact List.pairwise_of_forall_mem_list fun a ha b hb =>
      Nat.le_of_eq ((hindex i a ha).trans (hindex i b hb).symm)
  · refine List.Pairwise.imp ?_ List.pairwise_lt_range
    intro i j hij a ha b hb
    rw [hindex i a ha, hindex j b hb]
    exact Nat.le_of_lt hij

/-! ### The last boundary -/

theorem LastBoundary.unique (h : LastBoundary stream kind index)
    (h' : LastBoundary stream kind index') : index = index' := by
  obtain ⟨⟨stop, hb⟩, hlast⟩ := h
  obtain ⟨⟨stop', hb'⟩, hlast'⟩ := h'
  exact Nat.le_antisymm (hlast' _ _ hb) (hlast _ _ hb')

/-- Where there is a boundary, there is a last one. -/
theorem Boundary.exists_last (h : Boundary stream kind index stop) :
    ∃ last, LastBoundary stream kind last ∧ index ≤ last := by
  induction hn : stream.length - index using Nat.strongRecOn generalizing index stop with
  | _ n ih =>
    by_cases hlast : ∀ other stop, Boundary stream kind other stop → other ≤ index
    · exact ⟨index, ⟨⟨stop, h⟩, hlast⟩, Nat.le_refl _⟩
    · simp only [not_forall, Nat.not_le] at hlast
      obtain ⟨later, stop', hlater, hlt⟩ := hlast
      have hbounds := hlater.bounds
      obtain ⟨last, hlast, hle⟩ := ih (stream.length - later) (by omega) hlater rfl
      exact ⟨last, hlast, by omega⟩

/-- A boundary that stops in what the stream has grown by starts after the older ones. -/
theorem Boundary.le_grown (h : Boundary stream kind index stop)
    (h' : Boundary (stream ++ more) other index' stop') (hstop : stream.length < stop') :
    index ≤ index' := by
  by_contra hlt
  have hbounds := h.bounds
  have hover := h'.stop_le h.grow (by omega)
  omega

/-- The last boundary of a grown stream is the last one before, or stops in what was added. -/
theorem LastBoundary.of_grown (h : LastBoundary (stream ++ more) kind index) :
    LastBoundary stream kind index ∨
      ∃ stop, Boundary (stream ++ more) kind index stop ∧ stream.length < stop := by
  obtain ⟨⟨stop, hb⟩, hlast⟩ := h
  obtain hle | hlt := Nat.lt_or_ge stream.length stop
  · exact .inr ⟨stop, hb, hle⟩
  · exact .inl ⟨⟨stop, hb.of_grown hlt⟩, fun other stop hother => hlast other stop hother.grow⟩

/-- The last boundary moves on when the stream grows. -/
theorem LastBoundary.grow (h : LastBoundary stream kind index) (more : Output) :
    ∃ last, LastBoundary (stream ++ more) kind last ∧ index ≤ last :=
  have ⟨_, hb⟩ := h.1
  hb.grow.exists_last

end

namespace TranscriptTailAccumulator

variable {a : TranscriptTailAccumulator} {kind : TranscriptReplayBoundaryKind}

/-- The last boundary of the kind that is remembered. -/
def last (a : TranscriptTailAccumulator) : TranscriptReplayBoundaryKind → Option ℕ
  | .altScreenEnter => a.lastAltEnterOffset
  | .fullScreenClear => a.lastClearOffset

theorem last_recordBoundary (a : TranscriptTailAccumulator)
    (kind other : TranscriptReplayBoundaryKind) (index : ℕ) :
    (a.recordBoundary other index).last kind =
      if other = kind then some index else a.last kind := by
  cases kind <;> cases other <;> rfl

/-- Recording boundaries in order, the last one of a kind stays. -/
theorem last_foldl {boundaries : List TranscriptReplayBoundary}
    (hordered : boundaries.Pairwise fun a b => a.index ≤ b.index)
    (index : TranscriptReplayBoundary → ℕ) (a : TranscriptTailAccumulator)
    (kind : TranscriptReplayBoundaryKind) :
    ((∀ boundary ∈ boundaries, boundary.kind ≠ kind) ∧
        (boundaries.foldl (fun a boundary => a.recordBoundary boundary.kind (index boundary))
          a).last kind = a.last kind) ∨
      ∃ boundary ∈ boundaries, boundary.kind = kind ∧
        (∀ other ∈ boundaries, other.kind = kind → other.index ≤ boundary.index) ∧
        (boundaries.foldl (fun a boundary => a.recordBoundary boundary.kind (index boundary))
          a).last kind = some (index boundary) := by
  induction boundaries using List.reverseRecOn with
  | nil => exact .inl ⟨fun _ h => absurd h List.not_mem_nil, rfl⟩
  | append_singleton boundaries boundary ih =>
    rw [List.pairwise_append] at hordered
    obtain ⟨hordered, -, hlast⟩ := hordered
    rw [List.foldl_append, List.foldl_cons, List.foldl_nil, last_recordBoundary]
    by_cases hkind : boundary.kind = kind
    · refine .inr ⟨boundary, by simp, hkind, ?_, if_pos hkind⟩
      intro other hother _
      obtain hother | hother := List.mem_append.1 hother
      · exact hlast other hother boundary List.mem_cons_self
      · exact Nat.le_of_eq (congrArg _ (List.mem_singleton.1 hother))
    · rw [if_neg hkind]
      obtain ⟨hnone, heq⟩ | ⟨found, hmem, hfound, hmax, heq⟩ := ih hordered
      · refine .inl ⟨fun other hother => ?_, heq⟩
        obtain hother | hother := List.mem_append.1 hother
        · exact hnone other hother
        · rwa [List.mem_singleton.1 hother]
      · refine .inr ⟨found, List.mem_append_left _ hmem, hfound, fun other hother hk => ?_, heq⟩
        obtain hother | hother := List.mem_append.1 hother
        · exact hmax other hother hk
        · rw [List.mem_singleton.1 hother] at hk
          exact absurd hk hkind

end TranscriptTailAccumulator

/-! ## The window -/

/-- Without its first `dropped` units, the stream is a window of the limits: within the hard one,
from the last full-screen clear or the soft limit on, or else from the last alternate screen that
the hard limit reaches; and that screen is in it. -/
structure Window (softMaxChars hardMaxChars : ℕ) (stream : Output) (dropped : ℕ) : Prop where
  length_le : (stream.drop dropped).length ≤ max softMaxChars hardMaxChars
  start : dropped ≤ stream.length - softMaxChars ∨
    (∃ index, LastBoundary stream .fullScreenClear index ∧ dropped ≤ index) ∨
    ∃ index, LastBoundary stream .altScreenEnter index ∧
      stream.length - max softMaxChars hardMaxChars ≤ index ∧ dropped ≤ index
  altScreen : ∀ index, LastBoundary stream .altScreenEnter index →
    stream.length - max softMaxChars hardMaxChars ≤ index → dropped ≤ index

section

variable {softMaxChars hardMaxChars dropped : ℕ} {stream more : Output}

/-- What is to come after a window starts no boundary before it. -/
theorem Window.le_grown (h : Window softMaxChars hardMaxChars stream dropped)
    (hsoft : 8 ≤ softMaxChars) {kind : TranscriptReplayBoundaryKind} {index stop : ℕ}
    (hb : Boundary (stream ++ more) kind index stop) (hstop : stream.length < stop) :
    dropped ≤ index := by
  obtain hstart | ⟨clear, ⟨⟨_, hclear⟩, -⟩, hle⟩ | ⟨altEnter, ⟨⟨_, halt⟩, -⟩, -, hle⟩ := h.start
  · have hbounds := hb.bounds
    omega
  · exact Nat.le_trans hle (hclear.le_grown hb hstop)
  · exact Nat.le_trans hle (halt.le_grown hb hstop)

/-- The window of a grown stream may start where it started, while it is within the soft limit. -/
theorem Window.grow (h : Window softMaxChars hardMaxChars stream dropped)
    (hsoft : 8 ≤ softMaxChars)
    (hshort : ((stream ++ more).drop dropped).length ≤ softMaxChars) :
    Window softMaxChars hardMaxChars (stream ++ more) dropped where
  length_le := by omega
  start := by
    rw [List.length_drop] at hshort
    obtain hstart | ⟨clear, hclear, hle⟩ | ⟨altEnter, halt, hreach, hle⟩ := h.start
    · rw [List.length_append]
      exact .inl (by omega)
    · obtain ⟨last, hlast, hlater⟩ := hclear.grow more
      exact .inr (.inl ⟨last, hlast, by omega⟩)
    · obtain ⟨last, hlast, hlater⟩ := halt.grow more
      exact .inr (.inr ⟨last, hlast, by omega, by omega⟩)
  altScreen index hlast hreach := by
    rw [List.length_append] at hreach
    obtain hold | ⟨stop, hb, hstop⟩ := hlast.of_grown
    · exact h.altScreen index hold (by omega)
    · exact h.le_grown hsoft hb hstop

end

/-! ## What the accumulator knows of the stream -/

namespace TranscriptTailAccumulator

variable {softMaxChars hardMaxChars base dropped : ℕ} {stream : Output}
variable {a : TranscriptTailAccumulator}

/-- The accumulator has the limits and holds the stream, which starts at the offset `base`,
without its first `dropped` units. -/
structure Holds (a : TranscriptTailAccumulator) (softMaxChars hardMaxChars base : ℕ)
    (stream : Output) (dropped : ℕ) : Prop where
  soft : a.softMaxChars = softMaxChars
  hard : a.hardMaxChars = hardMaxChars
  dropped_le : dropped ≤ stream.length
  tail_eq : a.tail = stream.drop dropped
  offset_eq : a.offset = base + dropped
  nextOffset_eq : a.nextOffset = base + stream.length

/-- `part` is an end of the stream, and each boundary that the stream may yet complete starts
in it. -/
def Carries (part stream : Output) : Prop :=
  ∃ k ≤ stream.length, part = stream.drop k ∧
    ∀ more kind index stop, Boundary (stream ++ more) kind index stop → stream.length < stop →
      k ≤ index

/-- What the accumulator remembers of the boundaries of the stream. -/
structure Remembers (a : TranscriptTailAccumulator) (base reach : ℕ) (stream : Output) : Prop where
  carries : Carries a.boundaryCarry stream
  last : ∀ kind x, a.last kind = some x → ∃ index, x = base + index ∧
    LastBoundary stream kind index
  /-- The last alternate screen is known while the hard limit reaches it. -/
  altScreen : ∀ index, LastBoundary stream .altScreenEnter index → stream.length - reach ≤ index →
    a.last .altScreenEnter = some (base + index)

theorem Remembers.congr {b : TranscriptTailAccumulator} {reach : ℕ}
    (h : a.Remembers base reach stream) (hcarry : b.boundaryCarry = a.boundaryCarry)
    (hlast : ∀ kind, b.last kind = a.last kind) : b.Remembers base reach stream where
  carries := hcarry ▸ h.carries
  last kind x hx := h.last kind x (hlast kind ▸ hx)
  altScreen index hindex hreach := (hlast _).trans (h.altScreen index hindex hreach)

theorem Carries.carry {part : Output} (h : Carries part stream) : Carries (carry part) stream := by
  obtain ⟨k, hk, rfl, hafter⟩ := h
  refine ⟨k + ((stream.drop k).length - TRANSCRIPT_REPLAY_BOUNDARY_SCAN_OVERLAP), ?_, ?_, ?_⟩
  · rw [List.length_drop]
    omega
  · rw [TranscriptTailAccumulator.carry, List.drop_drop]
  · intro more kind index stop hb hstop
    have hstart := hafter more kind index stop hb hstop
    have hbounds := hb.bounds
    have hoverlap : TRANSCRIPT_REPLAY_BOUNDARY_SCAN_OVERLAP = 16 := rfl
    rw [List.length_drop, hoverlap]
    omega

theorem Carries.grow {part : Output} (h : Carries part stream) (chunk : Output) :
    Carries (part ++ chunk) (stream ++ chunk) := by
  obtain ⟨k, hk, rfl, hafter⟩ := h
  refine ⟨k, ?_, ?_, ?_⟩
  · rw [List.length_append]
    omega
  · rw [List.drop_append_of_le_length hk]
  · intro more kind index stop hb hstop
    rw [List.append_assoc] at hb
    rw [List.length_append] at hstop
    exact hafter _ kind index stop hb (by omega)

/-- Scanning an end of the stream, the last boundary of a kind that is recorded stays. -/
theorem last_scan (stream : Output) (k : ℕ) (keep : TranscriptReplayBoundary → Bool)
    {index : TranscriptReplayBoundary → ℕ} (hindex : ∀ b, index b = base + (k + b.index))
    (a : TranscriptTailAccumulator) (kind : TranscriptReplayBoundaryKind) :
    ((∀ i stop, Boundary stream kind (k + i) (k + stop) → keep ⟨kind, i, stop⟩ = false) ∧
        (((scanTranscriptReplayBoundaries (stream.drop k)).filter keep).foldl
          (fun a b => a.recordBoundary b.kind (index b)) a).last kind = a.last kind) ∨
      ∃ i stop, Boundary stream kind (k + i) (k + stop) ∧ keep ⟨kind, i, stop⟩ = true ∧
        (∀ j stop, Boundary stream kind (k + j) (k + stop) → keep ⟨kind, j, stop⟩ = true → j ≤ i) ∧
        (((scanTranscriptReplayBoundaries (stream.drop k)).filter keep).foldl
          (fun a b => a.recordBoundary b.kind (index b)) a).last kind = some (base + (k + i)) := by
  have hmem : ∀ b : TranscriptReplayBoundary,
      b ∈ (scanTranscriptReplayBoundaries (stream.drop k)).filter keep ↔
        Boundary stream b.kind (k + b.index) (k + b.stop) ∧ keep b = true := by
    intro b
    rw [List.mem_filter, mem_scan, boundary_drop]
  obtain ⟨hnone, heq⟩ | ⟨⟨foundKind, i, stop⟩, hfound, hkind, hmax, heq⟩ :=
    last_foldl ((pairwise_scan (stream.drop k)).filter keep) index a kind
  · refine .inl ⟨fun i stop hb => ?_, heq⟩
    by_contra hkeep
    rw [Bool.not_eq_false] at hkeep
    exact hnone ⟨kind, i, stop⟩ ((hmem _).2 ⟨hb, hkeep⟩) rfl
  · obtain rfl : foundKind = kind := hkind
    obtain ⟨hb, hkeep⟩ := (hmem _).1 hfound
    refine .inr ⟨i, stop, hb, hkeep, fun j stop hb hkeep => ?_, ?_⟩
    · exact hmax ⟨foundKind, j, stop⟩ ((hmem _).2 ⟨hb, hkeep⟩) rfl
    · rw [heq, hindex]

theorem Remembers.recordBoundaries {reach : ℕ} (h : a.Remembers base reach stream)
    (hnext : a.nextOffset = base + stream.length) (chunk : Output) :
    (a.recordBoundaries chunk a.nextOffset).Remembers base reach (stream ++ chunk) := by
  obtain ⟨k, hk, hcarry, hafter⟩ := h.carries
  have hscanned : a.boundaryCarry ++ chunk = (stream ++ chunk).drop k := by
    rw [hcarry, List.drop_append_of_le_length hk]
  have hlength : a.boundaryCarry.length = stream.length - k := by rw [hcarry, List.length_drop]
  have hindex : ∀ b : TranscriptReplayBoundary,
      a.nextOffset + b.index - a.boundaryCarry.length = base + (k + b.index) := by
    intro b
    rw [hnext, hlength]
    omega
  have hscan := last_scan (stream ++ chunk) k
    (fun b => decide (a.boundaryCarry.length < b.stop)) hindex a
  rw [← hscanned] at hscan
  -- a boundary that stops in the chunk is scanned and recorded
  have hnew : ∀ kind i stop, Boundary (stream ++ chunk) kind i stop → stream.length < stop →
      ∃ j stop', i = k + j ∧ stop = k + stop' ∧ a.boundaryCarry.length < stop' := by
    intro kind i stop hb hstop
    have hstart := hafter chunk kind i stop hb hstop
    have hbounds := hb.bounds
    exact ⟨i - k, stop - k, by omega, by omega, by omega⟩
  have hrecorded : ∀ kind,
      ((∀ i stop, Boundary (stream ++ chunk) kind i stop → stop ≤ stream.length) ∧
        (a.recordBoundaries chunk a.nextOffset).last kind = a.last kind) ∨
      ∃ i, LastBoundary (stream ++ chunk) kind i ∧
        (a.recordBoundaries chunk a.nextOffset).last kind = some (base + i) := by
    intro kind
    have hlast : (a.recordBoundaries chunk a.nextOffset).last kind =
        (((scanTranscriptReplayBoundaries (a.boundaryCarry ++ chunk)).filter
          fun b => decide (a.boundaryCarry.length < b.stop)).foldl
          (fun recorded b => recorded.recordBoundary b.kind
            (a.nextOffset + b.index - a.boundaryCarry.length)) a).last kind := by
      cases kind <;> rfl
    rw [hlast]
    obtain ⟨hnone, heq⟩ | ⟨i, stop, hb, hkeep, hmax, heq⟩ := hscan kind
    · refine .inl ⟨fun i stop hb => ?_, heq⟩
      by_contra hlate
      obtain ⟨j, stop', rfl, rfl, hkeep⟩ := hnew kind i stop hb (by omega)
      exact of_decide_eq_false (hnone j stop' hb) hkeep
    · refine .inr ⟨k + i, ⟨⟨_, hb⟩, fun j stop' hother => ?_⟩, heq⟩
      have hlate : a.boundaryCarry.length < stop := of_decide_eq_true hkeep
      obtain hnewer | holder := Nat.lt_or_ge stream.length stop'
      · obtain ⟨j', stop'', rfl, rfl, hlate'⟩ := hnew kind j stop' hother hnewer
        exact Nat.add_le_add_left (hmax j' stop'' hother (decide_eq_true hlate')) k
      · exact (hother.of_grown holder).le_grown hb (by omega)
  refine ⟨?_, fun kind x hx => ?_, fun index hindex hreach => ?_⟩
  · exact ((h.carries).grow chunk).carry
  · obtain ⟨hold, heq⟩ | ⟨i, hi, heq⟩ := hrecorded kind
    · rw [heq] at hx
      obtain ⟨i, rfl, ⟨⟨stop, hb⟩, hlast⟩⟩ := h.last kind x hx
      exact ⟨i, rfl, ⟨stop, hb.grow⟩, fun j stop' hj =>
        hlast j stop' (hj.of_grown (hold j stop' hj))⟩
    · rw [heq] at hx
      exact ⟨i, (Option.some.inj hx).symm, hi⟩
  · obtain ⟨hold, heq⟩ | ⟨i, hi, heq⟩ := hrecorded .altScreenEnter
    · rw [heq]
      obtain hbefore | ⟨stop, hb, hstop⟩ := hindex.of_grown
      · refine h.altScreen index hbefore ?_
        rw [List.length_append] at hreach
        omega
      · have := hold index stop hb
        omega
    · rw [heq, hi.unique hindex]

/-! ### Appending -/

/-- The accumulator holds a window of the stream and knows where the next one may start. -/
structure Tracks (a : TranscriptTailAccumulator) (softMaxChars hardMaxChars base : ℕ)
    (stream : Output) (dropped : ℕ) : Prop where
  holds : a.Holds softMaxChars hardMaxChars base stream dropped
  remembers : a.Remembers base (max softMaxChars hardMaxChars) stream
  window : Window softMaxChars hardMaxChars stream dropped

/-- Where a buffer that is too long is cut, a window starts. -/
theorem retainStart_window {chunk : Output} (hsoft : 8 ≤ softMaxChars)
    (hwindow : Window softMaxChars hardMaxChars stream dropped)
    (hlimits : a.softMaxChars = softMaxChars ∧ a.hardMaxChars = hardMaxChars)
    (hoffset : a.offset = base + dropped)
    (hnext : a.nextOffset = base + (stream ++ chunk).length)
    (hremembers : a.Remembers base (max softMaxChars hardMaxChars) (stream ++ chunk))
    (hlong : softMaxChars + dropped < (stream ++ chunk).length) :
    ∃ start, a.retainStart a.offset a.nextOffset = base + start ∧ dropped ≤ start ∧
      start ≤ (stream ++ chunk).length ∧
      Window softMaxChars hardMaxChars (stream ++ chunk) start := by
  unfold retainStart
  rw [hlimits.1, hlimits.2, hoffset, hnext]
  dsimp only
  split
  · next altEnter halt =>
    obtain ⟨hmem, hkept⟩ := Option.filter_eq_some_iff.1 halt
    obtain ⟨i, rfl, hlast⟩ := hremembers.last .altScreenEnter altEnter hmem
    obtain ⟨_, hb⟩ := hlast.1
    have hbounds := hb.bounds
    simp only [Bool.and_eq_true, decide_eq_true_eq] at hkept
    refine ⟨i, rfl, by omega, by omega, ?_, ?_, ?_⟩
    · rw [List.length_drop]
      omega
    · exact .inr (.inr ⟨i, hlast, by omega, Nat.le_refl _⟩)
    · exact fun index hindex _ => Nat.le_of_eq (hlast.unique hindex)
  · next hnone =>
    -- an alternate screen that the hard limit reaches would have been found
    have hunreached : ∀ index, LastBoundary (stream ++ chunk) .altScreenEnter index →
        ¬ (stream ++ chunk).length - max softMaxChars hardMaxChars ≤ index := by
      intro index hindex hreach
      have hknown : a.lastAltEnterOffset = some (base + index) :=
        hremembers.altScreen index hindex hreach
      have hafter : dropped ≤ index := by
        obtain hold | ⟨stop, hb, hstop⟩ := hindex.of_grown
        · refine hwindow.altScreen index hold ?_
          rw [List.length_append] at hreach
          omega
        · exact hwindow.le_grown hsoft hb hstop
      have hrefused := Option.filter_eq_none_iff.1 hnone (base + index) hknown
      simp only [Bool.and_eq_true, decide_eq_true_eq] at hrefused
      omega
    cases hclear : a.lastClearOffset.filter fun i =>
        decide (base + (stream ++ chunk).length - softMaxChars ≤ i) &&
          decide (base + dropped ≤ i) with
    | none =>
      refine ⟨(stream ++ chunk).length - softMaxChars, ?_, by omega, by omega, ?_, ?_, ?_⟩
      · rw [Option.getD_none]
        omega
      · rw [List.length_drop]
        omega
      · exact .inl (Nat.le_refl _)
      · exact fun index hindex hreach => absurd hreach (hunreached index hindex)
    | some clear =>
      obtain ⟨hmem, hkept⟩ := Option.filter_eq_some_iff.1 hclear
      obtain ⟨i, rfl, hlast⟩ := hremembers.last .fullScreenClear clear hmem
      obtain ⟨_, hb⟩ := hlast.1
      have hbounds := hb.bounds
      simp only [Bool.and_eq_true, decide_eq_true_eq] at hkept
      refine ⟨i, Option.getD_some, by omega, by omega, ?_, ?_, ?_⟩
      · rw [List.length_drop]
        omega
      · exact .inr (.inl ⟨i, hlast, Nat.le_refl _⟩)
      · exact fun index hindex hreach => absurd hreach (hunreached index hindex)

/-- `retain` holds a window of the grown stream. -/
theorem tracks_retain {chunk : Output} (hsoft : 8 ≤ softMaxChars)
    (hwindow : Window softMaxChars hardMaxChars stream dropped)
    (hdropped : dropped ≤ stream.length)
    (hlimits : a.softMaxChars = softMaxChars ∧ a.hardMaxChars = hardMaxChars)
    (hoffset : a.offset = base + dropped)
    (hnext : a.nextOffset = base + (stream ++ chunk).length)
    (hremembers : a.Remembers base (max softMaxChars hardMaxChars) (stream ++ chunk)) :
    ∃ dropped', (a.retain ((stream ++ chunk).drop dropped)).Tracks softMaxChars hardMaxChars base
      (stream ++ chunk) dropped' := by
  have hgrown : dropped ≤ (stream ++ chunk).length := by
    rw [List.length_append]
    omega
  have hsame : ∀ buffer : Output, ∀ kind, (a.retain buffer).last kind = a.last kind := by
    intro buffer kind
    rw [retain]
    split <;> cases kind <;> rfl
  have hcarry : ∀ buffer : Output, (a.retain buffer).boundaryCarry = a.boundaryCarry := by
    intro buffer
    rw [retain]
    split <;> rfl
  have hremembered := hremembers.congr (hcarry ((stream ++ chunk).drop dropped)) (hsame _)
  rw [retain] at hremembered ⊢
  split
  · next hshort =>
    rw [if_pos hshort] at hremembered
    rw [hlimits.1] at hshort
    exact ⟨dropped, ⟨hlimits.1, hlimits.2, hgrown, rfl, hoffset, hnext⟩, hremembered,
      hwindow.grow hsoft hshort⟩
  · next hlong =>
    rw [if_neg hlong] at hremembered
    rw [hlimits.1, List.length_drop] at hlong
    obtain ⟨start, hstart, hafter, hle, hwindow'⟩ := retainStart_window hsoft hwindow hlimits
      hoffset hnext hremembers (by omega)
    refine ⟨start, ⟨hlimits.1, hlimits.2, hle, ?_, hstart, hnext⟩, hremembered, hwindow'⟩
    show ((stream ++ chunk).drop dropped).drop _ = _
    rw [hstart, hoffset, List.drop_drop]
    congr 1
    omega

/-- Appending a chunk goes on with the window. -/
theorem Tracks.append (h : a.Tracks softMaxChars hardMaxChars base stream dropped)
    (hsoft : 8 ≤ softMaxChars) (chunk : Output) :
    ∃ dropped', (a.append chunk).Tracks softMaxChars hardMaxChars base (stream ++ chunk)
      dropped' := by
  rw [TranscriptTailAccumulator.append]
  split
  · next hnil =>
    subst hnil
    rw [List.append_nil]
    exact ⟨dropped, h⟩
  · have hsame := recordBoundaries_same a chunk a.nextOffset
    have hbuffer : a.tail ++ chunk = (stream ++ chunk).drop dropped := by
      rw [h.holds.tail_eq, List.drop_append_of_le_length h.holds.dropped_le]
    dsimp only
    rw [hbuffer]
    apply tracks_retain hsoft h.window h.holds.dropped_le
    · exact ⟨hsame.1.1.trans h.holds.soft, hsame.1.2.trans h.holds.hard⟩
    · exact hsame.2.2.1.trans h.holds.offset_eq
    · show a.nextOffset + chunk.length = _
      rw [h.holds.nextOffset_eq, List.length_append, Nat.add_assoc]
    · refine (h.remembers.recordBoundaries h.holds.nextOffset_eq chunk).congr rfl fun kind => ?_
      cases kind <;> rfl

theorem tracks_empty (softMaxChars hardMaxChars : ℕ) :
    Tracks { softMaxChars, hardMaxChars } softMaxChars hardMaxChars 0 [] 0 := by
  have hnone : ∀ kind index, ¬ LastBoundary [] kind index := by
    rintro kind index ⟨⟨stop, hb⟩, -⟩
    have hbounds := hb.bounds
    rw [List.length_nil] at hbounds
    omega
  refine ⟨⟨rfl, rfl, Nat.le_refl _, rfl, rfl, rfl⟩, ⟨?_, ?_, ?_⟩, ?_, ?_, ?_⟩
  · exact ⟨0, Nat.le_refl _, rfl, fun _ _ _ _ _ _ => Nat.zero_le _⟩
  · intro kind x hx
    cases kind <;> cases hx
  · exact fun index hindex _ => absurd hindex (hnone _ index)
  · exact Nat.zero_le _
  · exact .inl (Nat.zero_le _)
  · exact fun index hindex _ => absurd hindex (hnone _ index)

/-! ### Replacing -/

theorem lastBoundaryAtOrAfter_eq_some {kind : TranscriptReplayBoundaryKind} {minStart i : ℕ}
    (h : lastBoundaryAtOrAfter stream kind minStart = some i) :
    LastBoundary stream kind i ∧ minStart ≤ i := by
  have hge := lastBoundaryAtOrAfter_ge h
  obtain ⟨found, hlast, rfl⟩ := Option.map_eq_some_iff.1 h
  have hmem := List.mem_of_getLast? hlast
  obtain ⟨j, -, hj⟩ := List.mem_filterMap.1 (List.mem_of_mem_filter hmem)
  obtain ⟨-, rfl, hb⟩ := boundaryAt_eq_some_iff.1 hj
  refine ⟨⟨⟨_, hb⟩, fun other stop hother => ?_⟩, hge⟩
  by_contra hlater
  have hordered : (((List.range stream.length).filterMap (boundaryAt stream kind)).filter
      fun b => decide (minStart ≤ b.index)).Pairwise fun b c => b.index ≤ c.index := by
    refine List.Pairwise.filter _ (List.Pairwise.filterMap _ ?_ List.pairwise_lt_range)
    intro m n hlt b hm c hn
    obtain ⟨-, rfl, -⟩ := boundaryAt_eq_some_iff.1 hm
    obtain ⟨-, rfl, -⟩ := boundaryAt_eq_some_iff.1 hn
    exact Nat.le_of_lt hlt
  obtain ⟨init, heq⟩ := List.getLast?_eq_some_iff.1 hlast
  have hin : (⟨kind, other, stop⟩ : TranscriptReplayBoundary) ∈
      ((List.range stream.length).filterMap (boundaryAt stream kind)).filter
        fun b => decide (minStart ≤ b.index) := by
    have hbounds := hother.bounds
    refine List.mem_filter.2 ⟨List.mem_filterMap.2 ⟨other, List.mem_range.2 (by omega), ?_⟩, ?_⟩
    · exact boundaryAt_eq_some_iff.2 ⟨rfl, rfl, hother⟩
    · exact decide_eq_true (show minStart ≤ other by omega)
  rw [heq] at hordered hin
  obtain hin | hin := List.mem_append.1 hin
  · exact hlater ((List.pairwise_append.1 hordered).2.2 _ hin _ List.mem_cons_self)
  · rw [List.mem_singleton] at hin
    rw [← hin] at hlater
    exact hlater (Nat.le_refl _)

theorem lastBoundaryAtOrAfter_eq_none {kind : TranscriptReplayBoundaryKind} {minStart i stop : ℕ}
    (h : lastBoundaryAtOrAfter stream kind minStart = none) (hb : Boundary stream kind i stop) :
    i < minStart := by
  have hnil := List.getLast?_eq_none_iff.1 (Option.map_eq_none_iff.1 h)
  have hbounds := hb.bounds
  have hmem : (⟨kind, i, stop⟩ : TranscriptReplayBoundary) ∈
      (List.range stream.length).filterMap (boundaryAt stream kind) :=
    List.mem_filterMap.2 ⟨i, List.mem_range.2 (by omega),
      boundaryAt_eq_some_iff.2 ⟨rfl, rfl, hb⟩⟩
  have hearly := List.filter_eq_nil_iff.1 hnil _ hmem
  simpa using hearly

/-- What is retained of a text is a window of it. -/
theorem window_retainTranscriptTail (stream : Output) (softMaxChars hardMaxChars : ℕ) :
    Window softMaxChars hardMaxChars stream
      (retainTranscriptTail stream softMaxChars hardMaxChars).dropped := by
  rw [retainTranscriptTail]
  split
  · next hshort =>
    refine ⟨?_, .inl (Nat.zero_le _), fun _ _ _ => Nat.zero_le _⟩
    show (stream.drop 0).length ≤ _
    rw [List.length_drop]
    omega
  · next hlong =>
    dsimp only
    split
    · next altEnter halt =>
      obtain ⟨hlast, hreach⟩ := lastBoundaryAtOrAfter_eq_some halt
      refine ⟨?_, .inr (.inr ⟨altEnter, hlast, hreach, Nat.le_refl _⟩), ?_⟩
      · show (stream.drop altEnter).length ≤ _
        rw [List.length_drop]
        omega
      · exact fun index hindex _ => Nat.le_of_eq (hlast.unique hindex)
    · next hnone =>
      have hunreached : ∀ index, LastBoundary stream .altScreenEnter index →
          ¬ stream.length - max softMaxChars hardMaxChars ≤ index := by
        rintro index ⟨⟨stop, hb⟩, -⟩ hreach
        have hearly := lastBoundaryAtOrAfter_eq_none hnone hb
        omega
      cases hclear : lastBoundaryAtOrAfter stream .fullScreenClear
        (stream.length - softMaxChars) with
      | none =>
        refine ⟨?_, .inl (Nat.le_refl _), fun index hindex hreach =>
          absurd hreach (hunreached index hindex)⟩
        show (stream.drop (stream.length - softMaxChars)).length ≤ _
        rw [List.length_drop]
        omega
      | some clear =>
        obtain ⟨hlast, hreach⟩ := lastBoundaryAtOrAfter_eq_some hclear
        refine ⟨?_, .inr (.inl ⟨clear, hlast, Nat.le_refl _⟩), fun index hindex hreach =>
          absurd hreach (hunreached index hindex)⟩
        show (stream.drop clear).length ≤ _
        rw [List.length_drop]
        omega

/-- Remembering the boundaries of a window is remembering those of the stream. -/
theorem remembers_rememberBoundaries (hsoft : 8 ≤ softMaxChars)
    (hwindow : Window softMaxChars hardMaxChars stream dropped) (hle : dropped ≤ stream.length)
    (htail : a.tail = stream.drop dropped) (hoffset : a.offset = base + dropped)
    (hcarry : a.boundaryCarry = carry (stream.drop dropped))
    (hnone : ∀ kind, a.last kind = none) :
    a.rememberBoundaries.Remembers base (max softMaxChars hardMaxChars) stream := by
  have hindex : ∀ b : TranscriptReplayBoundary, a.offset + b.index = base + (dropped + b.index) :=
    fun b => by rw [hoffset, Nat.add_assoc]
  have hscan := last_scan stream dropped (fun _ => true) hindex a
  have hall : (scanTranscriptReplayBoundaries (stream.drop dropped)).filter (fun _ => true) =
      scanTranscriptReplayBoundaries a.tail := by
    rw [htail]
    exact List.filter_eq_self.2 fun _ _ => rfl
  rw [hall] at hscan
  have hcarried : a.rememberBoundaries.boundaryCarry = carry (stream.drop dropped) := by
    rw [← hcarry, rememberBoundaries]
    generalize scanTranscriptReplayBoundaries a.tail = boundaries
    induction boundaries using List.reverseRecOn with
    | nil => rfl
    | append_singleton boundaries b ih =>
      rw [List.foldl_append, ← ih]
      cases hkind : b.kind <;> simp [recordBoundary, hkind]
  refine ⟨?_, fun kind x hx => ?_, fun index hlast hreach => ?_⟩
  · rw [hcarried]
    exact Carries.carry ⟨dropped, hle, rfl, fun _ _ _ _ hb hstop =>
      hwindow.le_grown hsoft hb hstop⟩
  · obtain ⟨-, heq⟩ | ⟨i, stop, hb, -, hmax, heq⟩ := hscan kind
    · rw [rememberBoundaries, heq, hnone] at hx
      cases hx
    · rw [rememberBoundaries, heq] at hx
      refine ⟨dropped + i, (Option.some.inj hx).symm, ⟨_, hb⟩, fun other stop hother => ?_⟩
      have hbounds := hother.bounds
      by_contra hlater
      obtain ⟨j, rfl⟩ := Nat.exists_eq_add_of_le (show dropped ≤ other by omega)
      obtain ⟨stop', rfl⟩ := Nat.exists_eq_add_of_le (show dropped ≤ stop by omega)
      have hle := hmax j stop' hother rfl
      omega
  · have hin := hwindow.altScreen index hlast hreach
    obtain ⟨j, rfl⟩ := Nat.exists_eq_add_of_le hin
    obtain ⟨⟨stop, hb⟩, hafter⟩ := hlast
    have hbounds := hb.bounds
    obtain ⟨stop', rfl⟩ := Nat.exists_eq_add_of_le (show dropped ≤ stop by omega)
    obtain ⟨hmissed, -⟩ | ⟨i, stop, hfound, -, hmax, heq⟩ := hscan .altScreenEnter
    · cases hmissed j stop' hb
    · have hle := hmax j stop' hb rfl
      have hge := hafter _ _ hfound
      rw [rememberBoundaries, heq, show i = j by omega]

theorem tracks_replace (a : TranscriptTailAccumulator) (hsoft : 8 ≤ a.softMaxChars)
    (text : Output) (base : ℕ) :
    ∃ dropped, (a.replace text base).Tracks a.softMaxChars a.hardMaxChars base text dropped := by
  have hwindow := window_retainTranscriptTail text a.softMaxChars a.hardMaxChars
  have hpos : 0 < a.softMaxChars := by omega
  obtain ⟨htail, hlt, hnil⟩ := retainTranscriptTail_spec text a.hardMaxChars hpos
  obtain ⟨hlimit, hlimit', hkept, hoffset⟩ := replace_same a text base
  have hnext := (replace_spec (a := a) text base hpos).1.nextOffset_eq
  have hle : (retainTranscriptTail text a.softMaxChars a.hardMaxChars).dropped ≤ text.length := by
    by_cases hne : text = []
    · exact Nat.le_trans (Nat.le_of_eq (hnil hne)) (Nat.zero_le _)
    · exact Nat.le_of_lt (hlt hne)
  refine ⟨_, ⟨hlimit, hlimit', hle, hkept.trans htail, hoffset, ?_⟩, ?_, hwindow⟩
  · rw [hnext, hoffset, hkept, htail, List.length_drop]
    omega
  · apply remembers_rememberBoundaries hsoft hwindow hle htail rfl
    · rw [← htail]
    · intro kind
      cases kind <;> rfl

/-! ### Runs -/

/-- A call of the accumulator. -/
inductive TailCall where
  | append (chunk : Output)
  | replace (text : Output) (offset : ℕ)
  | clear
deriving DecidableEq, Repr

def TailCall.exec (a : TranscriptTailAccumulator) : TailCall → TranscriptTailAccumulator
  | .append chunk => a.append chunk
  | .replace text offset => a.replace text offset
  | .clear => a.clear

/-- A stream and the offset that it starts at, after a call. -/
def TailCall.grown (known : ℕ × Output) : TailCall → ℕ × Output
  | .append chunk => (known.1, known.2 ++ chunk)
  | .replace text offset => (offset, text)
  | .clear => (0, [])

def TailCall.execAll (softMaxChars hardMaxChars : ℕ) (calls : List TailCall) :
    TranscriptTailAccumulator :=
  calls.foldl exec { softMaxChars, hardMaxChars }

def TailCall.streamOf (calls : List TailCall) : ℕ × Output := calls.foldl grown (0, [])

theorem Tracks.exec (h : a.Tracks softMaxChars hardMaxChars base stream dropped)
    (hsoft : 8 ≤ softMaxChars) (call : TailCall) :
    ∃ dropped', (call.exec a).Tracks softMaxChars hardMaxChars (call.grown (base, stream)).1
      (call.grown (base, stream)).2 dropped' := by
  cases call with
  | append chunk => exact h.append hsoft chunk
  | replace text offset =>
    have hreplaced := tracks_replace a (h.holds.soft ▸ hsoft) text offset
    rw [h.holds.soft, h.holds.hard] at hreplaced
    exact hreplaced
  | clear =>
    have hempty := tracks_empty softMaxChars hardMaxChars
    have hclear : a.clear = { softMaxChars, hardMaxChars } := by
      rw [clear, h.holds.soft, h.holds.hard]
    exact ⟨0, by rw [TailCall.exec, hclear]; exact hempty⟩

theorem tracks_execAll (softMaxChars hardMaxChars : ℕ) (hsoft : 8 ≤ softMaxChars)
    (calls : List TailCall) :
    ∃ dropped, (TailCall.execAll softMaxChars hardMaxChars calls).Tracks softMaxChars hardMaxChars
      (TailCall.streamOf calls).1 (TailCall.streamOf calls).2 dropped := by
  induction calls using List.reverseRecOn with
  | nil => exact ⟨0, tracks_empty softMaxChars hardMaxChars⟩
  | append_singleton calls call ih =>
    obtain ⟨dropped, h⟩ := ih
    rw [TailCall.execAll, TailCall.streamOf, List.foldl_append, List.foldl_append]
    exact h.exec hsoft call

/-- After any calls the tail is the end of the stream, a window of the limits, and its offsets say
where it stands. -/
theorem tail_window {softMaxChars : ℕ} (hsoft : 16 ≤ softMaxChars) (hardMaxChars : ℕ)
    (calls : List TailCall) :
    ∃ dropped,
      (TailCall.execAll softMaxChars hardMaxChars calls).Holds softMaxChars hardMaxChars
        (TailCall.streamOf calls).1 (TailCall.streamOf calls).2 dropped ∧
      Window softMaxChars hardMaxChars (TailCall.streamOf calls).2 dropped := by
  obtain ⟨dropped, h⟩ := tracks_execAll softMaxChars hardMaxChars (by omega) calls
  exact ⟨dropped, h.holds, h.window⟩

/-- An alternate screen that comes after the start of the soft window, cut within its sequence. -/
def altScreenCalls : List TailCall :=
  [.append (List.replicate 20 0x78 ++ [0x1B, 0x5B]), .append (units "?1049hy")]

theorem tail_window_altScreen :
    ∃ dropped,
      (TailCall.execAll 16 64 altScreenCalls).Holds 16 64 (TailCall.streamOf altScreenCalls).1
        (TailCall.streamOf altScreenCalls).2 dropped ∧
      Window 16 64 (TailCall.streamOf altScreenCalls).2 dropped :=
  tail_window (by decide) 64 altScreenCalls

/-- The tail starts at the alternate screen, so it lacks a part of the soft window. -/
theorem altScreen_cuts_softWindow :
    ¬ ∃ dropped, (TailCall.execAll 16 64 altScreenCalls).tail =
        (TailCall.streamOf altScreenCalls).2.drop dropped ∧
      (dropped ≤ (TailCall.streamOf altScreenCalls).2.length - 16 ∨
        ∃ index, LastBoundary (TailCall.streamOf altScreenCalls).2 .fullScreenClear index ∧
          dropped ≤ index) := by
  have htail : (TailCall.execAll 16 64 altScreenCalls).tail.length = 9 := by decide +kernel
  have hlength : (TailCall.streamOf altScreenCalls).2.length = 29 := by decide +kernel
  have hclear : ∀ b ∈ scanTranscriptReplayBoundaries (TailCall.streamOf altScreenCalls).2,
      b.kind = .altScreenEnter := by decide +kernel
  rintro ⟨dropped, heq, hle | ⟨index, ⟨⟨stop, hb⟩, -⟩, -⟩⟩
  · rw [heq, List.length_drop] at htail
    omega
  · cases hclear ⟨.fullScreenClear, index, stop⟩ (mem_scan.2 hb)

end TranscriptTailAccumulator

end Orchestration.Pty
