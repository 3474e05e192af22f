import Orchestration.Library.Run
import Orchestration.OperatorIpc.TranscriptPushQueue

/-!
# What the operator is sent

The pieces that were sent and those that wait form one line. Along it, each agent's
generations do not go back, and the pieces of one generation stand one behind the other.
-/

namespace Orchestration.OperatorIpc

open Pty (Output)

variable {S : String → ℕ → Output} {agentId : String} {generation offset : ℕ} {chunk : Output}
  {line sent pending pieces whole base : List PendingTranscriptPush}

/-! ## The line -/

/-- Of one agent, `q` is of a newer generation, or further on in the same one. -/
def Before (p q : PendingTranscriptPush) : Prop :=
  p.agentId = q.agentId →
    p.generation < q.generation ∨ p.generation = q.generation ∧ p.stop ≤ q.offset

/-- Every piece is a part of its stream, and comes before the later ones. -/
structure InOrder (S : String → ℕ → Output) (line : List PendingTranscriptPush) : Prop where
  faithful : ∀ p ∈ line, Slice.At (S p.agentId p.generation) p.offset p.chunk
  ordered : line.Pairwise Before

/-- The agent's pieces in the line come before what starts at `offset` in the generation. -/
def Behind (line : List PendingTranscriptPush) (agentId : String) (generation offset : ℕ) :
    Prop :=
  ∀ p ∈ line, p.agentId = agentId →
    p.generation < generation ∨ p.generation = generation ∧ p.stop ≤ offset

theorem InOrder.shrinks (h : InOrder S whole) (hshrinks : Shrinks pieces whole) :
    InOrder S pieces := by
  refine ⟨fun p hp => ?_, hshrinks.pairwise ?_ h.ordered⟩
  · obtain ⟨q, hq, hagent, hgeneration, k, -, hoffset, hchunk⟩ := hshrinks.exists_cut p hp
    rw [hagent, hgeneration, hoffset, hchunk]
    exact (h.faithful q hq).drop k
  · intro p p' q q' hp hq hbefore hagent
    have hbefore := hbefore (hp.1.symm.trans (hagent.trans hq.1))
    rw [hp.2.1, hq.2.1, hp.stop_eq]
    have := hq.offset_le
    omega

theorem Behind.shrinks (h : Behind whole agentId generation offset)
    (hshrinks : Shrinks pieces whole) : Behind pieces agentId generation offset := by
  intro p hp hagent
  obtain ⟨q, hq, hcut⟩ := hshrinks.exists_cut p hp
  rw [hcut.2.1, hcut.stop_eq]
  exact h q hq (hcut.1.symm.trans hagent)

theorem Behind.mono {offset' : ℕ} (h : Behind line agentId generation offset)
    (hle : offset ≤ offset') : Behind line agentId generation offset' := by
  intro p hp hagent
  have := h p hp hagent
  omega

theorem Behind.of_generation {generation' offset' : ℕ}
    (h : Behind line agentId generation offset) (hlt : generation < generation') :
    Behind line agentId generation' offset' := by
  intro p hp hagent
  have := h p hp hagent
  omega

/-- A piece is added to the end of the line. -/
theorem InOrder.concat (h : InOrder S line) (hbehind : Behind line agentId generation offset)
    (hat : Slice.At (S agentId generation) offset chunk) :
    InOrder S (line ++ [⟨agentId, generation, offset, chunk⟩]) ∧
      Behind (line ++ [⟨agentId, generation, offset, chunk⟩]) agentId generation
        (offset + chunk.length) := by
  refine ⟨⟨fun p hp => ?_, List.pairwise_append.2 ⟨h.ordered, List.pairwise_singleton _ _, ?_⟩⟩, ?_⟩
  · obtain hp | hp := List.mem_append.1 hp
    · exact h.faithful p hp
    · rw [List.mem_singleton.1 hp]
      exact hat
  · intro p hp q hq hagent
    rw [List.mem_singleton.1 hq] at hagent ⊢
    exact hbehind p hp hagent
  · intro p hp hagent
    obtain hp | hp := List.mem_append.1 hp
    · exact (hbehind.mono (Nat.le_add_right _ _)) p hp hagent
    · rw [List.mem_singleton.1 hp]
      exact .inr ⟨rfl, Nat.le_refl _⟩

/-- A piece is joined to the last one of its agent, which it continues. -/
theorem InOrder.joined {before after : List PendingTranscriptPush} {last : PendingTranscriptPush}
    (h : InOrder S (before ++ last :: after))
    (hat : Slice.At (S last.agentId last.generation) last.stop chunk)
    (hafter : ∀ q ∈ after, q.agentId ≠ last.agentId) :
    InOrder S (before ++ { last with chunk := last.chunk ++ chunk } :: after) := by
  obtain ⟨hbefore, hlast, hacross⟩ := List.pairwise_append.1 h.ordered
  obtain ⟨-, hrest⟩ := List.pairwise_cons.1 hlast
  refine ⟨fun p hp => ?_, List.pairwise_append.2 ⟨hbefore, List.pairwise_cons.2 ⟨?_, hrest⟩, ?_⟩⟩
  · obtain hp | hp := List.mem_append.1 hp
    · exact h.faithful p (List.mem_append_left _ hp)
    · obtain rfl | hp := List.mem_cons.1 hp
      · have hold := h.faithful last (List.mem_append_right _ List.mem_cons_self)
        exact hold.append hat
      · exact h.faithful p (List.mem_append_right _ (List.mem_cons_of_mem _ hp))
  · intro q hq hagent
    exact absurd hagent.symm (hafter q hq)
  · intro p hp q hq hagent
    obtain rfl | hq := List.mem_cons.1 hq
    · exact hacross p hp last List.mem_cons_self hagent
    · exact hacross p hp q (List.mem_cons_of_mem _ hq) hagent

/-- The line is extended by one piece. -/
theorem InOrder.extended (h : InOrder S (sent ++ base))
    (hbehind : Behind (sent ++ base) agentId generation offset)
    (hat : Slice.At (S agentId generation) offset chunk)
    (hextended : Extended agentId generation offset chunk base whole) :
    InOrder S (sent ++ whole) ∧
      Behind (sent ++ whole) agentId generation (offset + chunk.length) := by
  cases hextended with
  | added base =>
    rw [← List.append_assoc]
    exact h.concat hbehind hat
  | joined before last after hagent hgeneration hstop hafter =>
    subst hagent hgeneration hstop
    rw [← List.append_assoc] at h hbehind ⊢
    refine ⟨h.joined hat hafter, fun p hp hagent => ?_⟩
    obtain hp | hp := List.mem_append.1 hp
    · exact (hbehind.mono (Nat.le_add_right _ _)) p (List.mem_append_left _ hp) hagent
    · obtain rfl | hp := List.mem_cons.1 hp
      · refine .inr ⟨rfl, ?_⟩
        simp only [PendingTranscriptPush.stop, List.length_append]
        omega
      · exact absurd hagent (hafter p hp)

/-- The pieces of the other agents stay as they are. -/
theorem Extended.mem_of_ne {p : PendingTranscriptPush}
    (h : Extended agentId generation offset chunk base whole) (hp : p ∈ whole)
    (hagent : p.agentId ≠ agentId) : p ∈ base := by
  cases h with
  | added base =>
    obtain hp | hp := List.mem_append.1 hp
    · exact hp
    · rw [List.mem_singleton.1 hp] at hagent
      exact absurd rfl hagent
  | joined before last after hlast =>
    obtain hp | hp := List.mem_append.1 hp
    · exact List.mem_append_left _ hp
    · obtain rfl | hp := List.mem_cons.1 hp
      · exact absurd hlast hagent
      · exact List.mem_append_right _ (List.mem_cons_of_mem _ hp)

theorem Extended.generation_eq (h : Extended agentId generation offset chunk base whole)
    (hbase : ∀ p ∈ base, p.agentId = agentId → p.generation = generation) :
    ∀ p ∈ whole, p.agentId = agentId → p.generation = generation := by
  intro p hp hagent
  cases h with
  | added base =>
    obtain hp | hp := List.mem_append.1 hp
    · exact hbase p hp hagent
    · rw [List.mem_singleton.1 hp]
  | joined before last after _ hgeneration =>
    obtain hp | hp := List.mem_append.1 hp
    · exact hbase p (List.mem_append_left _ hp) hagent
    · obtain rfl | hp := List.mem_cons.1 hp
      · exact hgeneration
      · exact hbase p (List.mem_append_right _ (List.mem_cons_of_mem _ hp)) hagent

/-! ## Pieces of one chunk -/

/-- The pieces are the chunk, cut into parts that are not too long. -/
def Consecutive : ℕ → List (ℕ × Output) → Output → Prop
  | _, [], chunk => chunk = []
  | offset, piece :: pieces, chunk =>
    piece.1 = offset ∧ piece.2.length ≤ TRANSCRIPT_PENDING_MAX_CHARS ∧
      ∃ rest, chunk = piece.2 ++ rest ∧ Consecutive (offset + piece.2.length) pieces rest

theorem splitLoop_consecutive {count : ℕ} (h : chunk.length ≤ count) :
    Consecutive offset (splitLoop count offset chunk) chunk := by
  induction count generalizing offset chunk with
  | zero => exact List.length_eq_zero_iff.1 (Nat.le_zero.1 h)
  | succ count ih =>
    rw [splitLoop]
    split
    · assumption
    · rename_i hne
      have hpos := List.length_pos_iff.2 hne
      have hmax : 0 < TRANSCRIPT_PENDING_MAX_CHARS := by decide
      refine ⟨rfl, List.length_take_le _ _, chunk.drop TRANSCRIPT_PENDING_MAX_CHARS,
        (List.take_append_drop _ _).symm, ?_⟩
      have hrest : (chunk.drop TRANSCRIPT_PENDING_MAX_CHARS).length ≤ count := by
        rw [List.length_drop]
        omega
      by_cases hfull : TRANSCRIPT_PENDING_MAX_CHARS ≤ chunk.length
      · have hlength : (chunk.take TRANSCRIPT_PENDING_MAX_CHARS).length =
            TRANSCRIPT_PENDING_MAX_CHARS := by
          rw [List.length_take]
          omega
        rw [hlength]
        exact ih hrest
      · have hnil : chunk.drop TRANSCRIPT_PENDING_MAX_CHARS = [] :=
          List.drop_eq_nil_of_le (by omega)
        rw [hnil]
        cases count with
        | zero => rfl
        | succ count => rfl

theorem splitTranscriptPush_consecutive (chunk : Output) (offset : ℕ) :
    Consecutive offset (splitTranscriptPush chunk offset) chunk := by
  unfold splitTranscriptPush
  split
  · rename_i hshort
    exact ⟨rfl, hshort, [], (List.append_nil _).symm, rfl⟩
  · exact splitLoop_consecutive (Nat.le_refl _)

/-! ## Queueing -/

/-- What holds of the line and the queue while the agent's stream is queued up to `offset`. -/
structure Queueing (S : String → ℕ → Output) (sent : List PendingTranscriptPush)
    (agentId : String) (generation offset : ℕ) (pending : List PendingTranscriptPush) : Prop where
  inOrder : InOrder S (sent ++ pending)
  behind : Behind (sent ++ pending) agentId generation offset
  bounded : Bounded pending

/-- The pieces of the other agents are what is left of those in `whole`. -/
def OthersFrom (agentId : String) (pieces whole : List PendingTranscriptPush) : Prop :=
  ∀ p ∈ pieces, p.agentId ≠ agentId → ∃ q ∈ whole, Cut p q

theorem OthersFrom.refl (pieces : List PendingTranscriptPush) : OthersFrom agentId pieces pieces :=
  fun p hp _ => ⟨p, hp, Cut.refl p⟩

theorem OthersFrom.trans {part : List PendingTranscriptPush} (h : OthersFrom agentId part pieces)
    (h' : OthersFrom agentId pieces whole) : OthersFrom agentId part whole := by
  intro p hp hagent
  obtain ⟨q, hq, hcut⟩ := h p hp hagent
  obtain ⟨r, hr, hcut'⟩ := h' q hq (by rw [← hcut.1]; exact hagent)
  exact ⟨r, hr, hcut.trans hcut'⟩

theorem Queueing.piece (h : Queueing S sent agentId generation offset pending)
    (hlength : chunk.length ≤ TRANSCRIPT_PENDING_MAX_CHARS)
    (hat : Slice.At (S agentId generation) offset chunk) :
    Queueing S sent agentId generation (offset + chunk.length)
        (queueTranscriptPiece agentId generation chunk offset pending) ∧
      OthersFrom agentId (queueTranscriptPiece agentId generation chunk offset pending)
        pending := by
  by_cases hchunk : chunk = []
  · rw [queueTranscriptPiece, if_pos hchunk, hchunk]
    exact ⟨h, .refl pending⟩
  · obtain ⟨base, whole, hbase, hextended, hshrinks⟩ : ∃ base whole, base.Sublist pending ∧
        Extended agentId generation offset chunk base whole ∧
        Shrinks (queueTranscriptPiece agentId generation chunk offset pending) whole :=
      queueTranscriptPiece_extended hchunk hlength
    have hkept := (Shrinks.of_sublist hbase).append_left sent
    obtain ⟨hinOrder, hbehind⟩ :=
      (h.inOrder.shrinks hkept).extended (h.behind.shrinks hkept) hat hextended
    have hline := hshrinks.append_left sent
    refine ⟨⟨hinOrder.shrinks hline, hbehind.shrinks hline,
      queueTranscriptPiece_bounded h.bounded hlength⟩, fun p hp hagent => ?_⟩
    obtain ⟨q, hq, hcut⟩ := hshrinks.exists_cut p hp
    have hqbase := hextended.mem_of_ne hq (by rw [← hcut.1]; exact hagent)
    exact ⟨q, hbase.subset hqbase, hcut⟩

theorem Queueing.pushes {pushes : List (ℕ × Output)}
    (h : Queueing S sent agentId generation offset pending)
    (hpushes : Consecutive offset pushes chunk)
    (hat : Slice.At (S agentId generation) offset chunk) :
    Queueing S sent agentId generation (offset + chunk.length)
        (queueTranscriptPushes generation agentId pushes pending) ∧
      OthersFrom agentId (queueTranscriptPushes generation agentId pushes pending) pending := by
  induction pushes generalizing offset chunk pending with
  | nil =>
    rw [show chunk = [] from hpushes]
    exact ⟨h, .refl pending⟩
  | cons push pushes ih =>
    obtain ⟨hoffset, hlength, rest, rfl, hrest⟩ := hpushes
    subst hoffset
    have hfirst : Slice.At (S agentId generation) push.1 push.2 := by
      have htake := hat.take push.2.length
      rwa [List.take_left] at htake
    have hlater : Slice.At (S agentId generation) (push.1 + push.2.length) rest := by
      have hdrop := hat.drop push.2.length
      rwa [List.drop_left] at hdrop
    obtain ⟨hqueued, hothers⟩ := h.piece hlength hfirst
    obtain ⟨hdone, hothers'⟩ := ih hqueued hrest hlater
    rw [List.length_append, ← Nat.add_assoc]
    exact ⟨hdone, hothers'.trans hothers⟩

/-! ## Queueing without loss -/

/-- The text of the generation in the pieces. -/
def textOf (agentId : String) (generation : ℕ) (pieces : List PendingTranscriptPush) : Output :=
  (pieces.filter (PendingTranscriptPush.isOf agentId generation)).flatMap
    PendingTranscriptPush.chunk

theorem textOf_append : textOf agentId generation (pieces ++ whole) =
    textOf agentId generation pieces ++ textOf agentId generation whole := by
  simp [textOf]

theorem textOf_eq_nil (h : ∀ p ∈ pieces, p.agentId = agentId → p.generation ≠ generation) :
    textOf agentId generation pieces = [] := by
  have hnone : pieces.filter (PendingTranscriptPush.isOf agentId generation) = [] := by
    rw [List.filter_eq_nil_iff]
    intro p hp hof
    simp only [PendingTranscriptPush.isOf, Bool.and_eq_true, decide_eq_true_eq] at hof
    exact h p hp hof.1 hof.2
  rw [textOf, hnone]
  rfl

theorem isOf_eq_false {other : String} {g : ℕ} {p : PendingTranscriptPush}
    (h : p.agentId ≠ other) : PendingTranscriptPush.isOf other g p = false := by
  simp [PendingTranscriptPush.isOf, h]

/-- The pieces of a generation, when the line is extended by one of its pieces. -/
theorem Extended.filter_isOf (h : Extended agentId generation offset chunk base whole) :
    (∀ other, other ≠ agentId → ∀ g, whole.filter (PendingTranscriptPush.isOf other g) =
        base.filter (PendingTranscriptPush.isOf other g)) ∧
      textOf agentId generation whole = textOf agentId generation base ++ chunk ∧
      ∃ last ∈ (whole.filter (PendingTranscriptPush.isOf agentId generation)).getLast?,
        last.stop = offset + chunk.length := by
  cases h with
  | added base =>
    refine ⟨fun other hother g => ?_, ?_, ?_⟩
    · rw [List.filter_append, List.filter_cons_of_neg (by
        rw [isOf_eq_false (fun heq => hother heq.symm)]
        exact Bool.false_ne_true), List.filter_nil, List.append_nil]
    · rw [textOf_append]
      simp [textOf, PendingTranscriptPush.isOf]
    · refine ⟨⟨agentId, generation, offset, chunk⟩, ?_, rfl⟩
      rw [List.filter_append]
      simp [PendingTranscriptPush.isOf]
  | joined before last after hagent hgeneration hstop hafter =>
    have hof : PendingTranscriptPush.isOf agentId generation last = true := by
      simp [PendingTranscriptPush.isOf, hagent, hgeneration]
    have hof' : PendingTranscriptPush.isOf agentId generation
        { last with chunk := last.chunk ++ chunk } = true := hof
    have hnone : after.filter (PendingTranscriptPush.isOf agentId generation) = [] := by
      rw [List.filter_eq_nil_iff]
      intro q hq
      rw [isOf_eq_false (hafter q hq)]
      exact Bool.false_ne_true
    refine ⟨fun other hother g => ?_, ?_, { last with chunk := last.chunk ++ chunk }, ?_, ?_⟩
    · have hnot : ¬ PendingTranscriptPush.isOf other g last = true := by
        rw [isOf_eq_false (by rw [hagent]; exact fun heq => hother heq.symm)]
        exact Bool.false_ne_true
      have hnot' : ¬ PendingTranscriptPush.isOf other g
        { last with chunk := last.chunk ++ chunk } = true := hnot
      rw [List.filter_append, List.filter_append, List.filter_cons_of_neg hnot,
        List.filter_cons_of_neg hnot']
    · rw [textOf, textOf, List.filter_append, List.filter_append, List.filter_cons_of_pos hof,
        List.filter_cons_of_pos hof', hnone]
      simp
    · rw [List.filter_append, List.filter_cons_of_pos hof', hnone]
      simp
    · rw [← hstop]
      simp only [PendingTranscriptPush.stop, List.length_append]
      omega

/-- Queueing `chunk` has added it to its agent's text, and dropped at most older generations. -/
structure Gathered (agentId : String) (generation offset : ℕ) (chunk : Output)
    (pending result : List PendingTranscriptPush) : Prop where
  others : ∀ other, other ≠ agentId → ∀ g, result.filter (PendingTranscriptPush.isOf other g) =
    pending.filter (PendingTranscriptPush.isOf other g)
  text : textOf agentId generation result = textOf agentId generation pending ++ chunk
  older : ∀ g, g ≠ generation → textOf agentId g result <+: textOf agentId g pending
  last : ∀ p ∈ (result.filter (PendingTranscriptPush.isOf agentId generation)).getLast?,
    p.stop = offset + chunk.length
  backlog_le : backlog agentId (purge agentId generation result) ≤
    backlog agentId (purge agentId generation pending) + chunk.length
  agents : ∀ p ∈ result, p.agentId = agentId ∨ ∃ q ∈ pending, q.agentId = p.agentId

theorem filter_purge (other : String) (g : ℕ) (h : other ≠ agentId ∨ g = generation) :
    (purge agentId generation pending).filter (PendingTranscriptPush.isOf other g) =
      pending.filter (PendingTranscriptPush.isOf other g) := by
  rw [purge, List.filter_filter]
  apply List.filter_congr
  intro p _
  by_cases hof : PendingTranscriptPush.isOf other g p = true
  · simp only [PendingTranscriptPush.isOf, Bool.and_eq_true, decide_eq_true_eq] at hof
    obtain ⟨rfl, rfl⟩ := hof
    obtain hother | rfl := h
    · simp [hother]
    · simp
  · simp [hof]

theorem queuedAgents_concat (p : PendingTranscriptPush) :
    queuedAgents (pending ++ [p]) =
      (insert p.agentId (pending.map PendingTranscriptPush.agentId).toFinset).card := by
  rw [queuedAgents]
  congr 1
  ext agentId
  simp

theorem queueTranscriptPiece_gathered
    (hlength : chunk.length ≤ TRANSCRIPT_PENDING_MAX_CHARS)
    (hlast : ∀ p ∈ (pending.filter (PendingTranscriptPush.isOf agentId generation)).getLast?,
      p.stop = offset)
    (hfits : backlog agentId (purge agentId generation pending) + chunk.length ≤
      TRANSCRIPT_PENDING_MAX_CHARS_PER_AGENT)
    (hagents : chunk ≠ [] →
      (insert agentId (pending.map PendingTranscriptPush.agentId).toFinset).card ≤
        TRANSCRIPT_PENDING_MAX_AGENTS) :
    Gathered agentId generation offset chunk pending
      (queueTranscriptPiece agentId generation chunk offset pending) := by
  by_cases hchunk : chunk = []
  · rw [queueTranscriptPiece, if_pos hchunk, hchunk]
    exact ⟨fun _ _ _ => rfl, (List.append_nil _).symm, fun _ _ => List.prefix_refl _, hlast,
      Nat.le_refl _, fun p hp => .inr ⟨p, hp, rfl⟩⟩
  · have hextended := queueTranscriptPiece_kept hchunk hlength hfits
      (by rw [queuedAgents_concat]; exact hagents hchunk) (by
        intro before last after heq hagent hafter
        apply hlast
        have hmem : last ∈ purge agentId generation pending := by
          rw [heq]
          exact List.mem_append_right _ List.mem_cons_self
        have hgeneration := generation_of_purge hmem hagent
        have hof : PendingTranscriptPush.isOf agentId generation last = true := by
          simp [PendingTranscriptPush.isOf, hagent, hgeneration]
        have hnone : after.filter (PendingTranscriptPush.isOf agentId generation) = [] := by
          rw [List.filter_eq_nil_iff]
          intro q hq
          rw [isOf_eq_false (hafter q hq)]
          exact Bool.false_ne_true
        have hpurge : (purge agentId generation pending).filter
            (PendingTranscriptPush.isOf agentId generation) =
              pending.filter (PendingTranscriptPush.isOf agentId generation) :=
          filter_purge agentId generation (.inr rfl)
        rw [← hpurge, heq, List.filter_append, List.filter_cons_of_pos hof, hnone]
        simp)
    obtain ⟨hothers, htext, last, hmem, hstop⟩ := hextended.filter_isOf
    refine ⟨fun other hother g => ?_, ?_, fun g hg => ?_, fun p hp => ?_, ?_, fun p hp => ?_⟩
    · rw [hothers other hother g, filter_purge other g (.inl hother)]
    · rw [htext]
      congr 1
      rw [textOf, textOf, filter_purge agentId generation (.inr rfl)]
    · have hnil := hextended.generation_eq fun p hp => generation_of_purge hp
      rw [textOf_eq_nil fun p hp hagent heq => hg (heq.symm.trans (hnil p hp hagent))]
      exact List.nil_prefix
    · rw [Option.mem_def] at hp hmem
      rw [hp] at hmem
      obtain rfl := Option.some.inj hmem
      exact hstop
    · rw [← hextended.backlog_self]
      exact (Shrinks.of_sublist purge_sublist).backlog_le agentId
    · by_cases hagent : p.agentId = agentId
      · exact .inl hagent
      · exact .inr ⟨p, purge_sublist.subset (hextended.mem_of_ne hp hagent), rfl⟩

theorem Gathered.refl (hlast : ∀ p ∈ (pending.filter
      (PendingTranscriptPush.isOf agentId generation)).getLast?, p.stop = offset) :
    Gathered agentId generation offset [] pending pending :=
  ⟨fun _ _ _ => rfl, (List.append_nil _).symm, fun _ _ => List.prefix_refl _, hlast,
    Nat.le_refl _, fun p hp => .inr ⟨p, hp, rfl⟩⟩

theorem Gathered.trans {rest : Output} {middle result : List PendingTranscriptPush}
    (h : Gathered agentId generation offset chunk pending middle)
    (h' : Gathered agentId generation (offset + chunk.length) rest middle result) :
    Gathered agentId generation offset (chunk ++ rest) pending result := by
  refine ⟨fun other hother g => (h'.others other hother g).trans (h.others other hother g), ?_,
    fun g hg => (h'.older g hg).trans (h.older g hg), fun p hp => ?_, ?_, fun p hp => ?_⟩
  · rw [h'.text, h.text, List.append_assoc]
  · rw [h'.last p hp, List.length_append, Nat.add_assoc]
  · have hle := h.backlog_le
    have hle' := h'.backlog_le
    rw [List.length_append]
    omega
  · obtain hagent | ⟨q, hq, heq⟩ := h'.agents p hp
    · exact .inl hagent
    · rw [← heq]
      exact h.agents q hq

theorem queueTranscriptPushes_gathered {pushes : List (ℕ × Output)}
    (hpushes : Consecutive offset pushes chunk)
    (hlast : ∀ p ∈ (pending.filter (PendingTranscriptPush.isOf agentId generation)).getLast?,
      p.stop = offset)
    (hfits : backlog agentId (purge agentId generation pending) + chunk.length ≤
      TRANSCRIPT_PENDING_MAX_CHARS_PER_AGENT)
    (hagents : chunk ≠ [] →
      (insert agentId (pending.map PendingTranscriptPush.agentId).toFinset).card ≤
        TRANSCRIPT_PENDING_MAX_AGENTS) :
    Gathered agentId generation offset chunk pending
      (queueTranscriptPushes generation agentId pushes pending) := by
  induction pushes generalizing offset chunk pending with
  | nil =>
    rw [show chunk = [] from hpushes]
    exact .refl hlast
  | cons push pushes ih =>
    obtain ⟨hoffset, hlength, rest, rfl, hrest⟩ := hpushes
    subst hoffset
    rw [List.length_append] at hfits
    have hpiece : Gathered agentId generation push.1 push.2 pending
        (queueTranscriptPiece agentId generation push.2 push.1 pending) :=
      queueTranscriptPiece_gathered hlength hlast (by omega) fun hne =>
        hagents (List.append_ne_nil_of_left_ne_nil hne _)
    refine hpiece.trans (ih hrest hpiece.last ?_ fun hne => ?_)
    · have := hpiece.backlog_le
      omega
    · refine le_trans (Finset.card_le_card fun other hmem => ?_)
        (hagents (List.append_ne_nil_of_right_ne_nil _ hne))
      rw [Finset.mem_insert, List.mem_toFinset, List.mem_map] at hmem ⊢
      obtain rfl | ⟨p, hp, rfl⟩ := hmem
      · exact .inl rfl
      · obtain hagent | hold := hpiece.agents p hp
        · exact .inl hagent
        · exact .inr hold

/-! ## The server's state -/

namespace TranscriptPusher

/-- The newest push of the agent. -/
def lastProduced (agentId : String) (s : TranscriptPusher) : Option PendingTranscriptPush :=
  (s.produced.filter fun p => p.agentId = agentId).getLast?

/-- A push is a part of its stream, and goes on where its agent's last push ended, or starts a
newer generation. -/
def Valid (S : String → ℕ → Output) (op : Op) (s : TranscriptPusher) : Prop :=
  match op with
  | .push agentId generation chunk offset =>
    Slice.At (S agentId generation) offset chunk ∧
      ∀ last ∈ s.lastProduced agentId,
        last.generation < generation ∨ last.generation = generation ∧ last.stop = offset
  | _ => True

/-- What holds between two steps. -/
structure Sound (S : String → ℕ → Output) (s : TranscriptPusher) : Prop where
  inOrder : InOrder S (s.sent ++ s.pendingTranscriptPushes)
  behind : ∀ p ∈ s.sent ++ s.pendingTranscriptPushes, ∃ last ∈ s.lastProduced p.agentId,
    p.generation < last.generation ∨ p.generation = last.generation ∧ p.stop ≤ last.stop
  bounded : Bounded s.pendingTranscriptPushes
  unsettled_eq : s.unsettled = if s.transcriptPushInFlight then 1 else 0
  idle : s.transcriptPushInFlight = false → s.pendingTranscriptPushes = []

variable {s : TranscriptPusher} {op : Op}

theorem sound_init : Sound S {} := by
  refine ⟨⟨?_, List.Pairwise.nil⟩, ?_, bounded_nil, rfl, fun _ => rfl⟩
  · intro p hp
    cases hp
  · intro p hp
    cases hp

theorem lastProduced_concat (p : PendingTranscriptPush) (agentId : String)
    (s : TranscriptPusher) :
    lastProduced agentId { s with produced := s.produced ++ [p] } =
      if p.agentId = agentId then some p else s.lastProduced agentId := by
  unfold lastProduced
  by_cases hagent : p.agentId = agentId
  · simp [hagent]
  · simp [hagent]

/-- The line is behind what a valid push brings. -/
theorem Sound.behind_push (h : s.Sound S)
    (hlast : ∀ last ∈ s.lastProduced agentId,
      last.generation < generation ∨ last.generation = generation ∧ last.stop = offset) :
    Behind (s.sent ++ s.pendingTranscriptPushes) agentId generation offset := by
  intro p hp hagent
  obtain ⟨last, hmem, hle⟩ := h.behind p hp
  rw [hagent] at hmem
  have := hlast last hmem
  omega

/-- The line, with what a push adds to it, is behind what was pushed last. -/
theorem Sound.behind_pushed {pushed : List PendingTranscriptPush} (h : s.Sound S)
    (hothers : ∀ p ∈ pushed, p.agentId ≠ agentId →
      ∃ q ∈ s.sent ++ s.pendingTranscriptPushes, Cut p q)
    (hbehind : Behind pushed agentId generation (offset + chunk.length)) :
    ∀ p ∈ pushed, ∃ last ∈ lastProduced p.agentId { s with
        produced := s.produced ++ [⟨agentId, generation, offset, chunk⟩] },
      p.generation < last.generation ∨ p.generation = last.generation ∧ p.stop ≤ last.stop := by
  intro p hp
  rw [lastProduced_concat]
  by_cases hagent : agentId = p.agentId
  · rw [if_pos hagent]
    exact ⟨_, rfl, hbehind p hp hagent.symm⟩
  · rw [if_neg hagent]
    obtain ⟨q, hq, hcut⟩ := hothers p hp fun heq => hagent heq.symm
    rw [hcut.1, hcut.2.1, hcut.stop_eq]
    exact h.behind q hq

theorem Sound.push (h : s.Sound S) (hvalid : Valid S (.push agentId generation chunk offset) s) :
    (step (.push agentId generation chunk offset) s).Sound S := by
  obtain ⟨hat, hlast⟩ := hvalid
  have hbehind := h.behind_push hlast
  have hsplit := splitTranscriptPush_consecutive chunk offset
  simp only [step, pushTranscript]
  split
  · refine ⟨h.inOrder, h.behind_pushed (fun p hp _ => ⟨p, hp, Cut.refl p⟩)
      (hbehind.mono (Nat.le_add_right _ _)), h.bounded, h.unsettled_eq, h.idle⟩
  · split
    · refine ⟨h.inOrder, h.behind_pushed (fun p hp _ => ⟨p, hp, Cut.refl p⟩)
        (hbehind.mono (Nat.le_add_right _ _)), h.bounded, h.unsettled_eq, h.idle⟩
    · rename_i first rest hpieces
      rw [hpieces] at hsplit
      split
      · rename_i hflight
        obtain ⟨hqueued, hothers⟩ := Queueing.pushes ⟨h.inOrder, hbehind, h.bounded⟩ hsplit hat
        refine ⟨hqueued.inOrder, h.behind_pushed (fun p hp hagent => ?_) hqueued.behind,
          hqueued.bounded, h.unsettled_eq, fun hidle => ?_⟩
        · obtain hp | hp := List.mem_append.1 hp
          · exact ⟨p, List.mem_append_left _ hp, Cut.refl p⟩
          · obtain ⟨q, hq, hcut⟩ := hothers p hp hagent
            exact ⟨q, List.mem_append_right _ hq, hcut⟩
        · exact absurd (hflight : s.transcriptPushInFlight = true) (by rw [hidle]; decide)
      · rename_i hflight
        have hflight : s.transcriptPushInFlight = false := Bool.eq_false_iff.2 hflight
        have hempty := h.idle hflight
        obtain ⟨hoffset, hlength, later, rfl, hrest⟩ := hsplit
        subst hoffset
        have hfirst : Slice.At (S agentId generation) first.1 first.2 := by
          have htake := hat.take first.2.length
          rwa [List.take_left] at htake
        have hlater : Slice.At (S agentId generation) (first.1 + first.2.length) later := by
          have hdrop := hat.drop first.2.length
          rwa [List.drop_left] at hdrop
        have hinOrder := h.inOrder
        rw [hempty, List.append_nil] at hinOrder hbehind
        obtain ⟨hinOrder', hbehind'⟩ := hinOrder.concat hbehind hfirst
        -- The first piece is sent ahead of the others, which wait behind it.
        have hstart : Queueing S (s.sent ++ [⟨agentId, generation, first.1, first.2⟩]) agentId
            generation (first.1 + first.2.length) [] := by
          refine ⟨?_, ?_, bounded_nil⟩
          · rw [List.append_nil]
            exact hinOrder'
          · rw [List.append_nil]
            exact hbehind'
        obtain ⟨hqueued, hothers⟩ := hstart.pushes hrest hlater
        rw [hempty]
        refine ⟨hqueued.inOrder, h.behind_pushed (fun p hp hagent => ?_) ?_, hqueued.bounded, ?_,
          fun hidle => ?_⟩
        · rw [hempty, List.append_nil]
          obtain hp | hp := List.mem_append.1 hp
          · obtain hp | hp := List.mem_append.1 hp
            · exact ⟨p, hp, Cut.refl p⟩
            · rw [List.mem_singleton.1 hp] at hagent
              exact absurd rfl hagent
          · obtain ⟨q, hq, -⟩ := hothers p hp hagent
            cases hq
        · rw [List.length_append, ← Nat.add_assoc]
          exact hqueued.behind
        · show s.unsettled + 1 = 1
          rw [h.unsettled_eq, hflight]
          rfl
        · cases hidle

theorem Sound.shrinks {t : TranscriptPusher} (h : s.Sound S) (hproduced : t.produced = s.produced)
    (hline : Shrinks (t.sent ++ t.pendingTranscriptPushes)
      (s.sent ++ s.pendingTranscriptPushes))
    (hbounded : Bounded t.pendingTranscriptPushes)
    (hunsettled : t.unsettled = if t.transcriptPushInFlight then 1 else 0)
    (hidle : t.transcriptPushInFlight = false → t.pendingTranscriptPushes = []) : t.Sound S := by
  refine ⟨h.inOrder.shrinks hline, fun p hp => ?_, hbounded, hunsettled, hidle⟩
  obtain ⟨q, hq, hcut⟩ := hline.exists_cut p hp
  rw [lastProduced, hproduced, hcut.1, hcut.2.1, hcut.stop_eq]
  exact h.behind q hq

theorem Sound.giveUp {t : TranscriptPusher} (h : s.Sound S) (hproduced : t.produced = s.produced)
    (hsent : t.sent = s.sent) (hunsettled : t.unsettled = 0) : t.giveUp.Sound S := by
  refine h.shrinks hproduced ?_ bounded_nil hunsettled fun _ => rfl
  show Shrinks (t.sent ++ []) _
  rw [hsent, List.append_nil]
  exact .of_sublist (List.sublist_append_left _ _)

theorem Sound.unsettled_pred (h : s.Sound S) (hne : s.unsettled ≠ 0) : s.unsettled - 1 = 0 := by
  have hle : s.unsettled ≤ 1 := by
    rw [h.unsettled_eq]
    split
    · exact Nat.le_refl 1
    · exact Nat.zero_le 1
  omega

theorem Sound.sendDone (h : s.Sound S) : (step .sendDone s).Sound S := by
  show (if s.unsettled = 0 then s
    else drainTranscriptPush { s with unsettled := s.unsettled - 1 }).Sound S
  split
  · exact h
  · rename_i hne
    have hzero := h.unsettled_pred hne
    unfold drainTranscriptPush
    split
    · exact h.giveUp rfl rfl hzero
    · split
      · rename_i hnil
        refine h.shrinks rfl (Shrinks.refl _) h.bounded hzero fun _ => hnil
      · rename_i next rest hpending
        have hpending : s.pendingTranscriptPushes = next :: rest := hpending
        refine h.shrinks rfl ?_ ?_ ?_ fun hidle => by cases hidle
        · show Shrinks ((s.sent ++ [next]) ++ rest) (s.sent ++ s.pendingTranscriptPushes)
          rw [hpending, List.append_assoc]
          exact .refl _
        · have hbounded := h.bounded
          rw [hpending] at hbounded
          exact hbounded.sublist (List.sublist_cons_self _ _)
        · show s.unsettled - 1 + 1 = 1
          rw [hzero]

theorem Sound.step (h : s.Sound S) (hvalid : Valid S op s) : (step op s).Sound S := by
  cases op with
  | push agentId generation chunk offset => exact h.push hvalid
  | sendDone => exact h.sendDone
  | sendFails =>
    show (if s.unsettled = 0 then s
      else TranscriptPusher.giveUp { s with unsettled := s.unsettled - 1 }).Sound S
    split
    · exact h
    · rename_i hne
      exact h.giveUp rfl rfl (h.unsettled_pred hne)
  | connect => exact h.shrinks rfl (Shrinks.refl _) h.bounded h.unsettled_eq h.idle
  | disconnect => exact h.shrinks rfl (Shrinks.refl _) h.bounded h.unsettled_eq h.idle

/-! ## Nothing is dropped -/

/-- The characters of a chunk that have to wait. -/
def queued (chunk : Output) (s : TranscriptPusher) : ℕ :=
  if s.transcriptPushInFlight then chunk.length
  else chunk.length - TRANSCRIPT_PENDING_MAX_CHARS

/-- The app is attached, no send fails, and what is pushed still fits into the queue. -/
def Fits (op : Op) (s : TranscriptPusher) : Prop :=
  match op with
  | .push agentId generation chunk _ =>
    s.connected = true ∧
      backlog agentId (purge agentId generation s.pendingTranscriptPushes) + s.queued chunk ≤
        TRANSCRIPT_PENDING_MAX_CHARS_PER_AGENT ∧
      (0 < s.queued chunk → (insert agentId (s.pendingTranscriptPushes.map
        PendingTranscriptPush.agentId).toFinset).card ≤ TRANSCRIPT_PENDING_MAX_AGENTS)
  | .sendDone => s.unsettled = 0 ∨ s.connected = true
  | .sendFails => s.unsettled = 0
  | .connect => True
  | .disconnect => True

/-- The line has the text of every generation, up to where a newer one superseded it. -/
structure Kept (s : TranscriptPusher) : Prop where
  newest : ∀ p ∈ s.produced, ∃ last ∈ s.lastProduced p.agentId, p.generation ≤ last.generation
  text_prefix : ∀ agentId generation,
    textOf agentId generation (s.sent ++ s.pendingTranscriptPushes) <+:
      textOf agentId generation s.produced
  text_eq : ∀ agentId generation,
    (∀ p ∈ s.produced, p.agentId = agentId → p.generation ≤ generation) →
      textOf agentId generation (s.sent ++ s.pendingTranscriptPushes) =
        textOf agentId generation s.produced
  last : ∀ agentId, ∀ newest ∈ s.lastProduced agentId, ∀ p ∈ (s.pendingTranscriptPushes.filter
    (PendingTranscriptPush.isOf agentId newest.generation)).getLast?, p.stop = newest.stop

theorem kept_init : Kept {} := by
  refine ⟨?_, fun _ _ => List.prefix_refl _, fun _ _ _ => rfl, ?_⟩
  · intro p hp
    cases hp
  · intro agentId newest hnewest
    cases hnewest

/-- The line gains the chunk, and loses text of the agent's older generations at most. -/
structure Gains (agentId : String) (generation : ℕ) (chunk : Output)
    (line line' : List PendingTranscriptPush) : Prop where
  others : ∀ other, other ≠ agentId → ∀ g, textOf other g line' = textOf other g line
  text : textOf agentId generation line' = textOf agentId generation line ++ chunk
  older : ∀ g, g ≠ generation → textOf agentId g line' <+: textOf agentId g line

theorem generation_le_of_lastProduced (h : s.Kept)
    (hlast : ∀ last ∈ s.lastProduced agentId,
      last.generation < generation ∨ last.generation = generation ∧ last.stop = offset) :
    ∀ p ∈ s.produced, p.agentId = agentId → p.generation ≤ generation := by
  rintro p hp rfl
  obtain ⟨last, hmem, hle⟩ := h.newest p hp
  have := hlast last hmem
  omega

/-- A push whose chunk is gained drops nothing. -/
theorem Kept.push {t : TranscriptPusher} (h : s.Kept)
    (hlast : ∀ last ∈ s.lastProduced agentId,
      last.generation < generation ∨ last.generation = generation ∧ last.stop = offset)
    (hproduced : t.produced = s.produced ++ [⟨agentId, generation, offset, chunk⟩])
    (hgains : Gains agentId generation chunk (s.sent ++ s.pendingTranscriptPushes)
      (t.sent ++ t.pendingTranscriptPushes))
    (hothers : ∀ other, other ≠ agentId → ∀ g,
      t.pendingTranscriptPushes.filter (PendingTranscriptPush.isOf other g) =
        s.pendingTranscriptPushes.filter (PendingTranscriptPush.isOf other g))
    (hstop : ∀ p ∈ (t.pendingTranscriptPushes.filter
      (PendingTranscriptPush.isOf agentId generation)).getLast?,
        p.stop = offset + chunk.length) : t.Kept := by
  have hle := generation_le_of_lastProduced h hlast
  have hnewest : ∀ other, t.lastProduced other =
      if agentId = other then some ⟨agentId, generation, offset, chunk⟩
      else s.lastProduced other := by
    intro other
    have hconcat := lastProduced_concat ⟨agentId, generation, offset, chunk⟩ other s
    rw [lastProduced] at hconcat ⊢
    rw [hproduced]
    exact hconcat
  have htext : ∀ other g, textOf other g t.produced = textOf other g s.produced ++
      textOf other g [⟨agentId, generation, offset, chunk⟩] := by
    intro other g
    rw [hproduced, textOf_append]
  have hown : textOf agentId generation [⟨agentId, generation, offset, chunk⟩] = chunk := by
    simp [textOf, PendingTranscriptPush.isOf]
  have hnone : ∀ other g, ¬ (other = agentId ∧ g = generation) →
      textOf other g [(⟨agentId, generation, offset, chunk⟩ : PendingTranscriptPush)] = [] := by
    intro other g hne
    apply textOf_eq_nil
    intro p hp hagent hgeneration
    rw [List.mem_singleton.1 hp] at hagent hgeneration
    exact hne ⟨hagent.symm, hgeneration.symm⟩
  have hfull : textOf agentId generation (t.sent ++ t.pendingTranscriptPushes) =
      textOf agentId generation t.produced := by
    rw [hgains.text, htext, hown, h.text_eq agentId generation hle]
  refine ⟨fun p hp => ?_, fun other g => ?_, fun other g hg => ?_, fun other newest hmem => ?_⟩
  · rw [hnewest]
    rw [hproduced] at hp
    obtain hp | hp := List.mem_append.1 hp
    · by_cases hagent : agentId = p.agentId
      · rw [if_pos hagent]
        exact ⟨_, rfl, hle p hp hagent.symm⟩
      · rw [if_neg hagent]
        exact h.newest p hp
    · rw [List.mem_singleton.1 hp, if_pos rfl]
      exact ⟨_, rfl, Nat.le_refl _⟩
  · by_cases hother : other = agentId
    · subst hother
      by_cases hg : g = generation
      · rw [hg, hfull]
      · rw [htext, hnone other g fun h => hg h.2, List.append_nil]
        exact (hgains.older g hg).trans (h.text_prefix other g)
    · rw [htext, hnone other g fun h => hother h.1, List.append_nil, hgains.others other hother g]
      exact h.text_prefix other g
  · by_cases hother : other = agentId
    · subst hother
      by_cases heq : g = generation
      · rw [heq, hfull]
      · -- No push was of a generation that is newer than this one.
        have hlt : generation ≤ g :=
          hg ⟨other, generation, offset, chunk⟩ (by rw [hproduced]; simp) rfl
        have hnil : textOf other g s.produced = [] := by
          apply textOf_eq_nil
          intro p hp hagent hpg
          have := hle p hp hagent
          omega
        have hshort := (hgains.older g heq).trans (h.text_prefix other g)
        rw [hnil] at hshort
        rw [htext, hnil, hnone other g fun h => heq h.2]
        exact List.prefix_nil.1 hshort
    · rw [htext, hnone other g fun h => hother h.1, List.append_nil, hgains.others other hother g]
      exact h.text_eq other g fun p hp => hg p (by rw [hproduced]; exact List.mem_append_left _ hp)
  · rw [hnewest] at hmem
    by_cases hother : agentId = other
    · rw [if_pos hother] at hmem
      subst hother
      obtain rfl := Option.some.inj hmem
      exact hstop
    · rw [if_neg hother] at hmem
      rw [hothers other (fun heq => hother heq.symm)]
      exact h.last other newest hmem

theorem gains_of_gathered {result : List PendingTranscriptPush}
    (h : Gathered agentId generation offset chunk pending result) :
    Gains agentId generation chunk (sent ++ pending) (sent ++ result) := by
  refine ⟨fun other hother g => ?_, ?_, fun g hg => ?_⟩
  · rw [textOf_append, textOf_append, textOf, textOf, textOf, h.others other hother g]
  · rw [textOf_append, textOf_append, h.text, List.append_assoc]
  · rw [textOf_append, textOf_append]
    exact (List.prefix_append_right_inj _).2 (h.older g hg)

/-- A piece is sent, and another one with it. -/
theorem gains_of_sent {first rest : Output} {result : List PendingTranscriptPush} {k : ℕ}
    (h : Gathered agentId generation k rest [] result) :
    Gains agentId generation (first ++ rest) sent
      ((sent ++ [⟨agentId, generation, offset, first⟩]) ++ result) := by
  have hown : textOf agentId generation [⟨agentId, generation, offset, first⟩] = first := by
    simp [textOf, PendingTranscriptPush.isOf]
  refine ⟨fun other hother g => ?_, ?_, fun g hg => ?_⟩
  · have hnil : textOf other g [(⟨agentId, generation, offset, first⟩ : PendingTranscriptPush)] =
        [] := textOf_eq_nil fun p hp hagent => by
      rw [List.mem_singleton.1 hp] at hagent
      exact absurd hagent.symm hother
    have hresult : textOf other g result = [] := by
      rw [textOf, h.others other hother g]
      rfl
    rw [textOf_append, textOf_append, hnil, hresult, List.append_nil, List.append_nil]
  · rw [textOf_append, textOf_append, hown, h.text, List.append_assoc]
    rfl
  · have hnil : textOf agentId g [(⟨agentId, generation, offset, first⟩ :
        PendingTranscriptPush)] = [] := textOf_eq_nil fun p hp _ hgeneration => by
      rw [List.mem_singleton.1 hp] at hgeneration
      exact absurd hgeneration.symm hg
    have hresult : textOf agentId g result = [] := List.prefix_nil.1 (h.older g hg)
    rw [textOf_append, textOf_append, hnil, hresult, List.append_nil, List.append_nil]

theorem splitTranscriptPush_first {first : ℕ × Output} {rest : List (ℕ × Output)}
    (h : splitTranscriptPush chunk offset = first :: rest) :
    first.2 = chunk.take TRANSCRIPT_PENDING_MAX_CHARS := by
  unfold splitTranscriptPush at h
  split at h
  · rename_i hshort
    rw [← (List.cons.inj h).1, List.take_of_length_le hshort]
  · cases hchunk : chunk with
    | nil =>
      rw [hchunk] at h
      cases h
    | cons c tail =>
      rw [hchunk, List.length_cons, splitLoop, if_neg (List.cons_ne_nil _ _)] at h
      rw [← (List.cons.inj h).1]

theorem splitTranscriptPush_ne_nil : splitTranscriptPush chunk offset ≠ [] := by
  intro hnil
  have hsplit := splitTranscriptPush_consecutive chunk offset
  rw [hnil] at hsplit
  rw [show chunk = [] from hsplit] at hnil
  cases hnil

theorem Kept.push_step (h : s.Kept) (hsound : s.Sound S)
    (hvalid : Valid S (.push agentId generation chunk offset) s)
    (hfits : Fits (.push agentId generation chunk offset) s) :
    (TranscriptPusher.step (.push agentId generation chunk offset) s).Kept := by
  obtain ⟨-, hlast⟩ := hvalid
  obtain ⟨hconnected, hroom, hagents⟩ := hfits
  have hsplit := splitTranscriptPush_consecutive chunk offset
  have hwaits : ∀ p ∈ (s.pendingTranscriptPushes.filter
      (PendingTranscriptPush.isOf agentId generation)).getLast?, p.stop = offset := by
    intro p hp
    have hmem := List.mem_filter.1 (List.mem_of_getLast? hp)
    have hof := hmem.2
    simp only [PendingTranscriptPush.isOf, Bool.and_eq_true, decide_eq_true_eq] at hof
    obtain ⟨last, hlastMem, hle⟩ := hsound.behind p (List.mem_append_right _ hmem.1)
    rw [hof.1] at hlastMem
    obtain hlt | ⟨hgeneration, hstop⟩ := hlast last hlastMem
    · omega
    · rw [← hstop]
      apply h.last agentId last hlastMem p
      rw [hgeneration]
      exact hp
  simp only [TranscriptPusher.step, pushTranscript]
  rw [hconnected]
  simp only [Bool.not_true, Bool.false_eq_true, if_false]
  split
  · rename_i hnil
    exact absurd hnil splitTranscriptPush_ne_nil
  · rename_i first rest hpieces
    have hfirst := splitTranscriptPush_first hpieces
    rw [hpieces] at hsplit
    split
    · rename_i hflight
      have hqueued : s.queued chunk = chunk.length := if_pos hflight
      rw [hqueued] at hroom hagents
      have hgathered := queueTranscriptPushes_gathered hsplit hwaits hroom fun hne =>
        hagents (List.length_pos_iff.2 hne)
      exact h.push hlast rfl (gains_of_gathered hgathered) hgathered.others hgathered.last
    · rename_i hflight
      have hflight : s.transcriptPushInFlight = false := Bool.eq_false_iff.2 hflight
      have hempty := hsound.idle hflight
      have hqueued : s.queued chunk = chunk.length - TRANSCRIPT_PENDING_MAX_CHARS :=
        if_neg (by rw [hflight]; exact Bool.false_ne_true)
      obtain ⟨rfl, hlength, later, hchunk, hrest⟩ := hsplit
      have hlater : later.length = s.queued chunk := by
        have htotal := congrArg List.length hchunk
        have htaken := congrArg List.length hfirst
        rw [List.length_append] at htotal
        rw [List.length_take] at htaken
        omega
      rw [← hlater, hempty] at hroom hagents
      rw [hempty]
      have hgathered : Gathered agentId generation (first.1 + first.2.length) later []
          (queueTranscriptPushes generation agentId rest []) :=
        queueTranscriptPushes_gathered hrest (fun p hp => by cases hp) hroom fun hne =>
          hagents (List.length_pos_iff.2 hne)
      have hlength' : first.1 + first.2.length + later.length = first.1 + chunk.length := by
        rw [hchunk, List.length_append]
        omega
      refine h.push hlast rfl ?_ (fun other hother g => ?_) fun p hp => ?_
      · rw [hempty, List.append_nil, hchunk]
        exact gains_of_sent hgathered
      · rw [hempty]
        exact hgathered.others other hother g
      · rw [← hlength']
        exact hgathered.last p hp

theorem Kept.step (h : s.Kept) (hsound : s.Sound S) (hvalid : Valid S op s) (hfits : Fits op s) :
    (step op s).Kept := by
  cases op with
  | push agentId generation chunk offset => exact h.push_step hsound hvalid hfits
  | sendDone =>
    show (if s.unsettled = 0 then s
      else drainTranscriptPush { s with unsettled := s.unsettled - 1 }).Kept
    split
    · exact h
    · rename_i hne
      have hconnected : s.connected = true := hfits.resolve_left hne
      unfold drainTranscriptPush
      rw [hconnected]
      simp only [Bool.not_true, Bool.false_eq_true, if_false]
      split
      · exact ⟨h.newest, h.text_prefix, h.text_eq, h.last⟩
      · rename_i next rest hpending
        have hpending : s.pendingTranscriptPushes = next :: rest := hpending
        have hline : (s.sent ++ [next]) ++ rest = s.sent ++ s.pendingTranscriptPushes := by
          rw [hpending, List.append_assoc]
          rfl
        refine ⟨h.newest, fun agentId generation => ?_, fun agentId generation => ?_,
          fun agentId newest hnewest p hp => h.last agentId newest hnewest p ?_⟩
        · show textOf agentId generation ((s.sent ++ [next]) ++ rest) <+: _
          rw [hline]
          exact h.text_prefix agentId generation
        · show _ → textOf agentId generation ((s.sent ++ [next]) ++ rest) = _
          rw [hline]
          exact h.text_eq agentId generation
        · have hp : p ∈ (rest.filter (PendingTranscriptPush.isOf agentId
            newest.generation)).getLast? := hp
          rw [hpending, List.filter_cons]
          split
          · rw [Option.mem_def] at hp ⊢
            rw [List.getLast?_cons, hp]
            rfl
          · exact hp
  | sendFails =>
    show (if s.unsettled = 0 then s
      else TranscriptPusher.giveUp { s with unsettled := s.unsettled - 1 }).Kept
    rw [if_pos (show s.unsettled = 0 from hfits)]
    exact h
  | connect => exact ⟨h.newest, h.text_prefix, h.text_eq, h.last⟩
  | disconnect => exact ⟨h.newest, h.text_prefix, h.text_eq, h.last⟩

/-! ## Every run -/

variable {ops : List Op}

theorem sound_run (hvalid : Run.Guarded TranscriptPusher.step (Valid S) ops {}) :
    (Run.after TranscriptPusher.step ops {}).Sound S :=
  Run.invariant (Sound S) (fun _ _ hvalid h => h.step hvalid) hvalid sound_init

theorem kept_run (hvalid : Run.Guarded TranscriptPusher.step (Valid S) ops {})
    (hfits : Run.Guarded TranscriptPusher.step Fits ops {}) :
    (Run.after TranscriptPusher.step ops {}).Kept := by
  refine (Run.invariant (fun s => s.Sound S ∧ s.Kept) ?_ (Run.guarded_and.2 ⟨hvalid, hfits⟩)
    ⟨sound_init, kept_init⟩).2
  intro op s hop hs
  exact ⟨hs.1.step hop.1, hs.2.step hs.1 hop.1 hop.2⟩

/-- What the operator is sent, and how much waits. -/
structure Streams (S : String → ℕ → Output) (s : TranscriptPusher) : Prop where
  faithful : ∀ p ∈ s.sent, Slice.At (S p.agentId p.generation) p.offset p.chunk
  ordered : s.sent.Pairwise fun p q => p.agentId = q.agentId → p.generation ≤ q.generation ∧
    (p.generation = q.generation → p.stop ≤ q.offset ∧ (p.chunk ≠ [] → p.offset < q.offset))
  unsettled_le : s.unsettled ≤ 1
  backlog_le : ∀ agentId, backlog agentId s.pendingTranscriptPushes ≤
    TRANSCRIPT_PENDING_MAX_CHARS_PER_AGENT
  sending : s.pendingTranscriptPushes ≠ [] → s.unsettled = 1

/-- What was pushed was sent or waits, up to where a newer generation superseded it. -/
def DropsNothing (s : TranscriptPusher) : Prop :=
  ∀ agentId generation,
    textOf agentId generation (s.sent ++ s.pendingTranscriptPushes) <+:
        textOf agentId generation s.produced ∧
      ((∀ p ∈ s.produced, p.agentId = agentId → p.generation ≤ generation) →
        textOf agentId generation (s.sent ++ s.pendingTranscriptPushes) =
          textOf agentId generation s.produced)

/-- However pushes, sends and failures interleave, each agent's pieces are sent in order, as they
stand in its streams. While everything fits into the queue and no send fails, only what a newer
generation supersedes is dropped. -/
theorem transcript_push_streams
    (hvalid : Run.Guarded TranscriptPusher.step (Valid S) ops {}) :
    (Run.after TranscriptPusher.step ops {}).Streams S ∧
      (Run.Guarded TranscriptPusher.step Fits ops {} →
        (Run.after TranscriptPusher.step ops {}).DropsNothing) := by
  have hsound := sound_run hvalid
  refine ⟨⟨fun p hp => ?_, ?_, ?_, hsound.bounded.backlog_le, fun hne => ?_⟩,
    fun hfits agentId generation => ?_⟩
  · exact hsound.inOrder.faithful p (List.mem_append_left _ hp)
  · refine (List.pairwise_append.1 hsound.inOrder.ordered).1.imp ?_
    intro p q hbefore hagent
    have hbefore := hbefore hagent
    refine ⟨by omega, fun hgeneration => ⟨by omega, fun hne => ?_⟩⟩
    have hpos := List.length_pos_iff.2 hne
    rw [PendingTranscriptPush.stop] at hbefore
    omega
  · rw [hsound.unsettled_eq]
    split
    · exact Nat.le_refl 1
    · exact Nat.zero_le 1
  · rw [hsound.unsettled_eq, if_pos]
    by_contra hidle
    exact hne (hsound.idle (Bool.eq_false_iff.2 hidle))
  · have hkept := kept_run hvalid hfits
    exact ⟨hkept.text_prefix agentId generation, hkept.text_eq agentId generation⟩

instance (S : String → ℕ → Output) (s : TranscriptPusher) :
    (op : Op) → Decidable (Valid S op s)
  | .push agentId generation chunk offset =>
    inferInstanceAs (Decidable (Slice.At (S agentId generation) offset chunk ∧
      ∀ last ∈ s.lastProduced agentId,
        last.generation < generation ∨ last.generation = generation ∧ last.stop = offset))
  | .sendDone => .isTrue trivial
  | .sendFails => .isTrue trivial
  | .connect => .isTrue trivial
  | .disconnect => .isTrue trivial

instance (s : TranscriptPusher) : (op : Op) → Decidable (Fits op s)
  | .push agentId generation chunk _ =>
    inferInstanceAs (Decidable (s.connected = true ∧
      backlog agentId (purge agentId generation s.pendingTranscriptPushes) + s.queued chunk ≤
        TRANSCRIPT_PENDING_MAX_CHARS_PER_AGENT ∧
      (0 < s.queued chunk → (insert agentId (s.pendingTranscriptPushes.map
        PendingTranscriptPush.agentId).toFinset).card ≤ TRANSCRIPT_PENDING_MAX_AGENTS)))
  | .sendDone => inferInstanceAs (Decidable (s.unsettled = 0 ∨ s.connected = true))
  | .sendFails => inferInstanceAs (Decidable (s.unsettled = 0))
  | .connect => .isTrue trivial
  | .disconnect => .isTrue trivial

def greetings (_agentId : String) (generation : ℕ) : Output :=
  if generation = 1 then Pty.units "hello" else Pty.units "world"

/-- One agent's pushes, the last of a newer generation. -/
def supersededOps : List Op :=
  [.connect, .push "a" 1 (Pty.units "he") 0, .push "a" 1 (Pty.units "l") 2,
    .push "a" 1 (Pty.units "lo") 3, .push "a" 2 (Pty.units "world") 0, .sendDone]

theorem transcript_push_streams_superseded :
    (Run.after TranscriptPusher.step supersededOps {}).Streams greetings ∧
      (Run.Guarded TranscriptPusher.step Fits supersededOps {} →
        (Run.after TranscriptPusher.step supersededOps {}).DropsNothing) :=
  transcript_push_streams (by decide +kernel)

/-- What waits of an older generation is dropped, and pieces without text stand at one place. -/
theorem drops_superseded_and_repeats_offset :
    (Run.Guarded TranscriptPusher.step (Valid greetings) supersededOps {} ∧
      Run.Guarded TranscriptPusher.step Fits supersededOps {} ∧
      textOf "a" 1 ((Run.after TranscriptPusher.step supersededOps {}).sent ++
          (Run.after TranscriptPusher.step supersededOps {}).pendingTranscriptPushes) =
        Pty.units "he" ∧
      textOf "a" 1 (Run.after TranscriptPusher.step supersededOps {}).produced =
        Pty.units "hello") ∧
    ∃ ops, Run.Guarded TranscriptPusher.step (Valid greetings) ops {} ∧
      (Run.after TranscriptPusher.step ops {}).sent =
        [⟨"a", 1, 3, []⟩, ⟨"a", 1, 3, []⟩] := by
  refine ⟨by decide +kernel,
    [.connect, .push "a" 1 [] 3, .sendDone, .push "a" 1 [] 3], by decide +kernel⟩

end TranscriptPusher

end Orchestration.OperatorIpc
