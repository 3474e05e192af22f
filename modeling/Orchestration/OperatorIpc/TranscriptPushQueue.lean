import Mathlib.Data.List.Forall2
import Orchestration.OperatorIpc.TranscriptPush

/-!
# The queue of transcript pushes

Whatever is done to the queue either takes text away from the front of its pieces, whole
pieces too, or adds a piece at the end.
-/

namespace Orchestration.OperatorIpc

open Pty (Output)

/-! ## Taking text away -/

/-- `p` is what is left of `q` without some text at its front. -/
def Cut (p q : PendingTranscriptPush) : Prop :=
  p.agentId = q.agentId ∧ p.generation = q.generation ∧
    ∃ k, k ≤ q.chunk.length ∧ p.offset = q.offset + k ∧ p.chunk = q.chunk.drop k

theorem Cut.refl (p : PendingTranscriptPush) : Cut p p :=
  ⟨rfl, rfl, 0, Nat.zero_le _, rfl, rfl⟩

theorem Cut.stop_eq {p q : PendingTranscriptPush} (h : Cut p q) : p.stop = q.stop := by
  obtain ⟨-, -, k, hk, hoffset, hchunk⟩ := h
  rw [PendingTranscriptPush.stop, PendingTranscriptPush.stop, hoffset, hchunk, List.length_drop]
  omega

theorem Cut.offset_le {p q : PendingTranscriptPush} (h : Cut p q) : q.offset ≤ p.offset := by
  obtain ⟨-, -, k, -, hoffset, -⟩ := h
  omega

theorem Cut.length_le {p q : PendingTranscriptPush} (h : Cut p q) :
    p.chunk.length ≤ q.chunk.length := by
  obtain ⟨-, -, k, -, -, hchunk⟩ := h
  rw [hchunk, List.length_drop]
  omega

/-- The pieces are what is left of `whole`. -/
def Shrinks (pieces whole : List PendingTranscriptPush) : Prop :=
  List.SublistForall₂ Cut pieces whole

variable {pieces whole : List PendingTranscriptPush}

instance : Std.Refl Cut := ⟨Cut.refl⟩

theorem Shrinks.of_sublist (h : pieces.Sublist whole) : Shrinks pieces whole := h.sublistForall₂

theorem Shrinks.refl (pieces : List PendingTranscriptPush) : Shrinks pieces pieces :=
  .of_sublist (.refl pieces)

theorem Cut.trans {p q r : PendingTranscriptPush} (h : Cut p q) (h' : Cut q r) : Cut p r := by
  obtain ⟨hagent, hgeneration, k, hk, hoffset, hchunk⟩ := h
  obtain ⟨hagent', hgeneration', k', hk', hoffset', hchunk'⟩ := h'
  refine ⟨hagent.trans hagent', hgeneration.trans hgeneration', k' + k, ?_, by omega, ?_⟩
  · rw [hchunk', List.length_drop] at hk
    omega
  · rw [hchunk, hchunk', List.drop_drop]

instance : IsTrans PendingTranscriptPush Cut := ⟨fun _ _ _ => Cut.trans⟩

theorem Shrinks.trans {part : List PendingTranscriptPush} (h : Shrinks part pieces)
    (h' : Shrinks pieces whole) : Shrinks part whole :=
  List.SublistForall₂.is_trans.trans _ _ _ h h'

theorem Shrinks.exists_cut (h : Shrinks pieces whole) :
    ∀ p ∈ pieces, ∃ q ∈ whole, Cut p q := by
  induction h with
  | nil => simp
  | cons hcut _ ih =>
    intro p hp
    obtain rfl | hp := List.mem_cons.1 hp
    · exact ⟨_, List.mem_cons_self, hcut⟩
    · obtain ⟨q, hq, hcut'⟩ := ih p hp
      exact ⟨q, List.mem_cons_of_mem _ hq, hcut'⟩
  | cons_right _ ih =>
    intro p hp
    obtain ⟨q, hq, hcut⟩ := ih p hp
    exact ⟨q, List.mem_cons_of_mem _ hq, hcut⟩

theorem Shrinks.append_left (sent : List PendingTranscriptPush) (h : Shrinks pieces whole) :
    Shrinks (sent ++ pieces) (sent ++ whole) := by
  induction sent with
  | nil => exact h
  | cons p sent ih => exact .cons (Cut.refl p) ih

theorem Shrinks.pairwise {R : PendingTranscriptPush → PendingTranscriptPush → Prop}
    (hR : ∀ {p p' q q'}, Cut p p' → Cut q q' → R p' q' → R p q) (h : Shrinks pieces whole)
    (hwhole : whole.Pairwise R) : pieces.Pairwise R := by
  induction h with
  | nil => exact List.Pairwise.nil
  | cons hcut htail ih =>
    obtain ⟨hhead, hrest⟩ := List.pairwise_cons.1 hwhole
    refine List.pairwise_cons.2 ⟨fun q hq => ?_, ih hrest⟩
    obtain ⟨q', hq', hcut'⟩ := Shrinks.exists_cut htail q hq
    exact hR hcut hcut' (hhead q' hq')
  | cons_right _ ih => exact ih (List.pairwise_cons.1 hwhole).2

theorem pruneLoop_shrinks (agentId : String) (pending : List PendingTranscriptPush) (excess : ℕ) :
    Shrinks (pruneLoop agentId pending excess) pending := by
  induction pending generalizing excess with
  | nil => exact .nil
  | cons p pending ih =>
    unfold pruneLoop
    split
    · exact .refl _
    · split
      · exact .cons (Cut.refl p) (ih excess)
      · split
        · exact .cons_right (ih _)
        · exact .cons ⟨rfl, rfl, excess, by omega, rfl, rfl⟩ (Shrinks.refl pending)

theorem evictLoop_sublist (agentId : String) (count : ℕ) (pending : List PendingTranscriptPush) :
    (evictLoop agentId count pending).Sublist pending := by
  induction count generalizing pending with
  | zero => exact .refl _
  | succ count ih =>
    unfold evictLoop
    split
    · exact .refl _
    · split
      · exact .refl _
      · exact (ih _).trans List.filter_sublist

/-! ## How much waits -/

theorem backlog_append (agentId : String) (pieces whole : List PendingTranscriptPush) :
    backlog agentId (pieces ++ whole) = backlog agentId pieces + backlog agentId whole := by
  simp [backlog]

theorem backlog_cons_self (p : PendingTranscriptPush) (pieces : List PendingTranscriptPush) :
    backlog p.agentId (p :: pieces) = p.chunk.length + backlog p.agentId pieces := by
  simp [backlog]

theorem backlog_cons_of_ne {agentId : String} {p : PendingTranscriptPush} (h : p.agentId ≠ agentId)
    (pieces : List PendingTranscriptPush) :
    backlog agentId (p :: pieces) = backlog agentId pieces := by
  simp [backlog, h]

/-- What is left is no more than there was. -/
theorem Shrinks.backlog_le (h : Shrinks pieces whole) (agentId : String) :
    backlog agentId pieces ≤ backlog agentId whole := by
  induction h with
  | nil => exact Nat.zero_le _
  | @cons p q pieces whole hcut _ ih =>
    by_cases hagent : q.agentId = agentId
    · subst hagent
      rw [backlog_cons_self, ← hcut.1, backlog_cons_self, hcut.1]
      have := hcut.length_le
      omega
    · rw [backlog_cons_of_ne hagent, backlog_cons_of_ne (fun heq => hagent (hcut.1.symm.trans heq))]
      exact ih
  | @cons_right q pieces whole _ ih =>
    by_cases hagent : q.agentId = agentId
    · subst hagent
      rw [backlog_cons_self]
      omega
    · rw [backlog_cons_of_ne hagent]
      exact ih

/-- The loop cuts what it is asked to. -/
theorem backlog_pruneLoop (agentId : String) (pending : List PendingTranscriptPush) {excess : ℕ}
    (h : excess ≤ backlog agentId pending) :
    backlog agentId (pruneLoop agentId pending excess) = backlog agentId pending - excess := by
  induction pending generalizing excess with
  | nil => exact (Nat.zero_sub excess).symm
  | cons p pending ih =>
    unfold pruneLoop
    split
    · omega
    · split
      · rename_i hagent
        rw [backlog_cons_of_ne hagent] at h ⊢
        rw [backlog_cons_of_ne hagent]
        exact ih h
      · rename_i hagent
        obtain rfl := not_not.1 hagent
        rw [backlog_cons_self] at h ⊢
        split
        · rw [ih (by omega)]
          omega
        · rename_i hshort
          have hcut := backlog_cons_self { p with
            offset := p.offset + excess
            chunk := p.chunk.drop excess } pending
          dsimp only at hcut
          rw [hcut, List.length_drop]
          omega

theorem backlog_prune (agentId : String) (pending : List PendingTranscriptPush) :
    backlog agentId (prunePendingTranscriptBytes agentId pending) ≤
      TRANSCRIPT_PENDING_MAX_CHARS_PER_AGENT := by
  rw [prunePendingTranscriptBytes, backlog_pruneLoop agentId pending (Nat.sub_le _ _)]
  omega

/-- The prune of one agent, of which little waits, changes nothing. -/
theorem prune_eq_self {agentId : String} {pending : List PendingTranscriptPush}
    (h : backlog agentId pending ≤ TRANSCRIPT_PENDING_MAX_CHARS_PER_AGENT) :
    prunePendingTranscriptBytes agentId pending = pending := by
  rw [prunePendingTranscriptBytes, Nat.sub_eq_zero_of_le h]
  cases pending with
  | nil => rfl
  | cons p pending => rw [pruneLoop, if_pos rfl]

/-! ## How many agents wait -/

theorem queuedAgents_le_of_subset (h : ∀ p ∈ pieces, ∃ q ∈ whole, p.agentId = q.agentId) :
    queuedAgents pieces ≤ queuedAgents whole := by
  refine Finset.card_le_card fun agentId hmem => ?_
  rw [List.mem_toFinset, List.mem_map] at hmem ⊢
  obtain ⟨p, hp, rfl⟩ := hmem
  obtain ⟨q, hq, heq⟩ := h p hp
  exact ⟨q, hq, heq.symm⟩

theorem Shrinks.queuedAgents_le (h : Shrinks pieces whole) :
    queuedAgents pieces ≤ queuedAgents whole := by
  refine queuedAgents_le_of_subset fun p hp => ?_
  obtain ⟨q, hq, hcut⟩ := h.exists_cut p hp
  exact ⟨q, hq, hcut.1⟩

/-- A round of the loop drops the pieces of an agent, so the loop comes to an end. -/
theorem queuedAgents_evictLoop (agentId : String) {count : ℕ}
    {pending : List PendingTranscriptPush} (h : pending.length ≤ count) :
    queuedAgents (evictLoop agentId count pending) ≤ TRANSCRIPT_PENDING_MAX_AGENTS := by
  induction count generalizing pending with
  | zero =>
    rw [List.length_eq_zero_iff.1 (Nat.le_zero.1 h)]
    exact Nat.zero_le _
  | succ count ih =>
    unfold evictLoop
    split
    · assumption
    · rename_i hmany
      split
      · rename_i hnone
        have hnil : pending = [] := by
          cases pending with
          | nil => rfl
          | cons p pending => simp at hnone
        rw [hnil]
        exact Nat.zero_le _
      · rename_i drop hdrop
        have hmem : drop ∈ pending := by
          obtain hfind | ⟨-, hhead⟩ := Option.or_eq_some_iff.1 hdrop
          · exact List.mem_of_find?_eq_some hfind
          · exact List.mem_of_mem_head? hhead
        apply ih
        have hlt : (dropAgent drop.agentId pending).length < pending.length :=
          List.length_filter_lt_length_iff_exists.2 ⟨drop, hmem, by simp⟩
        omega

/-! ## Adding a piece -/

theorem splitAtLast_eq_none {α : Type} {mine : α → Bool} {xs : List α}
    (h : splitAtLast mine xs = none) : ∀ x ∈ xs, mine x = false := by
  induction xs with
  | nil => simp
  | cons x xs ih =>
    rw [splitAtLast] at h
    split at h
    · cases h
    · rename_i hnone
      split at h
      · cases h
      · rename_i hmine
        intro y hy
        obtain rfl | hy := List.mem_cons.1 hy
        · exact Bool.eq_false_iff.2 hmine
        · exact ih hnone y hy

theorem splitAtLast_eq_some {α : Type} {mine : α → Bool} {xs before after : List α} {last : α}
    (h : splitAtLast mine xs = some (before, last, after)) :
    xs = before ++ last :: after ∧ mine last = true ∧ ∀ x ∈ after, mine x = false := by
  induction xs generalizing before with
  | nil => cases h
  | cons x xs ih =>
    rw [splitAtLast] at h
    split at h
    · rename_i before' last' after' htail
      obtain ⟨rfl, rfl, rfl⟩ : x :: before' = before ∧ last' = last ∧ after' = after := by
        simpa using h
      obtain ⟨heq, hmine, hafter⟩ := ih htail
      exact ⟨by rw [heq]; rfl, hmine, hafter⟩
    · rename_i hnone
      split at h
      · rename_i hmine
        obtain ⟨rfl, rfl, rfl⟩ : [] = before ∧ x = last ∧ xs = after := by simpa using h
        exact ⟨rfl, hmine, splitAtLast_eq_none hnone⟩
      · cases h

variable {agentId : String} {generation offset : ℕ} {chunk : Output}
  {pending : List PendingTranscriptPush}

/-- The piece is added to `base`, or joined to the last one of its agent, which it continues. -/
inductive Extended (agentId : String) (generation offset : ℕ) (chunk : Output) :
    List PendingTranscriptPush → List PendingTranscriptPush → Prop where
  | added (base : List PendingTranscriptPush) :
      Extended agentId generation offset chunk base
        (base ++ [⟨agentId, generation, offset, chunk⟩])
  | joined (before : List PendingTranscriptPush) (last : PendingTranscriptPush)
      (after : List PendingTranscriptPush) (hagent : last.agentId = agentId)
      (hgeneration : last.generation = generation) (hstop : last.stop = offset)
      (hafter : ∀ q ∈ after, q.agentId ≠ agentId) :
      Extended agentId generation offset chunk (before ++ last :: after)
        (before ++ { last with chunk := last.chunk ++ chunk } :: after)

theorem splitTranscriptPush_of_short (h : chunk.length ≤ TRANSCRIPT_PENDING_MAX_CHARS) :
    splitTranscriptPush chunk offset = [(offset, chunk)] := if_pos h

theorem pushPieces_shrinks (hlength : chunk.length ≤ TRANSCRIPT_PENDING_MAX_CHARS) :
    Shrinks (pushPieces agentId generation (splitTranscriptPush chunk offset) pending)
      (pending ++ [⟨agentId, generation, offset, chunk⟩]) := by
  rw [splitTranscriptPush_of_short hlength]
  have hpruned := pruneLoop_shrinks agentId (pending ++ [⟨agentId, generation, offset, chunk⟩])
    (backlog agentId (pending ++ [⟨agentId, generation, offset, chunk⟩]) -
      TRANSCRIPT_PENDING_MAX_CHARS_PER_AGENT)
  exact (Shrinks.of_sublist (evictLoop_sublist agentId _ _)).trans hpruned

/-- The older generations of the agent do not wait any longer. -/
def purge (agentId : String) (generation : ℕ) (pending : List PendingTranscriptPush) :
    List PendingTranscriptPush :=
  pending.filter fun p => !(p.agentId = agentId && p.generation ≠ generation)

theorem purge_sublist : (purge agentId generation pending).Sublist pending := List.filter_sublist

theorem generation_of_purge {p : PendingTranscriptPush}
    (hp : p ∈ purge agentId generation pending) (hagent : p.agentId = agentId) :
    p.generation = generation := by
  have hkept := List.of_mem_filter hp
  simpa [hagent] using hkept

/-- What the queue has when a piece continues, or follows, the last one of its agent. -/
theorem splitAtLast_purge {before after : List PendingTranscriptPush}
    {last : PendingTranscriptPush}
    (h : splitAtLast (PendingTranscriptPush.isOf agentId generation)
      (purge agentId generation pending) = some (before, last, after)) :
    purge agentId generation pending = before ++ last :: after ∧ last.agentId = agentId ∧
      last.generation = generation ∧ ∀ q ∈ after, q.agentId ≠ agentId := by
  obtain ⟨heq, hmine, hafter⟩ := splitAtLast_eq_some h
  obtain ⟨hagent, hgeneration⟩ : last.agentId = agentId ∧ last.generation = generation := by
    simpa [PendingTranscriptPush.isOf] using hmine
  refine ⟨heq, hagent, hgeneration, fun q hq hqagent => ?_⟩
  have hqmem : q ∈ purge agentId generation pending := by
    rw [heq]
    exact List.mem_append_right _ (List.mem_cons_of_mem _ hq)
  have hmine' := hafter q hq
  simp [PendingTranscriptPush.isOf, hqagent, generation_of_purge hqmem hqagent] at hmine'

theorem queueTranscriptPiece_of_none (hchunk : chunk ≠ [])
    (h : splitAtLast (PendingTranscriptPush.isOf agentId generation)
      (purge agentId generation pending) = none) :
    queueTranscriptPiece agentId generation chunk offset pending =
      pushPieces agentId generation (splitTranscriptPush chunk offset)
        (purge agentId generation pending) := by
  rw [purge] at h
  rw [queueTranscriptPiece, if_neg hchunk]
  dsimp only
  rw [h]
  rfl

theorem queueTranscriptPiece_of_some {before after : List PendingTranscriptPush}
    {last : PendingTranscriptPush} (hchunk : chunk ≠ [])
    (h : splitAtLast (PendingTranscriptPush.isOf agentId generation)
      (purge agentId generation pending) = some (before, last, after)) :
    queueTranscriptPiece agentId generation chunk offset pending =
      if offset = last.stop ∧
          last.chunk.length + chunk.length ≤ TRANSCRIPT_PENDING_MAX_CHARS then
        prunePendingTranscriptBytes agentId
          (before ++ { last with chunk := last.chunk ++ chunk } :: after)
      else if offset ≠ last.stop then
        pushPieces agentId generation (splitTranscriptPush chunk offset)
          (dropAgent agentId (purge agentId generation pending))
      else pushPieces agentId generation (splitTranscriptPush chunk offset)
        (purge agentId generation pending) := by
  rw [purge] at h ⊢
  rw [queueTranscriptPiece, if_neg hchunk]
  dsimp only
  rw [h]

/-- Pieces may be dropped before the new one is added, and text may be cut afterwards. -/
theorem queueTranscriptPiece_extended (hchunk : chunk ≠ [])
    (hlength : chunk.length ≤ TRANSCRIPT_PENDING_MAX_CHARS) :
    ∃ base whole, base.Sublist pending ∧ Extended agentId generation offset chunk base whole ∧
      Shrinks (queueTranscriptPiece agentId generation chunk offset pending) whole := by
  cases hsplit : splitAtLast (PendingTranscriptPush.isOf agentId generation)
    (purge agentId generation pending) with
  | none =>
    rw [queueTranscriptPiece_of_none hchunk hsplit]
    exact ⟨_, _, purge_sublist, .added _, pushPieces_shrinks hlength⟩
  | some parts =>
    obtain ⟨before, last, after⟩ := parts
    rw [queueTranscriptPiece_of_some hchunk hsplit]
    obtain ⟨heq, hagent, hgeneration, hafter⟩ := splitAtLast_purge hsplit
    split
    · rename_i hjoin
      exact ⟨_, _, heq ▸ purge_sublist, .joined before last after hagent hgeneration hjoin.1.symm
        hafter, pruneLoop_shrinks _ _ _⟩
    · split
      · exact ⟨_, _, List.filter_sublist.trans purge_sublist, .added _,
          pushPieces_shrinks hlength⟩
      · exact ⟨_, _, purge_sublist, .added _, pushPieces_shrinks hlength⟩

/-! ## The bounds -/

structure Bounded (pending : List PendingTranscriptPush) : Prop where
  backlog_le : ∀ agentId, backlog agentId pending ≤ TRANSCRIPT_PENDING_MAX_CHARS_PER_AGENT
  queuedAgents_le : queuedAgents pending ≤ TRANSCRIPT_PENDING_MAX_AGENTS

theorem bounded_nil : Bounded [] := ⟨fun _ => Nat.zero_le _, Nat.zero_le _⟩

theorem Bounded.sublist (h : Bounded whole) (hsub : pieces.Sublist whole) : Bounded pieces :=
  ⟨fun agentId => ((Shrinks.of_sublist hsub).backlog_le agentId).trans (h.backlog_le agentId),
    (Shrinks.of_sublist hsub).queuedAgents_le.trans h.queuedAgents_le⟩

theorem Extended.backlog_of_ne {base : List PendingTranscriptPush} {other : String}
    (h : Extended agentId generation offset chunk base whole) (hother : other ≠ agentId) :
    backlog other whole = backlog other base := by
  cases h with
  | added base =>
    rw [backlog_append, backlog_cons_of_ne hother.symm]
    rfl
  | joined before last after hagent =>
    rw [backlog_append, backlog_append, backlog_cons_of_ne (by rw [hagent]; exact hother.symm),
      backlog_cons_of_ne (by rw [hagent]; exact hother.symm)]

theorem Extended.backlog_self {base : List PendingTranscriptPush}
    (h : Extended agentId generation offset chunk base whole) :
    backlog agentId whole = backlog agentId base + chunk.length := by
  cases h with
  | added base =>
    rw [backlog_append]
    simp [backlog]
  | joined before last after hagent =>
    subst hagent
    have hlast := backlog_cons_self { last with chunk := last.chunk ++ chunk } after
    dsimp only at hlast
    rw [backlog_append, backlog_append, backlog_cons_self, hlast, List.length_append]
    omega

theorem pushPieces_bounded (pieces : List (ℕ × Output)) :
    backlog agentId (pushPieces agentId generation pieces pending) ≤
        TRANSCRIPT_PENDING_MAX_CHARS_PER_AGENT ∧
      queuedAgents (pushPieces agentId generation pieces pending) ≤
        TRANSCRIPT_PENDING_MAX_AGENTS :=
  ⟨((Shrinks.of_sublist (evictLoop_sublist agentId _ _)).backlog_le agentId).trans
    (backlog_prune agentId _), queuedAgents_evictLoop agentId (Nat.le_refl _)⟩

theorem queueTranscriptPiece_bounded (h : Bounded pending)
    (hlength : chunk.length ≤ TRANSCRIPT_PENDING_MAX_CHARS) :
    Bounded (queueTranscriptPiece agentId generation chunk offset pending) := by
  by_cases hchunk : chunk = []
  · rw [queueTranscriptPiece, if_pos hchunk]
    exact h
  · have hself : backlog agentId (queueTranscriptPiece agentId generation chunk offset pending) ≤
          TRANSCRIPT_PENDING_MAX_CHARS_PER_AGENT ∧
        queuedAgents (queueTranscriptPiece agentId generation chunk offset pending) ≤
          TRANSCRIPT_PENDING_MAX_AGENTS := by
      cases hsplit : splitAtLast (PendingTranscriptPush.isOf agentId generation)
        (purge agentId generation pending) with
      | none =>
        rw [queueTranscriptPiece_of_none hchunk hsplit]
        exact pushPieces_bounded _
      | some parts =>
        obtain ⟨before, last, after⟩ := parts
        rw [queueTranscriptPiece_of_some hchunk hsplit]
        obtain ⟨heq, -⟩ := splitAtLast_purge hsplit
        split
        · have hpurged : Bounded (purge agentId generation pending) := h.sublist purge_sublist
          rw [heq] at hpurged
          refine ⟨backlog_prune agentId _, (pruneLoop_shrinks _ _ _).queuedAgents_le.trans ?_⟩
          refine (queuedAgents_le_of_subset fun p hp => ?_).trans hpurged.queuedAgents_le
          obtain hp | hp := List.mem_append.1 hp
          · exact ⟨p, List.mem_append_left _ hp, rfl⟩
          · obtain rfl | hp := List.mem_cons.1 hp
            · exact ⟨last, List.mem_append_right _ List.mem_cons_self, rfl⟩
            · exact ⟨p, List.mem_append_right _ (List.mem_cons_of_mem _ hp), rfl⟩
        · split
          · exact pushPieces_bounded _
          · exact pushPieces_bounded _
    refine ⟨fun other => ?_, hself.2⟩
    by_cases hother : other = agentId
    · rw [hother]
      exact hself.1
    · obtain ⟨base, whole, hbase, hwhole, hshrinks⟩ : ∃ base whole, base.Sublist pending ∧
          Extended agentId generation offset chunk base whole ∧
          Shrinks (queueTranscriptPiece agentId generation chunk offset pending) whole :=
        queueTranscriptPiece_extended hchunk hlength
      have hle := hshrinks.backlog_le other
      rw [hwhole.backlog_of_ne hother] at hle
      exact hle.trans ((h.sublist hbase).backlog_le other)

/-! ## When nothing is dropped -/

/-- While little waits, a piece that continues its agent's stream is only added. -/
theorem queueTranscriptPiece_kept (hchunk : chunk ≠ [])
    (hlength : chunk.length ≤ TRANSCRIPT_PENDING_MAX_CHARS)
    (hfits : backlog agentId (purge agentId generation pending) + chunk.length ≤
      TRANSCRIPT_PENDING_MAX_CHARS_PER_AGENT)
    (hagents : queuedAgents (pending ++ [⟨agentId, generation, offset, chunk⟩]) ≤
      TRANSCRIPT_PENDING_MAX_AGENTS)
    (hcontinues : ∀ before last after, purge agentId generation pending = before ++ last :: after →
      last.agentId = agentId → (∀ q ∈ after, q.agentId ≠ agentId) → last.stop = offset) :
    Extended agentId generation offset chunk (purge agentId generation pending)
      (queueTranscriptPiece agentId generation chunk offset pending) := by
  have hpush : pushPieces agentId generation (splitTranscriptPush chunk offset)
      (purge agentId generation pending) =
        purge agentId generation pending ++ [⟨agentId, generation, offset, chunk⟩] := by
    have hself : backlog agentId (purge agentId generation pending ++
        [⟨agentId, generation, offset, chunk⟩]) =
          backlog agentId (purge agentId generation pending) + chunk.length :=
      (Extended.added _).backlog_self
    have hprune : prunePendingTranscriptBytes agentId (purge agentId generation pending ++
        [⟨agentId, generation, offset, chunk⟩]) =
          purge agentId generation pending ++ [⟨agentId, generation, offset, chunk⟩] :=
      prune_eq_self (by omega)
    have hle : queuedAgents (purge agentId generation pending ++
        [⟨agentId, generation, offset, chunk⟩]) ≤ TRANSCRIPT_PENDING_MAX_AGENTS := by
      refine le_trans (Shrinks.of_sublist ?_).queuedAgents_le hagents
      exact purge_sublist.append (.refl _)
    rw [splitTranscriptPush_of_short hlength]
    change evictLoop agentId (prunePendingTranscriptBytes agentId (purge agentId generation pending
      ++ [⟨agentId, generation, offset, chunk⟩])).length (prunePendingTranscriptBytes agentId (purge
        agentId generation pending ++ [⟨agentId, generation, offset, chunk⟩])) = _
    rw [hprune]
    generalize (purge agentId generation pending ++
      [(⟨agentId, generation, offset, chunk⟩ : PendingTranscriptPush)]).length = count
    cases count with
    | zero => rfl
    | succ count => rw [evictLoop, if_pos hle]
  cases hsplit : splitAtLast (PendingTranscriptPush.isOf agentId generation)
    (purge agentId generation pending) with
  | none =>
    rw [queueTranscriptPiece_of_none hchunk hsplit, hpush]
    exact .added _
  | some parts =>
    obtain ⟨before, last, after⟩ := parts
    rw [queueTranscriptPiece_of_some hchunk hsplit]
    obtain ⟨heq, hagent, hgeneration, hafter⟩ := splitAtLast_purge hsplit
    have hstop := hcontinues before last after heq hagent hafter
    split
    · have hjoined : Extended agentId generation offset chunk (purge agentId generation pending)
          (before ++ { last with chunk := last.chunk ++ chunk } :: after) := by
        rw [heq]
        exact .joined before last after hagent hgeneration hstop hafter
      have hself := hjoined.backlog_self
      rw [prune_eq_self (by omega)]
      exact hjoined
    · split
      · rename_i hne
        exact absurd hstop.symm hne
      · change Extended _ _ _ _ _ (pushPieces agentId generation
          (splitTranscriptPush chunk offset) (purge agentId generation pending))
        rw [hpush]
        exact .added _

end Orchestration.OperatorIpc
