import Mathlib.Algebra.GroupWithZero.Nat
import Mathlib.Data.Finset.Card
import Orchestration.Library.Slice
import Orchestration.Pty.TranscriptTail

/-!
# Pushing transcripts to the operator

The server sends one piece of terminal output at a time. What comes while a send is in
flight waits: pieces that continue one another are joined, the oldest text of an agent is cut
when too much waits, and a newer generation supersedes what waits of an older one.
-/

namespace Orchestration.OperatorIpc

open Pty (Output)

def TRANSCRIPT_PENDING_MAX_CHARS : ℕ := 64 * 1024
def TRANSCRIPT_PENDING_MAX_AGENTS : ℕ := 256
def TRANSCRIPT_PENDING_MAX_CHARS_PER_AGENT : ℕ := 4 * TRANSCRIPT_PENDING_MAX_CHARS

structure PendingTranscriptPush where
  agentId : String
  generation : ℕ
  offset : ℕ
  chunk : Output
deriving DecidableEq, Repr

namespace PendingTranscriptPush

def stop (p : PendingTranscriptPush) : ℕ := p.offset + p.chunk.length

/-- The piece is of the agent and of the generation. -/
def isOf (agentId : String) (generation : ℕ) (p : PendingTranscriptPush) : Bool :=
  p.agentId = agentId && p.generation = generation

end PendingTranscriptPush

/-- The pieces of a chunk from `start` on, at most `count` of them. -/
def splitLoop : ℕ → ℕ → Output → List (ℕ × Output)
  | 0, _, _ => []
  | count + 1, offset, chunk =>
    if chunk = [] then []
    else
      (offset, chunk.take TRANSCRIPT_PENDING_MAX_CHARS) ::
        splitLoop count (offset + TRANSCRIPT_PENDING_MAX_CHARS)
          (chunk.drop TRANSCRIPT_PENDING_MAX_CHARS)

def splitTranscriptPush (chunk : Output) (offset : ℕ) : List (ℕ × Output) :=
  if chunk.length ≤ TRANSCRIPT_PENDING_MAX_CHARS then [(offset, chunk)]
  else splitLoop chunk.length offset chunk

/-! ## The pieces that wait -/

/-- The last element that is `mine`, with what stands before and after it. -/
def splitAtLast {α : Type} (mine : α → Bool) : List α → Option (List α × α × List α)
  | [] => none
  | x :: xs =>
    match splitAtLast mine xs with
    | some (before, last, after) => some (x :: before, last, after)
    | none => if mine x then some ([], x, xs) else none

/-- The characters of the agent that wait. -/
def backlog (agentId : String) (pending : List PendingTranscriptPush) : ℕ :=
  ((pending.filter fun p => p.agentId = agentId).map fun p => p.chunk.length).sum

/-- Cut `excess` characters of the agent, the oldest first. -/
def pruneLoop (agentId : String) : List PendingTranscriptPush → ℕ → List PendingTranscriptPush
  | [], _ => []
  | p :: ps, excess =>
    if excess = 0 then p :: ps
    else if p.agentId ≠ agentId then p :: pruneLoop agentId ps excess
    else if p.chunk.length ≤ excess then pruneLoop agentId ps (excess - p.chunk.length)
    else { p with offset := p.offset + excess, chunk := p.chunk.drop excess } :: ps

def prunePendingTranscriptBytes (agentId : String) (pending : List PendingTranscriptPush) :
    List PendingTranscriptPush :=
  pruneLoop agentId pending (backlog agentId pending - TRANSCRIPT_PENDING_MAX_CHARS_PER_AGENT)

/-- `new Set(pending.map((p) => p.agentId)).size`. -/
def queuedAgents (pending : List PendingTranscriptPush) : ℕ :=
  (pending.map PendingTranscriptPush.agentId).toFinset.card

def dropAgent (agentId : String) (pending : List PendingTranscriptPush) :
    List PendingTranscriptPush :=
  pending.filter fun p => p.agentId ≠ agentId

/-- Drop whole agents, others than `agentId` first, in at most `count` rounds. -/
def evictLoop (agentId : String) : ℕ → List PendingTranscriptPush → List PendingTranscriptPush
  | 0, pending => pending
  | count + 1, pending =>
    if queuedAgents pending ≤ TRANSCRIPT_PENDING_MAX_AGENTS then pending
    else
      match (pending.find? fun p => p.agentId ≠ agentId).or pending.head? with
      | none => pending
      | some drop => evictLoop agentId count (dropAgent drop.agentId pending)

/-- The pieces are pushed to the end, and what is too much is cut and dropped. -/
def pushPieces (agentId : String) (generation : ℕ) (pieces : List (ℕ × Output))
    (pending : List PendingTranscriptPush) : List PendingTranscriptPush :=
  let pruned := prunePendingTranscriptBytes agentId
    (pending ++ pieces.map fun piece => ⟨agentId, generation, piece.1, piece.2⟩)
  evictLoop agentId pruned.length pruned

def queueTranscriptPiece (agentId : String) (generation : ℕ) (chunk : Output) (offset : ℕ)
    (pending : List PendingTranscriptPush) : List PendingTranscriptPush :=
  if chunk = [] then pending
  else
    let pending := pending.filter fun p => !(p.agentId = agentId && p.generation ≠ generation)
    match splitAtLast (PendingTranscriptPush.isOf agentId generation) pending with
    | none => pushPieces agentId generation (splitTranscriptPush chunk offset) pending
    | some (before, last, after) =>
      if offset = last.stop ∧
          last.chunk.length + chunk.length ≤ TRANSCRIPT_PENDING_MAX_CHARS then
        prunePendingTranscriptBytes agentId
          (before ++ { last with chunk := last.chunk ++ chunk } :: after)
      else if offset ≠ last.stop then
        pushPieces agentId generation (splitTranscriptPush chunk offset)
          (dropAgent agentId pending)
      else pushPieces agentId generation (splitTranscriptPush chunk offset) pending

def queueTranscriptPushes (generation : ℕ) (agentId : String) (pushes : List (ℕ × Output))
    (pending : List PendingTranscriptPush) : List PendingTranscriptPush :=
  pushes.foldl (fun pending push =>
    queueTranscriptPiece agentId generation push.2 push.1 pending) pending

/-! ## The server -/

structure TranscriptPusher where
  /-- `transport.connected`. -/
  connected : Bool := false
  pendingTranscriptPushes : List PendingTranscriptPush := []
  transcriptPushInFlight : Bool := false
  /-- The sends that the transport has not settled. -/
  unsettled : ℕ := 0
  /-- What was given to the transport, the oldest first. -/
  sent : List PendingTranscriptPush := []
  /-- What `pushTranscript` was called with, the oldest first. -/
  produced : List PendingTranscriptPush := []
deriving DecidableEq, Repr

namespace TranscriptPusher

def sendTranscriptPush (piece : PendingTranscriptPush) (s : TranscriptPusher) :
    TranscriptPusher :=
  { s with
    transcriptPushInFlight := true
    unsettled := s.unsettled + 1
    sent := s.sent ++ [piece] }

def pushTranscript (agentId : String) (generation : ℕ) (chunk : Output) (offset : ℕ)
    (s : TranscriptPusher) : TranscriptPusher :=
  if !s.connected then s
  else
    match splitTranscriptPush chunk offset with
    | [] => s
    | first :: rest =>
      if s.transcriptPushInFlight then
        { s with
          pendingTranscriptPushes :=
            queueTranscriptPushes generation agentId (first :: rest) s.pendingTranscriptPushes }
      else
        let queued : TranscriptPusher := { s with
          pendingTranscriptPushes :=
            queueTranscriptPushes generation agentId rest s.pendingTranscriptPushes }
        queued.sendTranscriptPush ⟨agentId, generation, first.1, first.2⟩

def giveUp (s : TranscriptPusher) : TranscriptPusher :=
  { s with pendingTranscriptPushes := [], transcriptPushInFlight := false }

def drainTranscriptPush (s : TranscriptPusher) : TranscriptPusher :=
  if !s.connected then s.giveUp
  else
    match s.pendingTranscriptPushes with
    | [] => { s with transcriptPushInFlight := false }
    | next :: rest => sendTranscriptPush next { s with pendingTranscriptPushes := rest }

/-- What can happen next. -/
inductive Op where
  | push (agentId : String) (generation : ℕ) (chunk : Output) (offset : ℕ)
  /-- A send that is not settled succeeds. -/
  | sendDone
  | sendFails
  | connect
  | disconnect
deriving DecidableEq, Repr

def step : Op → TranscriptPusher → TranscriptPusher
  | .push agentId generation chunk offset, s =>
    let asked : TranscriptPusher :=
      { s with produced := s.produced ++ [⟨agentId, generation, offset, chunk⟩] }
    asked.pushTranscript agentId generation chunk offset
  | .sendDone, s =>
    if s.unsettled = 0 then s
    else drainTranscriptPush { s with unsettled := s.unsettled - 1 }
  | .sendFails, s =>
    if s.unsettled = 0 then s
    else giveUp { s with unsettled := s.unsettled - 1 }
  | .connect, s => { s with connected := true }
  | .disconnect, s => { s with connected := false }

end TranscriptPusher

end Orchestration.OperatorIpc
