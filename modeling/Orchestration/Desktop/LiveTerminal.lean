import Orchestration.Desktop.AgentsConsole

/-!
# The live terminal of the selected agent

The daemon's engine keeps the transcript of the agent's pane, pushes what the pane
writes, and answers backfill requests; the desktop shell asks for a backfill when the
console goes live and when a push leaves a gap. Pushes and answers are lost with the
connection. The engine counts its generations from zero in every run of the daemon.
-/

namespace Orchestration.Desktop

open Pty (Output TranscriptTailAccumulator)

/-! ## The engine -/

structure TerminalPane where
  /-- Everything that the pane has written. -/
  stream : Output := []
  alive : Bool := true
  /-- The engine's `onData` subscription. -/
  subscribed : Bool := true
deriving DecidableEq, Repr

/-- What the engine keeps for one agent. -/
structure TranscriptEngine where
  panes : List TerminalPane := []
  transcriptGeneration : ℕ := 0
  transcriptAccumulator : Option TranscriptTailAccumulator := none
  /-- The pane whose subscription `transcriptUnsub` ends. -/
  transcriptUnsub : Option ℕ := none
  launching : Option ℕ := none
  hosted : Option ℕ := none
  releasePending : Option ℕ := none
deriving DecidableEq, Repr

namespace TranscriptEngine

def updatePane (p : ℕ) (change : TerminalPane → TerminalPane) (e : TranscriptEngine) :
    TranscriptEngine :=
  { e with panes := e.panes.modify p change }

def kill (p : ℕ) (e : TranscriptEngine) : TranscriptEngine :=
  e.updatePane p fun pane => { pane with alive := false }

/-- `dropExitTracking`. -/
def dropExitTracking (e : TranscriptEngine) : TranscriptEngine :=
  let e :=
    match e.transcriptUnsub with
    | none => e
    | some p => e.updatePane p fun pane => { pane with subscribed := false }
  { e with transcriptUnsub := none, transcriptAccumulator := none }

/-- A launch spawns its pane, unless the agent is hosted or being launched. -/
def spawn (e : TranscriptEngine) : TranscriptEngine :=
  if e.hosted = none ∧ e.launching = none then
    { e with
      panes := e.panes ++ [{}]
      transcriptGeneration := e.transcriptGeneration + 1
      transcriptAccumulator := some {}
      transcriptUnsub := some e.panes.length
      launching := some e.panes.length }
  else e

def launched (e : TranscriptEngine) : TranscriptEngine :=
  match e.launching with
  | none => e
  | some p => { e with launching := none, hosted := some p }

def launchFails (e : TranscriptEngine) : TranscriptEngine :=
  match e.launching with
  | none => e
  | some p => { (e.kill p).dropExitTracking with launching := none }

/-- `release` between two turns. -/
def release (e : TranscriptEngine) : TranscriptEngine :=
  match e.hosted with
  | none => e
  | some p => { (e.dropExitTracking.kill p) with hosted := none }

/-- `release` during a turn. -/
def releaseInTurn (e : TranscriptEngine) : TranscriptEngine :=
  match e.hosted with
  | none => e
  | some p => { e with hosted := none, releasePending := some p }

/-- The turn ends whose release is pending. -/
def turnYields (e : TranscriptEngine) : TranscriptEngine :=
  match e.releasePending with
  | none => e
  | some p => { (e.dropExitTracking.kill p) with releasePending := none }

/-- `transcriptTailSnapshot`. -/
def transcriptTailSnapshot (agent : String) (e : TranscriptEngine) : TranscriptTail where
  agentId := agent
  generation := e.transcriptGeneration
  offset := (e.transcriptAccumulator.map TranscriptTailAccumulator.offset).getD 0
  tail := (e.transcriptAccumulator.map TranscriptTailAccumulator.tail).getD []

/-- `appendTranscript`, and what its listeners are given. -/
def appendTranscript (agent : String) (chunk : Output) (e : TranscriptEngine) :
    TranscriptEngine × OperatorIpcTranscript :=
  ({ e with transcriptAccumulator := e.transcriptAccumulator.map fun a => a.append chunk },
    { agentId := agent
      generation := e.transcriptGeneration
      offset := (e.transcriptAccumulator.map TranscriptTailAccumulator.nextOffset).getD 0
      chunk := chunk })

/-- A pane writes, while it lives. -/
def output (agent : String) (p : ℕ) (chunk : Output) (e : TranscriptEngine) :
    TranscriptEngine × Option OperatorIpcTranscript :=
  match e.panes[p]? with
  | some pane =>
    if pane.alive then
      let e := e.updatePane p fun pane => { pane with stream := pane.stream ++ chunk }
      if pane.subscribed then
        let appended := e.appendTranscript agent chunk
        (appended.1, some appended.2)
      else (e, none)
    else (e, none)
  | none => (e, none)

end TranscriptEngine

/-! ## Pushes on their way -/

def OperatorIpcTranscript.join (push next : OperatorIpcTranscript) : OperatorIpcTranscript :=
  { push with chunk := push.chunk ++ next.chunk }

def OperatorIpcTranscript.cut (excess : ℕ) (push : OperatorIpcTranscript) :
    OperatorIpcTranscript :=
  { push with offset := push.offset + excess, chunk := push.chunk.drop excess }

/-- The server joins a push to the one it continues. -/
def coalesceAt : ℕ → List OperatorIpcTranscript → List OperatorIpcTranscript
  | 0, first :: second :: pushes =>
    if first.agentId = second.agentId ∧ first.generation = second.generation ∧
        second.offset = first.offset + first.chunk.length then
      first.join second :: pushes
    else first :: second :: pushes
  | n + 1, first :: pushes => first :: coalesceAt n pushes
  | _, pushes => pushes

/-- The server cuts the front of a push when too much waits, and keeps the newest text. -/
def pruneAt (excess : ℕ) : ℕ → List OperatorIpcTranscript → List OperatorIpcTranscript
  | 0, first :: pushes =>
    if excess < first.chunk.length then first.cut excess :: pushes
    else if pushes.any fun later => later.generation = first.generation && later.chunk ≠ [] then
      pushes
    else first :: pushes
  | n + 1, first :: pushes => first :: pruneAt excess n pushes
  | _, [] => []

/-! ## The daemon and the desktop -/

/-- The connection between the desktop and the daemon. -/
inductive Link where
  | up
  /-- The daemon's side is gone, and the desktop has not noticed. -/
  | draining
  | down
deriving DecidableEq, Repr

structure LiveTerminal where
  engine : TranscriptEngine := {}
  link : Link := .down
  pushes : List OperatorIpcTranscript := []
  /-- Backfill requests without an answer. -/
  asked : List ℕ := []
  /-- Answers on their way. -/
  replies : List (ℕ × TranscriptTail) := []
  console : AgentsConsole := {}
  transcriptRequestSeq : ℕ := 0
  /-- The newest `refresh` of the connection waits for its observation. -/
  refreshing : Bool := false
  /-- The console has not started over since the connection was lost. -/
  behind : Bool := true
deriving DecidableEq, Repr

namespace LiveTerminal

def refreshSelectedTranscript (resetGeneration : Bool) (s : LiveTerminal) : LiveTerminal :=
  if s.console.selectedAgentId = none then s
  else
    { s with
      console := if resetGeneration then s.console.clearSelectedTranscript else s.console
      transcriptRequestSeq := s.transcriptRequestSeq + 1
      asked := s.asked ++ [s.transcriptRequestSeq + 1] }

/-- What the console does with the answer to a request. -/
def settleTranscript (seq : ℕ) (tail : TranscriptTail) (s : LiveTerminal) : LiveTerminal :=
  if seq = s.transcriptRequestSeq then { s with console := s.console.setTranscriptTail tail } else s

/-- `updateAgentsConsole` with a live observation. -/
def updateLive (backfill : Bool) (s : LiveTerminal) : LiveTerminal :=
  let wasLive := s.console.live
  let s : LiveTerminal := { s with console := { s.console with live := true } }
  if backfill || !wasLive then { s.refreshSelectedTranscript true with behind := false } else s

/-- `updateAgentsConsole` with a static observation. -/
def updateStatic (s : LiveTerminal) : LiveTerminal :=
  { s with console := { s.console with live := false } }

/-- The answer to a transcript request that the daemon does not answer. -/
def emptyTail (agent : String) : TranscriptTail := ⟨agent, 0, 0, []⟩

/-- What can happen next. -/
inductive Op where
  | spawn
  | launched
  | launchFails
  | release
  | releaseInTurn
  | turnYields
  | output (pane : ℕ) (chunk : Output)
  | coalesce (n : ℕ)
  | prune (n excess : ℕ)
  /-- The daemon stops, and another one starts. -/
  | restart
  /-- The daemon loses the connection. -/
  | drop
  /-- The desktop notices that the connection is lost. -/
  | closeEvent
  | connect
  | select
  | push
  | answer (seq : ℕ)
  | reply (n : ℕ)
  | unanswered (seq : ℕ)
  | refresh
  | observedLive
  | observedStatic
  | refreshFails
  | tick
deriving DecidableEq, Repr

/-- The server forwards a push while a client is attached. -/
def forward (push : Option OperatorIpcTranscript) (s : LiveTerminal) : LiveTerminal :=
  match push with
  | some push => if s.link = .up then { s with pushes := s.pushes ++ [push] } else s
  | none => s

def deliverPush (s : LiveTerminal) : LiveTerminal :=
  match s.pushes with
  | [] => s
  | push :: pushes =>
    let appended := s.console.appendChunk push
    let s : LiveTerminal := { s with pushes := pushes, console := appended.1 }
    if appended.2 = .gap then s.refreshSelectedTranscript true else s

def deliverReply (n : ℕ) (s : LiveTerminal) : LiveTerminal :=
  match s.replies[n]? with
  | none => s
  | some (seq, tail) => { s with replies := s.replies.eraseIdx n }.settleTranscript seq tail

def closeEvent (agent : String) (s : LiveTerminal) : LiveTerminal :=
  if s.link = .down then s
  else
    let waiting : Bool := s.transcriptRequestSeq ∈ s.asked ++ s.replies.map Prod.fst
    let s := if waiting then s.settleTranscript s.transcriptRequestSeq (emptyTail agent) else s
    { s with
      link := .down
      pushes := []
      asked := []
      replies := []
      refreshing := true
      behind := true }

/-- `agent` is the agent that is selected. -/
def step (agent : String) : Op → LiveTerminal → LiveTerminal
  | .spawn, s => { s with engine := s.engine.spawn }
  | .launched, s => { s with engine := s.engine.launched }
  | .launchFails, s => { s with engine := s.engine.launchFails }
  | .release, s => { s with engine := s.engine.release }
  | .releaseInTurn, s => { s with engine := s.engine.releaseInTurn }
  | .turnYields, s => { s with engine := s.engine.turnYields }
  | .output p chunk, s =>
    let written := s.engine.output agent p chunk
    { s with engine := written.1 }.forward written.2
  | .coalesce n, s => { s with pushes := coalesceAt n s.pushes }
  | .prune n excess, s => { s with pushes := pruneAt excess n s.pushes }
  | .restart, s => { s with engine := {}, link := if s.link = .down then .down else .draining }
  | .drop, s => if s.link = .up then { s with link := .draining } else s
  | .closeEvent, s => s.closeEvent agent
  | .connect, s => if s.link = .down then { s with link := .up } else s
  | .select, s =>
    { s with console := s.console.selectAgent (some agent) }.refreshSelectedTranscript false
  | .push, s => s.deliverPush
  | .answer seq, s =>
    if s.link = .up ∧ seq ∈ s.asked then
      { s with
        asked := s.asked.erase seq
        replies := s.replies ++ [(seq, s.engine.transcriptTailSnapshot agent)] }
    else s
  | .reply n, s => s.deliverReply n
  | .unanswered seq, s =>
    if s.link ≠ .up ∧ seq ∈ s.asked then
      { s with asked := s.asked.erase seq }.settleTranscript seq (emptyTail agent)
    else s
  | .refresh, s => { s with refreshing := true }
  | .observedLive, s =>
    if s.refreshing = true ∧ s.link ≠ .down then
      { s with refreshing := false }.updateLive true
    else s
  | .observedStatic, s =>
    if s.refreshing then { s with refreshing := false }.updateStatic else s
  | .refreshFails, s => { s with refreshing := false }
  | .tick, s => if s.link = .down then s else s.updateLive false

end LiveTerminal

end Orchestration.Desktop
