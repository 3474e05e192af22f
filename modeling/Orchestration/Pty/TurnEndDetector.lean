import Orchestration.Dispatch.Events
import Orchestration.Js.Number

/-!
# Turn ends

A turn is idle once its pane has rendered something and then stayed quiet for the
quiet window, with no tool call open and the last one as far back. Idle says
nothing about completion, which only the completion verbs do.
-/

namespace Orchestration.Pty

open Dispatch (Provider)

/-- The byte-quiet window that marks a turn idle, in milliseconds. -/
def QUIET_WINDOW_MS : ℚ := 2500

/-- The tool calls that mean work is done. -/
def COMPLETION_VERBS : List String := ["co_finish", "worker_done"]

/-- One timestamped observation in a turn trace. -/
inductive DetectorEvent where
  | bytes («at» : ℚ) (bytes : Option ℕ := none)
  | osc0 («at» : ℚ) (title : String)
  | mcp («at» : ℚ) (verb : String)
  | mcpStart («at» : ℚ) (verb : String)
  | mcpEnd («at» : ℚ) (verb : String) (ok : Option Bool := none)
deriving DecidableEq, Repr

def DetectorEvent.at : DetectorEvent → ℚ
  | bytes «at» _ | osc0 «at» _ | mcp «at» _ | mcpStart «at» _ | mcpEnd «at» _ _ => «at»

/-- Why a turn is believed to be idle. -/
inductive IdleSignal where
  | byteQuiescence
  | codexOsc0
  | mcpQuiescence
deriving DecidableEq, Repr

structure TurnEndConfig where
  provider : Option Provider := none
  quietWindowMs : Option ℚ := none
deriving DecidableEq, Repr

structure TurnEndResult where
  idle : Bool
  sawCompletionVerb : Bool
  idleSignals : List IdleSignal
deriving DecidableEq, Repr

/-- What the detector has gathered from the trace so far. -/
structure TurnTrace where
  lastByteAt : Option ℚ := none
  lastMcpAt : Option ℚ := none
  activeMcpCalls : ℕ := 0
  latestOsc0 : Option (ℚ × String) := none
  sawCompletionVerb : Bool := false
deriving DecidableEq, Repr

/-- The later of the last time and this one. -/
def laterOf (last : Option ℚ) («at» : ℚ) : Option ℚ :=
  match last with
  | none => some «at»
  | some t => if t < «at» then some «at» else some t

/-- Take one event of the trace in. -/
def TurnTrace.add (s : TurnTrace) : DetectorEvent → TurnTrace
  | .bytes «at» _ => { s with lastByteAt := laterOf s.lastByteAt «at» }
  | .mcp «at» verb => { s with
      lastMcpAt := laterOf s.lastMcpAt «at»
      sawCompletionVerb := s.sawCompletionVerb || COMPLETION_VERBS.contains verb }
  | .mcpStart «at» _ => { s with
      activeMcpCalls := s.activeMcpCalls + 1
      lastMcpAt := laterOf s.lastMcpAt «at» }
  | .mcpEnd «at» verb ok => { s with
      activeMcpCalls := s.activeMcpCalls - 1
      lastMcpAt := laterOf s.lastMcpAt «at»
      sawCompletionVerb :=
        s.sawCompletionVerb || COMPLETION_VERBS.contains verb && ok != some false }
  | .osc0 «at» title => { s with
      latestOsc0 :=
        match s.latestOsc0 with
        | none => some («at», title)
        | some (t, old) => if t ≤ «at» then some («at», title) else some (t, old) }

/-- A codex title that leads with neither a braille spinner nor the activity glyph. -/
def isCodexIdleTitle (title : String) : Bool :=
  match Js.trim title.toList with
  | [] => false
  | first :: _ =>
    !(0x2800 ≤ first.toNat && first.toNat ≤ 0x28ff) && first.toNat != 0x2733

/-- The idle verdict for a turn trace. -/
def detectTurnEnd (trace : List DetectorEvent) (observedAt : ℚ) (config : TurnEndConfig := {}) :
    TurnEndResult :=
  let quietWindow := config.quietWindowMs.getD QUIET_WINDOW_MS
  let s := trace.foldl TurnTrace.add {}
  -- a session that never rendered a byte has nothing to have gone quiet from
  let byteQuiet := s.lastByteAt.any fun last => quietWindow ≤ observedAt - last
  let mcpQuiet :=
    s.activeMcpCalls == 0 && s.lastMcpAt.all fun last => quietWindow ≤ observedAt - last
  let codexOsc0IdleEdge :=
    config.provider == some .codex && s.latestOsc0.any fun osc0 => isCodexIdleTitle osc0.2
  let idle := byteQuiet && mcpQuiet
  { idle
    sawCompletionVerb := s.sawCompletionVerb
    idleSignals :=
      if idle then
        .byteQuiescence :: (if codexOsc0IdleEdge then [.codexOsc0] else []) ++ [.mcpQuiescence]
      else [] }

end Orchestration.Pty
