import Orchestration.Js.Number
import Orchestration.Library.Run
import Mathlib.Data.List.MinMax
import Mathlib.Data.Fintype.Pi
import Mathlib.Algebra.Order.BigOperators.Group.List

/-!
# Codex turn costs

Codex reports running totals of a session. What is recorded for a turn is the
difference to the reading before, which is kept in memory and packed into the
source id of what was recorded, so that a restarted daemon finds it again. The
differences add up to the totals as long as no counter is left out of the reading
that the next one is compared with.
-/

namespace Orchestration.Conductor

/-! ## Readings -/

/-- The counters of a reading. -/
inductive TokenKey where
  | inputTokens
  | outputTokens
  | totalTokens
deriving DecidableEq, Repr

def TokenKey.all : List TokenKey := [.inputTokens, .outputTokens, .totalTokens]

theorem TokenKey.mem_all (key : TokenKey) : key ∈ TokenKey.all := by
  cases key <;> decide

/-- Some of the counters, as an object whose fields are optional. -/
abbrev TokenCounts := TokenKey → Option ℕ

/-- The last session-cumulative reading of an agent. -/
abbrev CodexCumulativeReading := TokenCounts

/-- What a `token_count` payload was parsed to. -/
structure CodexTurnCost where
  counts : TokenCounts
  usedPct : Option Float := none
  cumulative : Bool := false

/-- The characters that no `.` of a pattern matches. -/
def endsLine (c : Char) : Bool :=
  c = '\n' || c = '\r' || c.toNat = 0x2028 || c.toNat = 0x2029

/-- A payload of the log, if it parses, and the id of its row. Ids are percent-encoded or
hexadecimal, so they stand on one line. -/
structure CodexTokenCountReadout where
  parsed : Option CodexTurnCost
  sourceId : List Char
  oneLine : sourceId.all (fun c => !endsLine c) = true

/-! ## The difference to the reading before -/

/-- The positive per-turn delta of one counter, or nothing when there is no new usage. -/
def positiveDelta (current previous : Option ℕ) : Option ℕ :=
  match current with
  | none => none
  | some current => if previous.getD 0 < current then some (current - previous.getD 0) else none

/-- The reading with the deltas added. -/
def advanceCumulativeReading (previous : Option CodexCumulativeReading) (delta : TokenCounts) :
    Option CodexCumulativeReading :=
  let next : CodexCumulativeReading := fun key =>
    let before := previous.bind fun reading => reading key
    match delta key with
    | some n => some (before.getD 0 + n)
    | none => before
  if TokenKey.all.any fun key => (next key).isSome then some next else none

def lowerThanPrevious (current previous : Option ℕ) : Bool :=
  match current, previous with
  | some current, some previous => decide (current < previous)
  | _, _ => false

def cumulativeReadingReset (current previous : CodexCumulativeReading) : Bool :=
  TokenKey.all.any fun key => lowerThanPrevious (current key) (previous key)

/-- The readings by agent. -/
abbrev LastByAgent := String → Option CodexCumulativeReading

/-- What a turn cost: the counts to record, and the reading to pack into their source id. -/
structure PerTurn where
  cost : TokenCounts
  usedPct : Option Float
  cumulative : Option CodexCumulativeReading

/-- The cost of a turn, and the readings by agent after it. -/
def codexPerTurnDelta (agent : String) (parsed : CodexTurnCost) (lastByAgent : LastByAgent)
    (priorCumulative : Option CodexCumulativeReading) : PerTurn × LastByAgent :=
  let prev := (lastByAgent agent).or priorCumulative
  if !parsed.cumulative then
    let cumulative := advanceCumulativeReading prev parsed.counts
    (⟨parsed.counts, parsed.usedPct, cumulative⟩,
      if cumulative.isSome then Function.update lastByAgent agent cumulative else lastByAgent)
  else
    -- the reading replaces the one before, with the counters it has
    let current := parsed.counts
    let cost : TokenCounts :=
      if prev.any (cumulativeReadingReset current) then current
      else fun key => positiveDelta (current key) (prev.bind fun reading => reading key)
    (⟨cost, parsed.usedPct, some current⟩, Function.update lastByAgent agent (some current))

/-! ## Source ids -/

/-- A counter in a source id, empty when it was not read. -/
def packCount (count : Option ℕ) : List Char :=
  match count with
  | some n => (toString n).toList
  | none => []

def codexCostSourceId (baseSourceId : List Char) (cumulative : Option CodexCumulativeReading) :
    List Char :=
  let count (key : TokenKey) := packCount (cumulative.bind fun reading => reading key)
  "codex-source:v1:".toList ++ baseSourceId ++ ':' :: count .inputTokens ++
    ':' :: count .outputTokens ++ ':' :: count .totalTokens

/-- A counter of a source id. Counts are whole numbers here. -/
def sourceNumber (raw : List Char) : Option ℕ :=
  if raw = [] then none
  else (Js.numeric? (String.ofList raw)).bind fun q =>
    if q.den = 1 ∧ 0 ≤ q then some q.num.toNat else none

/-- `^tag:v1:.*:([^:]*):([^:]*):([^:]*)$`: the three fields at the end. -/
def packedFields (tag sourceId : List Char) : Option (List Char × List Char × List Char) :=
  match sourceId.splitOn ':' with
  | t :: v :: fields =>
    match fields.reverse with
    | total :: output :: input :: base =>
      if t = tag ∧ v = "v1".toList ∧ base ≠ [] ∧
          base.all (fun part => part.all fun c => !endsLine c) = true then
        some (input, output, total)
      else none
    | _ => none
  | _ => none

def parseCodexCumulativeSourceId (sourceId : Option (List Char)) : Option CodexCumulativeReading :=
  sourceId.bind fun sourceId =>
    ((packedFields "codex-source".toList sourceId).or
      (packedFields "codex-cumulative".toList sourceId)).map fun (input, output, total) key =>
        match key with
        | .inputTokens => sourceNumber input
        | .outputTokens => sourceNumber output
        | .totalTokens => sourceNumber total

/-! ## Recording -/

/-- What was recorded for a turn of an agent; the task is the agent's own. -/
structure CodexCostRecorded where
  agent : String
  turn : ℕ
  sourceId : List Char
  counts : TokenCounts
  usedPct : Option Float

/-- The observations of the store, and the readings that the closure holds. -/
structure TurnCostCapture where
  observations : List CodexCostRecorded := []
  lastByAgent : LastByAgent := fun _ => none

namespace TurnCostCapture

variable (s : TurnCostCapture)

def observationsOf (agent : String) : List CodexCostRecorded :=
  s.observations.filter fun obs => obs.agent = agent

/-- The source id of the agent's observation with the latest turn. -/
def latestCostSourceId (agent : String) : Option (List Char) :=
  ((s.observationsOf agent).argmax CodexCostRecorded.turn).map CodexCostRecorded.sourceId

/-- The turn to record under: past every recorded one. -/
def nextCostTurn (agent : String) (proposedTurn : ℕ) : ℕ :=
  match ((s.observationsOf agent).map CodexCostRecorded.turn).max? with
  | none => proposedTurn
  | some maxTurn => max proposedTurn (maxTurn + 1)

/-- The reading that the next one is compared with. -/
def remembered (agent : String) : Option CodexCumulativeReading :=
  (s.lastByAgent agent).or (parseCodexCumulativeSourceId (s.latestCostSourceId agent))

/-- Some field of the observation was measured. -/
def hasMeasuredCostField (counts : TokenCounts) (usedPct : Option Float) : Bool :=
  (TokenKey.all.any fun key => (counts key).isSome) || usedPct.isSome

/-- The store refuses an observation with a negative percentage. -/
def validPct (usedPct : Option Float) : Bool := usedPct.all fun pct => 0 ≤ pct

/-- Read the cost of a turn and record it, if there is any; what the reading replaced in memory
stays replaced when the store refuses. -/
def capture (agent : String) (turn : ℕ) (readout : Option CodexTokenCountReadout) :
    TurnCostCapture :=
  match readout with
  | none => s
  | some readout =>
    match readout.parsed with
    | none => s
    | some parsed =>
      let prior := parseCodexCumulativeSourceId (s.latestCostSourceId agent)
      let (perTurn, lastByAgent) := codexPerTurnDelta agent parsed s.lastByAgent prior
      let recorded : List CodexCostRecorded :=
        if hasMeasuredCostField perTurn.cost perTurn.usedPct && validPct perTurn.usedPct then
          [{ agent
             turn := s.nextCostTurn agent turn
             sourceId := codexCostSourceId readout.sourceId perTurn.cumulative
             counts := perTurn.cost
             usedPct := perTurn.usedPct }]
        else []
      { observations := s.observations ++ recorded, lastByAgent }

/-- What is recorded for an agent under a counter, over all turns. -/
def recorded (agent : String) (key : TokenKey) : ℕ :=
  ((s.observationsOf agent).map fun obs => (obs.counts key).getD 0).sum

end TurnCostCapture

end Orchestration.Conductor
