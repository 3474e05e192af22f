import Orchestration.Conductor.CodexCosts
import Orchestration.Library.Splitting

/-!
# Codex totals

Over a session the recorded differences telescope to the counters that were read
last, exactly as long as no reading is compared with one that leaves out a counter
of it that has counted before.
-/

namespace Orchestration.Conductor

open TurnCostCapture
open Splitting

/-! ## Source ids are read back -/

theorem isDigit_of_mem_packCount {count : Option ℕ} {c : Char} (h : c ∈ packCount count) :
    c.isDigit = true := by
  cases count with
  | none => cases h
  | some n => exact Js.isDigit_of_mem_toString h

theorem colon_not_mem_packCount (count : Option ℕ) : ':' ∉ packCount count := by
  intro h
  exact absurd (isDigit_of_mem_packCount h) (by decide)

theorem sourceNumber_packCount (count : Option ℕ) : sourceNumber (packCount count) = count := by
  cases count with
  | none => rfl
  | some n =>
    rw [sourceNumber, packCount, if_neg (Js.toString_toList_ne_nil n), String.ofList_toList,
      Js.numeric?_toString]
    simp

/-- The parts of a text stand on one line when the text does. -/
theorem oneLine_splitOn {text : List Char} (h : text.all (fun c => !endsLine c) = true) :
    (text.splitOn ':').all (fun part => part.all fun c => !endsLine c) = true := by
  rw [List.all_eq_true] at h ⊢
  intro part hpart
  rw [List.all_eq_true]
  intro c hc
  exact h c ((mem_of_mem_splitOn hpart).2 c hc)

/-- The source id of a recorded turn gives the reading back. -/
theorem parseCodexCumulativeSourceId_pack (readout : CodexTokenCountReadout)
    (reading : CodexCumulativeReading) :
    parseCodexCumulativeSourceId (some (codexCostSourceId readout.sourceId (some reading))) =
      some reading := by
  have hcount : ∀ key, (packCount (reading key)).splitOn ':' = [packCount (reading key)] :=
    fun key => List.splitOn_eq_singleton (colon_not_mem_packCount _)
  have htag : ':' ∉ "codex-source".toList := by simp
  have hversion : ':' ∉ "v1".toList := by simp
  have hlead : "codex-source:v1:".toList = "codex-source".toList ++ ':' :: ("v1".toList ++ [':']) := by
    simp
  have hsplit : (codexCostSourceId readout.sourceId (some reading)).splitOn ':' =
      "codex-source".toList :: "v1".toList :: (readout.sourceId.splitOn ':' ++
        [packCount (reading .inputTokens), packCount (reading .outputTokens),
          packCount (reading .totalTokens)]) := by
    change ("codex-source:v1:".toList ++ readout.sourceId ++ ':' :: packCount (reading .inputTokens) ++
      ':' :: packCount (reading .outputTokens) ++
        ':' :: packCount (reading .totalTokens)).splitOn ':' = _
    rw [hlead]
    generalize "codex-source".toList = tag, "v1".toList = version at htag hversion
    simp only [List.append_assoc, List.cons_append, List.nil_append]
    rw [List.splitOn_append_cons_self_of_not_mem htag,
      List.splitOn_append_cons_self_of_not_mem hversion]
    simp only [List.splitOn_append_cons_self, hcount, List.cons_append, List.nil_append]
  have hfields : packedFields "codex-source".toList
      (codexCostSourceId readout.sourceId (some reading)) =
        some (packCount (reading .inputTokens), packCount (reading .outputTokens),
          packCount (reading .totalTokens)) := by
    have hbase : (readout.sourceId.splitOn ':').reverse ≠ [] := by
      simp
    have hline : (readout.sourceId.splitOn ':').reverse.all
        (fun part => part.all fun c => !endsLine c) = true := by
      rw [List.all_reverse]
      exact oneLine_splitOn readout.oneLine
    simp only [packedFields, hsplit, List.reverse_append, List.reverse_cons, List.reverse_nil,
      List.nil_append, List.cons_append]
    exact if_pos ⟨trivial, trivial, hbase, hline⟩
  rw [parseCodexCumulativeSourceId, Option.bind_some, hfields]
  simp only [Option.some_or, Option.map_some, sourceNumber_packCount]
  congr 1
  funext key
  cases key <;> rfl

/-! ## A session -/

/-- A capture of an agent's turn, or a restart of the daemon, which forgets the readings. -/
inductive SessionStep where
  | capture (agent : String) (turn : ℕ) (readout : Option CodexTokenCountReadout)
  | restart

/-- The capture, and what was read last of each counter, zero before the first reading. -/
structure CostSession where
  costs : TurnCostCapture := {}
  lastRead : String → TokenKey → ℕ := fun _ _ => 0

/-- The counts that a step reads for an agent. -/
def SessionStep.reads (agent : String) : SessionStep → TokenCounts
  | .capture a _ (some readout) => if a = agent then (readout.parsed.map (·.counts)).getD fun _ => none
    else fun _ => none
  | _ => fun _ => none

def sessionStep (step : SessionStep) (s : CostSession) : CostSession where
  costs := match step with
    | .capture agent turn readout => s.costs.capture agent turn readout
    | .restart => { s.costs with lastByAgent := fun _ => none }
  lastRead := fun agent key => (step.reads agent key).getD (s.lastRead agent key)

/-- A reading of the agent carries running totals, none of which is lower than it was. -/
def CountsUp (agent : String) (step : SessionStep) (s : CostSession) : Prop :=
  ∀ turn readout parsed, step = .capture agent turn (some readout) → readout.parsed = some parsed →
    parsed.cumulative = true ∧ validPct parsed.usedPct = true ∧
      ∀ key n, parsed.counts key = some n → s.lastRead agent key ≤ n

/-- If the counter is read, it was in the reading it is compared with, or has read nothing but
zero so far. -/
def KeepsCounter (agent : String) (step : SessionStep) (s : CostSession) (key : TokenKey) : Prop :=
  (step.reads agent key).isSome = true →
    ((s.costs.remembered agent).bind fun reading => reading key).isSome = true ∨
      s.lastRead agent key = 0

/-- No counter that is read is compared with a reading that leaves it out after it has counted. -/
def KeepsCounters (agent : String) (step : SessionStep) (s : CostSession) : Prop :=
  ∀ key, KeepsCounter agent step s key

/-- What is recorded under a counter is what was read of it last. -/
def CostSession.Telescopes (s : CostSession) (agent : String) (key : TokenKey) : Prop :=
  s.costs.recorded agent key = s.lastRead agent key

/-- What the capture remembers of an agent are counters as they were read last, and what it
recorded is no less. -/
structure CostSession.Sound (s : CostSession) (agent : String) : Prop where
  memory : ∀ reading, s.costs.lastByAgent agent = some reading →
    ∀ key n, reading key = some n → n = s.lastRead agent key
  log : ∀ reading, parseCodexCumulativeSourceId (s.costs.latestCostSourceId agent) = some reading →
    ∀ key n, reading key = some n → n = s.lastRead agent key
  covered : ∀ key, s.lastRead agent key ≤ s.costs.recorded agent key

/-! ## One step -/

section

variable {s : CostSession} {costs : TurnCostCapture} {agent : String}

/-- Past every turn that was recorded for the agent. -/
theorem lt_nextCostTurn {obs : CodexCostRecorded} (proposedTurn : ℕ)
    (hobs : obs ∈ costs.observationsOf agent) : obs.turn < costs.nextCostTurn agent proposedTurn := by
  have hturn := List.mem_map_of_mem (f := CodexCostRecorded.turn) hobs
  rw [nextCostTurn]
  split
  · next hnone =>
    rw [List.max?_eq_none_iff.1 hnone] at hturn
    cases hturn
  · next maxTurn hmax =>
    have hle : obs.turn ≤ maxTurn := (List.max?_le_iff hmax).1 le_rfl _ hturn
    omega

/-- An observation that is recorded past every turn of the agent is its latest. -/
theorem latestCostSourceId_append {obs : CodexCostRecorded} {lastByAgent : LastByAgent}
    (hagent : obs.agent = agent) (hlate : ∀ old ∈ costs.observationsOf agent, old.turn < obs.turn) :
    latestCostSourceId ⟨costs.observations ++ [obs], lastByAgent⟩ agent = some obs.sourceId := by
  have hobs : observationsOf ⟨costs.observations ++ [obs], lastByAgent⟩ agent =
      costs.observationsOf agent ++ [obs] := by
    simp [observationsOf, hagent]
  rw [latestCostSourceId, hobs, List.argmax_concat]
  cases hmax : (costs.observationsOf agent).argmax CodexCostRecorded.turn with
  | none => rfl
  | some old =>
    have hlt := hlate old (List.argmax_mem hmax)
    simp [hlt]

theorem hasMeasuredCostField_eq_false {counts : TokenCounts} {usedPct : Option Float}
    (h : hasMeasuredCostField counts usedPct = false) (key : TokenKey) : counts key = none := by
  rw [hasMeasuredCostField, Bool.or_eq_false_iff, List.any_eq_false] at h
  simpa using h.1 key key.mem_all

/-- The capture of an agent's turn leaves the others alone. -/
theorem capture_other {a : String} (h : a ≠ agent) (turn : ℕ)
    (readout : Option CodexTokenCountReadout) :
    (costs.capture a turn readout).observationsOf agent = costs.observationsOf agent ∧
      (costs.capture a turn readout).lastByAgent agent = costs.lastByAgent agent := by
  have hdelta : ∀ parsed prior, (codexPerTurnDelta a parsed costs.lastByAgent prior).2 agent =
      costs.lastByAgent agent := by
    intro parsed prior
    simp only [codexPerTurnDelta]
    split
    · dsimp only
      split
      · exact Function.update_of_ne h.symm _ _
      · rfl
    · exact Function.update_of_ne h.symm _ _
  cases readout with
  | none => exact ⟨rfl, rfl⟩
  | some readout =>
    cases hparsed : readout.parsed with
    | none => simp [capture, hparsed]
    | some parsed =>
      simp only [capture, hparsed, observationsOf, hdelta, and_true]
      split <;> simp [h]

/-- What the capture of a running total does: it adds the difference to what was remembered, and
remembers the reading, in the log as well unless there is no difference. -/
theorem capture_cumulative {turn : ℕ} {readout : CodexTokenCountReadout} {parsed : CodexTurnCost}
    (hparsed : readout.parsed = some parsed) (hcumulative : parsed.cumulative = true)
    (hpct : validPct parsed.usedPct = true)
    (hreset : (costs.remembered agent).any (cumulativeReadingReset parsed.counts) = false) :
    (costs.capture agent turn (some readout)).lastByAgent agent = some parsed.counts ∧
    (∀ key, (costs.capture agent turn (some readout)).recorded agent key =
      costs.recorded agent key + (positiveDelta (parsed.counts key)
        ((costs.remembered agent).bind fun reading => reading key)).getD 0) ∧
    (parseCodexCumulativeSourceId
        ((costs.capture agent turn (some readout)).latestCostSourceId agent) = some parsed.counts ∨
      (costs.capture agent turn (some readout)).latestCostSourceId agent =
          costs.latestCostSourceId agent ∧
        ∀ key, positiveDelta (parsed.counts key)
          ((costs.remembered agent).bind fun reading => reading key) = none) := by
  have hdelta : codexPerTurnDelta agent parsed costs.lastByAgent
      (parseCodexCumulativeSourceId (costs.latestCostSourceId agent)) =
      (⟨fun key => positiveDelta (parsed.counts key)
          ((costs.remembered agent).bind fun reading => reading key), parsed.usedPct,
          some parsed.counts⟩,
        Function.update costs.lastByAgent agent (some parsed.counts)) := by
    rw [remembered] at hreset ⊢
    simp [codexPerTurnDelta, hcumulative, hreset]
  simp only [capture, hparsed, hdelta, hpct, Bool.and_true]
  refine ⟨by simp, ?_, ?_⟩
  · intro key
    split
    · simp [recorded, observationsOf]
    · next hnone =>
      have hno := hasMeasuredCostField_eq_false (Bool.eq_false_iff.2 hnone) key
      simp [recorded, observationsOf, hno]
  · split
    · left
      rw [latestCostSourceId_append rfl fun old hold => lt_nextCostTurn turn hold]
      exact parseCodexCumulativeSourceId_pack readout parsed.counts
    · next hnone =>
      right
      refine ⟨by simp [latestCostSourceId, observationsOf], fun key => ?_⟩
      exact hasMeasuredCostField_eq_false (Bool.eq_false_iff.2 hnone) key

/-- What the capture remembers of a counter is what was read last. -/
theorem CostSession.Sound.remembered (hsound : s.Sound agent) {reading : CodexCumulativeReading}
    (h : s.costs.remembered agent = some reading) {key : TokenKey} {n : ℕ}
    (hkey : reading key = some n) : n = s.lastRead agent key := by
  cases hmemory : s.costs.lastByAgent agent with
  | some last =>
    rw [TurnCostCapture.remembered, hmemory, Option.some_or] at h
    cases h
    exact hsound.memory _ hmemory key n hkey
  | none =>
    rw [TurnCostCapture.remembered, hmemory, Option.none_or] at h
    exact hsound.log _ h key n hkey

/-- A reading that is no lower than what was remembered is no reset. -/
theorem not_reset {counts : TokenCounts} (hsound : s.Sound agent)
    (hup : ∀ key n, counts key = some n → s.lastRead agent key ≤ n) :
    (s.costs.remembered agent).any (cumulativeReadingReset counts) = false := by
  cases hremembered : s.costs.remembered agent with
  | none => rfl
  | some reading =>
    rw [Option.any_some, cumulativeReadingReset, List.any_eq_false]
    intro key _
    cases hcount : counts key with
    | none => simp [lowerThanPrevious]
    | some n =>
      cases hprevious : reading key with
      | none => simp [lowerThanPrevious]
      | some m =>
        have hm := hsound.remembered hremembered hprevious
        have hn := hup key n hcount
        simp [lowerThanPrevious]
        omega

/-- A step that reads nothing of the agent, records nothing for it and at most forgets. -/
theorem sound_of_quiet {step : SessionStep} (hsound : s.Sound agent)
    (hreads : ∀ key, step.reads agent key = none)
    (hobs : (sessionStep step s).costs.observationsOf agent = s.costs.observationsOf agent)
    (hmemory : ∀ reading, (sessionStep step s).costs.lastByAgent agent = some reading →
      s.costs.lastByAgent agent = some reading) :
    (sessionStep step s).Sound agent ∧
      ∀ key, (sessionStep step s).Telescopes agent key ↔
        s.Telescopes agent key ∧ KeepsCounter agent step s key := by
  have hlast : ∀ key, (sessionStep step s).lastRead agent key = s.lastRead agent key := by
    intro key
    simp [sessionStep, hreads]
  have hrecorded : ∀ key, (sessionStep step s).costs.recorded agent key =
      s.costs.recorded agent key := by
    intro key
    rw [recorded, hobs]
    rfl
  refine ⟨⟨?_, ?_, ?_⟩, ?_⟩
  · intro reading h key n hkey
    rw [hlast]
    exact hsound.memory reading (hmemory reading h) key n hkey
  · intro reading h key n hkey
    rw [latestCostSourceId, hobs] at h
    rw [hlast]
    exact hsound.log reading h key n hkey
  · intro key
    rw [hlast, hrecorded]
    exact hsound.covered key
  · intro key
    have hkeeps : KeepsCounter agent step s key := by
      intro hread
      rw [hreads] at hread
      cases hread
    rw [CostSession.Telescopes, hlast, hrecorded]
    exact ⟨fun h => ⟨h, hkeeps⟩, fun h => h.1⟩

/-- The difference of one counter to what was remembered, and what it does to the balance. -/
theorem positiveDelta_balance {current previous : Option ℕ} {last total : ℕ}
    (hprevious : ∀ n, previous = some n → n = last)
    (hup : ∀ n, current = some n → last ≤ n) (hcovered : last ≤ total) :
    current.getD last ≤ total + (positiveDelta current previous).getD 0 ∧
    (total + (positiveDelta current previous).getD 0 = current.getD last ↔
      total = last ∧ (current.isSome = true → previous.isSome = true ∨ last = 0)) ∧
    (positiveDelta current previous = none → ∀ n, current = some n → n = last) := by
  cases current with
  | none => simp [positiveDelta, hcovered]
  | some n =>
    have hn := hup n rfl
    cases previous with
    | none =>
      by_cases hpos : 0 < n
      · simp [positiveDelta, hpos]
        omega
      · simp [positiveDelta, hpos]
        omega
    | some m =>
      have hm := hprevious m rfl
      by_cases hlt : m < n
      · simp [positiveDelta, hlt]
        omega
      · simp [positiveDelta, hlt]
        omega

theorem sessionStep_sound {step : SessionStep} (hsound : s.Sound agent)
    (hup : CountsUp agent step s) :
    (sessionStep step s).Sound agent ∧
      ∀ key, (sessionStep step s).Telescopes agent key ↔
        s.Telescopes agent key ∧ KeepsCounter agent step s key := by
  cases step with
  | restart => exact sound_of_quiet hsound (fun _ => rfl) rfl fun reading h => nomatch h
  | capture a turn readout =>
    cases readout with
    | none => exact sound_of_quiet hsound (fun _ => rfl) rfl fun reading h => h
    | some readout =>
      cases hparsed : readout.parsed with
      | none =>
        have hcapture : s.costs.capture a turn (some readout) = s.costs := by
          simp [capture, hparsed]
        refine sound_of_quiet hsound (fun _ => ?_) ?_ fun reading h => ?_
        · simp [SessionStep.reads, hparsed]
        · simp [sessionStep, hcapture]
        · simpa [sessionStep, hcapture] using h
      | some parsed =>
        by_cases ha : a = agent
        · subst ha
          obtain ⟨hcumulative, hpct, hup⟩ := hup turn readout parsed rfl hparsed
          obtain ⟨hmemory, hrecorded, hlog⟩ := @capture_cumulative s.costs a turn readout parsed
            hparsed hcumulative hpct (not_reset hsound hup)
          have hreads : ∀ key, SessionStep.reads a (.capture a turn (some readout)) key =
              parsed.counts key := by
            intro key
            simp [SessionStep.reads, hparsed]
          have hprevious : ∀ key n, ((s.costs.remembered a).bind fun reading => reading key) = some n →
              n = s.lastRead a key := by
            intro key n h
            obtain ⟨reading, hreading, hkey⟩ := Option.bind_eq_some_iff.1 h
            exact hsound.remembered hreading hkey
          have hlast : ∀ key, (sessionStep (.capture a turn (some readout)) s).lastRead a key =
              (parsed.counts key).getD (s.lastRead a key) := by
            intro key
            simp only [sessionStep, hreads]
          have hbalance := fun key => positiveDelta_balance (hprevious key) (hup key)
            (hsound.covered key)
          refine ⟨⟨?_, ?_, ?_⟩, ?_⟩
          · intro reading h key n hkey
            change (s.costs.capture a turn (some readout)).lastByAgent a = _ at h
            rw [hmemory] at h
            cases h
            rw [hlast, hkey]
            rfl
          · intro reading h key n hkey
            change parseCodexCumulativeSourceId
              ((s.costs.capture a turn (some readout)).latestCostSourceId a) = _ at h
            rw [hlast]
            cases hlog with
            | inl hlog =>
              rw [hlog] at h
              cases h
              rw [hkey]
              rfl
            | inr hlog =>
              rw [hlog.1] at h
              rw [hsound.log reading h key n hkey]
              -- nothing was recorded, so what was read had been read before
              cases hcount : parsed.counts key with
              | none => rfl
              | some m => exact ((hbalance key).2.2 (hlog.2 key) m hcount).symm
          · intro key
            rw [hlast]
            exact (hrecorded key).symm ▸ (hbalance key).1
          · intro key
            rw [CostSession.Telescopes, hlast, KeepsCounter, hreads]
            exact (hrecorded key).symm ▸ (hbalance key).2.1
        · have hreads : ∀ key, SessionStep.reads agent (.capture a turn (some readout)) key = none := by
            intro key
            simp [SessionStep.reads, ha]
          obtain ⟨hobs, hmemory⟩ := @capture_other s.costs agent a ha turn (some readout)
          exact sound_of_quiet hsound hreads hobs fun reading h => hmemory ▸ h

end

/-! ## A session as a whole -/

/-- Over every session of an agent, with any turns of other agents and any restarts in it, what is
recorded under each counter is what was read of it last, exactly when no reading is compared with
one that leaves out a counter it carries, after that counter has counted. -/
theorem recorded_telescopes_iff {agent : String} {steps : List SessionStep}
    (hup : Run.Guarded sessionStep (CountsUp agent) steps {}) :
    (∀ key, (Run.after sessionStep steps {}).Telescopes agent key) ↔
      Run.Guarded sessionStep (KeepsCounters agent) steps {} := by
  have hrun : ∀ (steps : List SessionStep) (s : CostSession), s.Sound agent →
      Run.Guarded sessionStep (CountsUp agent) steps s →
      ((∀ key, (Run.after sessionStep steps s).Telescopes agent key) ↔
        (∀ key, s.Telescopes agent key) ∧
          Run.Guarded sessionStep (KeepsCounters agent) steps s) := by
    intro steps
    induction steps with
    | nil => simp [Run.Guarded]
    | cons step steps ih =>
      intro s hsound hup
      obtain ⟨hsound', hstep⟩ := sessionStep_sound hsound hup.1
      rw [Run.after_cons, ih _ hsound' hup.2, Run.Guarded, ← and_assoc]
      simp only [hstep, forall_and, KeepsCounters]
  have hsound : CostSession.Sound {} agent := by
    refine ⟨fun reading h => ?_, fun reading h => ?_, fun key => le_rfl⟩
    · cases h
    · cases h
  rw [hrun steps {} hsound hup]
  exact ⟨fun h => h.2, fun h => ⟨fun key => rfl, h⟩⟩

/-! ## Rows of two kinds -/

theorem oneLine_toString (row : ℕ) : (toString row).toList.all (fun c => !endsLine c) = true := by
  rw [List.all_eq_true]
  intro c hc
  have hdigit := Js.toNat_of_isDigit (Js.isDigit_of_mem_toString hc)
  have hne : ∀ d : Char, d.toNat < 48 → c ≠ d := by
    rintro d hd rfl
    omega
  simp [endsLine, hne '\n' (by decide), hne '\r' (by decide)]
  omega

/-- A row of the log with some of the running totals. -/
def tokenRow (row : ℕ) (input total : Option ℕ) : SessionStep :=
  .capture "codex-1" row (some {
    parsed := some {
      counts := fun
        | .inputTokens => input
        | .outputTokens => none
        | .totalTokens => total
      cumulative := true }
    sourceId := (toString row).toList
    oneLine := oneLine_toString row })

theorem countsUp_tokenRow {row : ℕ} {input total : Option ℕ} {s : CostSession}
    (hinput : ∀ n ∈ input, s.lastRead "codex-1" .inputTokens ≤ n)
    (htotal : ∀ n ∈ total, s.lastRead "codex-1" .totalTokens ≤ n) :
    CountsUp "codex-1" (tokenRow row input total) s := by
  intro turn readout parsed hstep hparsed
  cases hstep
  cases hparsed
  refine ⟨rfl, rfl, fun key n hkey => ?_⟩
  cases key with
  | inputTokens => exact hinput n hkey
  | outputTokens => cases hkey
  | totalTokens => exact htotal n hkey

theorem countsUp_restart (agent : String) (s : CostSession) : CountsUp agent .restart s := by
  intro turn readout parsed h
  cases h

/-- A total of zero, both counters, a restart, and both counters again. -/
def fullRows : List SessionStep :=
  [tokenRow 1 none (some 0), tokenRow 2 (some 4) (some 10), .restart, tokenRow 3 (some 6) (some 12)]

theorem recorded_telescopes_of_fullRows :
    (∀ key, (Run.after sessionStep fullRows {}).Telescopes "codex-1" key) ↔
      Run.Guarded sessionStep (KeepsCounters "codex-1") fullRows {} :=
  recorded_telescopes_iff ⟨countsUp_tokenRow (by decide +kernel) (by decide +kernel),
    countsUp_tokenRow (by decide +kernel) (by decide +kernel), countsUp_restart _ _,
    countsUp_tokenRow (by decide +kernel) (by decide +kernel), trivial⟩

/-- A total, an input count, and a total. -/
def alternatingRows : List SessionStep :=
  [tokenRow 1 none (some 10), tokenRow 2 (some 4) none, tokenRow 3 none (some 12)]

/-- The second total is compared with a reading without one, and counts in full. -/
theorem recorded_exceeds_lastRead :
    Run.Guarded sessionStep (CountsUp "codex-1") alternatingRows {} ∧
      ¬ (Run.after sessionStep alternatingRows {}).Telescopes "codex-1" .totalTokens := by
  have hrecorded : (Run.after sessionStep alternatingRows {}).costs.recorded "codex-1" .totalTokens =
      22 := by
    decide +kernel
  have hlast : (Run.after sessionStep alternatingRows {}).lastRead "codex-1" .totalTokens = 12 := by
    decide +kernel
  refine ⟨⟨countsUp_tokenRow ?_ ?_, countsUp_tokenRow ?_ ?_, countsUp_tokenRow ?_ ?_, trivial⟩, ?_⟩
  rotate_right
  · rw [CostSession.Telescopes, hrecorded, hlast]
    decide
  all_goals decide +kernel

end Orchestration.Conductor
