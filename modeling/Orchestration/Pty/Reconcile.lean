import Mathlib.Logic.Function.Basic
import Orchestration.Library.Run
import Orchestration.Pty.LivenessWatchdog

/-!
# The reconcile loop

Every tick observes the running set and drives one watchdog for each agent. A
watchdog stays with its agent from tick to tick until the agent leaves the set,
so a break that survives one observation is escalated by the next.
-/

namespace Orchestration.Pty

open Dispatch (Provider)
open Transaction

variable {Pane : Type}

/-- One entry of the running set. -/
structure RunningAgent (Pane : Type) where
  agentId : String
  pane : Pane
  provider : Option Provider := none
deriving DecidableEq, Repr

/-- A running agent on one tick: what the host observes of it, and which seams throw for it. -/
structure Observation (Pane : Type) where
  agent : RunningAgent Pane
  livenessInput : Option LivenessInput
  throws : Effect Pane → Bool := fun _ => false

/-- What one tick is given: the time, and the running set with its observations. -/
structure Tick (Pane : Type) where
  observedAt : ℚ
  running : List (Observation Pane)
  distinct : running.Pairwise fun a b => a.agent.agentId ≠ b.agent.agentId

structure ReconcileAssessment where
  agent : String
  verdict : LivenessVerdict
deriving DecidableEq, Repr

/-- An agent whose assessment threw, with the seam that did. -/
structure ReconcileError (Pane : Type) where
  agent : String
  error : Effect Pane
deriving DecidableEq, Repr

structure ReconcileTickResult (Pane : Type) where
  observedAt : ℚ
  assessed : List ReconcileAssessment := []
  skipped : List String := []
  errors : List (ReconcileError Pane) := []

/-- The loop: its configuration, and the watchdogs by agent. -/
structure ReconcileLoop (Pane : Type) where
  config : LivenessConfig := {}
  watchdogs : String → Option (LivenessWatchdog Pane) := fun _ => none

/-- A tick under way: the loop, the result so far, and the seams called so far. -/
structure Sweep (Pane : Type) where
  loop : ReconcileLoop Pane
  result : ReconcileTickResult Pane
  effects : List (Effect Pane) := []

namespace ReconcileLoop

/-- The configuration that an agent is judged with. -/
def configFor (config : LivenessConfig) (agent : RunningAgent Pane) : LivenessConfig :=
  match agent.provider with
  | some provider => { config with provider := some provider }
  | none => config

/-- Drop the watchdogs of agents that are no longer running. -/
def dropDeparted (loop : ReconcileLoop Pane) (running : List (Observation Pane)) :
    ReconcileLoop Pane :=
  { loop with
    watchdogs := fun id =>
      if (running.map (·.agent.agentId)).contains id then loop.watchdogs id else none }

/-- The persisted watchdog of an agent, created over its pane on first sight. -/
def watchdogFor (loop : ReconcileLoop Pane) (agent : RunningAgent Pane) : LivenessWatchdog Pane :=
  (loop.watchdogs agent.agentId).getD { pane := agent.pane }

def setWatchdog (loop : ReconcileLoop Pane) (agentId : String)
    (watchdog : LivenessWatchdog Pane) : ReconcileLoop Pane :=
  { loop with watchdogs := Function.update loop.watchdogs agentId (some watchdog) }

/-- Drive one agent's watchdog; what it throws is recorded and the sweep goes on. -/
def visit (sweep : Sweep Pane) (seen : Observation Pane) : Sweep Pane :=
  let agent := seen.agent
  match seen.livenessInput with
  | none =>
    { sweep with result := { sweep.result with
        skipped := sweep.result.skipped ++ [agent.agentId] } }
  | some input =>
    let assessment := LivenessWatchdog.assess seen.throws agent.agentId input
      sweep.result.observedAt (configFor sweep.loop.config agent)
      { watchdog := sweep.loop.watchdogFor agent, effects := sweep.effects }
    { loop := sweep.loop.setWatchdog agent.agentId assessment.2.watchdog
      result :=
        match assessment.1 with
        | .ok verdict => { sweep.result with
            assessed := sweep.result.assessed ++ [⟨agent.agentId, verdict⟩] }
        | .error error => { sweep.result with
            errors := sweep.result.errors ++ [⟨agent.agentId, error⟩] }
      effects := assessment.2.effects }

/-- One reconcile pass over the running set. -/
def runTick (tick : Tick Pane) (loop : ReconcileLoop Pane) : Sweep Pane :=
  tick.running.foldl visit
    { loop := loop.dropDeparted tick.running, result := { observedAt := tick.observedAt } }

/-- The loop after the tick. -/
def exec (tick : Tick Pane) (loop : ReconcileLoop Pane) : ReconcileLoop Pane :=
  (runTick tick loop).loop

end ReconcileLoop

/-! ## What a tick does -/

section

variable (loop : ReconcileLoop Pane) (observedAt : ℚ) (seen : Observation Pane)

/-- The verdict on an observation. -/
def Observation.verdict (config : LivenessConfig) : Option LivenessVerdict :=
  seen.livenessInput.map fun input =>
    classifyLiveness input observedAt (ReconcileLoop.configFor config seen.agent)

/-- The seams called for an observation. -/
def Observation.effects : List (Effect Pane) :=
  match seen.verdict observedAt loop.config with
  | none => []
  | some verdict =>
    (loop.watchdogFor seen.agent).reaction seen.throws seen.agent.agentId verdict.break

/-- The watchdog that an observation leaves. -/
def Observation.watchdog : Option (LivenessWatchdog Pane) :=
  match seen.verdict observedAt loop.config with
  | none => loop.watchdogs seen.agent.agentId
  | some verdict =>
    some { loop.watchdogFor seen.agent with signaled := verdict.break.map BreakInfo.kind }

end

/-- What visiting these observations does. -/
structure Visited (running : List (Observation Pane)) (sweep sweep' : Sweep Pane) : Prop where
  config : sweep'.loop.config = sweep.loop.config
  observedAt : sweep'.result.observedAt = sweep.result.observedAt
  effects : sweep'.effects =
    sweep.effects ++ running.flatMap (·.effects sweep.loop sweep.result.observedAt)
  watchdogs : ∀ seen ∈ running, sweep'.loop.watchdogs seen.agent.agentId =
    seen.watchdog sweep.loop sweep.result.observedAt
  others : ∀ id, (∀ seen ∈ running, seen.agent.agentId ≠ id) →
    sweep'.loop.watchdogs id = sweep.loop.watchdogs id

variable {loop loop' : ReconcileLoop Pane} {sweep sweep' mid : Sweep Pane} {observedAt : ℚ}
  {seen : Observation Pane} {running : List (Observation Pane)}

/-- One agent's observation is judged by its own watchdog alone. -/
theorem Observation.effects_congr (hconfig : loop'.config = loop.config)
    (hwatchdog : loop'.watchdogs seen.agent.agentId = loop.watchdogs seen.agent.agentId) :
    seen.effects loop' observedAt = seen.effects loop observedAt := by
  rw [Observation.effects, Observation.effects, hconfig, ReconcileLoop.watchdogFor,
    ReconcileLoop.watchdogFor, hwatchdog]

theorem Observation.watchdog_congr (hconfig : loop'.config = loop.config)
    (hwatchdog : loop'.watchdogs seen.agent.agentId = loop.watchdogs seen.agent.agentId) :
    seen.watchdog loop' observedAt = seen.watchdog loop observedAt := by
  rw [Observation.watchdog, Observation.watchdog, hconfig, ReconcileLoop.watchdogFor,
    ReconcileLoop.watchdogFor, hwatchdog]

theorem visited_visit (sweep : Sweep Pane) (seen : Observation Pane) :
    Visited [seen] sweep (ReconcileLoop.visit sweep seen) := by
  have hother : ∀ {id}, (∀ x ∈ [seen], x.agent.agentId ≠ id) → id ≠ seen.agent.agentId := by
    intro id hid
    exact (hid seen List.mem_cons_self).symm
  cases hinput : seen.livenessInput with
  | none =>
    have hverdict : seen.verdict sweep.result.observedAt sweep.loop.config = none := by
      rw [Observation.verdict, hinput]
      rfl
    have hvisit : ReconcileLoop.visit sweep seen = { sweep with result := { sweep.result with
        skipped := sweep.result.skipped ++ [seen.agent.agentId] } } := by
      simp only [ReconcileLoop.visit, hinput]
    rw [hvisit]
    constructor
    case config => rfl
    case observedAt => rfl
    case effects => simp [Observation.effects, hverdict]
    case watchdogs =>
      intro x hx
      obtain rfl := List.mem_singleton.1 hx
      rw [Observation.watchdog, hverdict]
    case others => exact fun _ _ => rfl
  | some input =>
    have hverdict : seen.verdict sweep.result.observedAt sweep.loop.config =
        some (classifyLiveness input sweep.result.observedAt
          (ReconcileLoop.configFor sweep.loop.config seen.agent)) := by
      rw [Observation.verdict, hinput]
      rfl
    have hassess := assess_exec seen.throws seen.agent.agentId
      (sweep.loop.watchdogFor seen.agent) input sweep.result.observedAt
      (ReconcileLoop.configFor sweep.loop.config seen.agent) sweep.effects
    rw [Proc.exec] at hassess
    have hvisit : ReconcileLoop.visit sweep seen =
        { loop := sweep.loop.setWatchdog seen.agent.agentId
            (LivenessWatchdog.assess seen.throws seen.agent.agentId input sweep.result.observedAt
              (ReconcileLoop.configFor sweep.loop.config seen.agent)
              ⟨sweep.loop.watchdogFor seen.agent, sweep.effects⟩).2.watchdog
          result := (ReconcileLoop.visit sweep seen).result
          effects := (LivenessWatchdog.assess seen.throws seen.agent.agentId input
            sweep.result.observedAt (ReconcileLoop.configFor sweep.loop.config seen.agent)
            ⟨sweep.loop.watchdogFor seen.agent, sweep.effects⟩).2.effects } := by
      simp only [ReconcileLoop.visit, hinput]
    rw [hassess] at hvisit
    constructor
    case config =>
      rw [hvisit]
      rfl
    case observedAt =>
      simp only [ReconcileLoop.visit, hinput]
      split
      · rfl
      · rfl
    case effects =>
      rw [hvisit]
      simp [Observation.effects, hverdict]
    case watchdogs =>
      intro x hx
      obtain rfl := List.mem_singleton.1 hx
      rw [hvisit, Observation.watchdog, hverdict]
      exact Function.update_self ..
    case others =>
      intro id hid
      rw [hvisit]
      exact Function.update_of_ne (hother hid) ..

theorem Visited.cons (h : Visited [seen] sweep mid) (h' : Visited running mid sweep')
    (hne : ∀ x ∈ running, seen.agent.agentId ≠ x.agent.agentId) :
    Visited (seen :: running) sweep sweep' := by
  have hsame : ∀ x ∈ running,
      mid.loop.watchdogs x.agent.agentId = sweep.loop.watchdogs x.agent.agentId := by
    intro x hx
    refine h.others _ fun y hy => ?_
    obtain rfl := List.mem_singleton.1 hy
    exact hne x hx
  constructor
  case config => exact h'.config.trans h.config
  case observedAt => exact h'.observedAt.trans h.observedAt
  case effects =>
    have hrest : running.flatMap (·.effects mid.loop mid.result.observedAt) =
        running.flatMap (·.effects sweep.loop sweep.result.observedAt) := by
      refine List.flatMap_congr fun x hx => ?_
      rw [h.observedAt]
      exact Observation.effects_congr h.config (hsame x hx)
    rw [h'.effects, h.effects, hrest, List.flatMap_cons, List.flatMap_cons, List.flatMap_nil,
      List.append_nil, List.append_assoc]
  case watchdogs =>
    intro x hx
    cases List.mem_cons.1 hx with
    | inl hx =>
      subst hx
      rw [h'.others _ fun y hy => (hne y hy).symm]
      exact h.watchdogs x List.mem_cons_self
    | inr hx =>
      rw [h'.watchdogs x hx, h.observedAt]
      exact Observation.watchdog_congr h.config (hsame x hx)
  case others =>
    intro id hid
    rw [h'.others id fun x hx => hid x (List.mem_cons_of_mem _ hx)]
    refine h.others id fun y hy => ?_
    obtain rfl := List.mem_singleton.1 hy
    exact hid y List.mem_cons_self

/-- The sweep visits every agent of the set. -/
theorem visited_foldl (hdistinct : running.Pairwise fun a b => a.agent.agentId ≠ b.agent.agentId)
    (sweep : Sweep Pane) : Visited running sweep (running.foldl ReconcileLoop.visit sweep) := by
  induction running generalizing sweep with
  | nil => exact ⟨rfl, rfl, by simp, fun _ hx => absurd hx List.not_mem_nil, fun _ _ => rfl⟩
  | cons seen running ih =>
    obtain ⟨hne, hdistinct⟩ := List.pairwise_cons.1 hdistinct
    exact (visited_visit sweep seen).cons (ih hdistinct _) hne

/-- A sweep calls for an agent what its own observation calls for. -/
theorem Visited.filter_effects (h : Visited running sweep sweep') (hnone : sweep.effects = [])
    (hdistinct : running.Pairwise fun a b => a.agent.agentId ≠ b.agent.agentId)
    (hseen : seen ∈ running) :
    sweep'.effects.filter (·.agent = seen.agent.agentId) =
      seen.effects sweep.loop sweep.result.observedAt := by
  have hagent : ∀ (x : Observation Pane), ∀ e ∈ x.effects sweep.loop sweep.result.observedAt,
      e.agent = x.agent.agentId := by
    intro x e he
    rw [Observation.effects] at he
    cases hverdict : x.verdict sweep.result.observedAt sweep.loop.config with
    | none =>
      rw [hverdict] at he
      cases he
    | some verdict =>
      rw [hverdict] at he
      exact agent_of_mem_reaction he
  have hown : ∀ x : Observation Pane, x.agent.agentId = seen.agent.agentId →
      (x.effects sweep.loop sweep.result.observedAt).filter (·.agent = seen.agent.agentId) =
        x.effects sweep.loop sweep.result.observedAt := by
    intro x hx
    exact List.filter_eq_self.2 fun e he => decide_eq_true ((hagent x e he).trans hx)
  have hother : ∀ xs : List (Observation Pane),
      (∀ x ∈ xs, x.agent.agentId ≠ seen.agent.agentId) →
      (xs.flatMap (·.effects sweep.loop sweep.result.observedAt)).filter
        (·.agent = seen.agent.agentId) = [] := by
    intro xs hxs
    refine List.filter_eq_nil_iff.2 fun e he => ?_
    obtain ⟨x, hx, he⟩ := List.mem_flatMap.1 he
    rw [hagent x e he]
    simpa using hxs x hx
  obtain ⟨before, after, hsplit⟩ := List.append_of_mem hseen
  rw [hsplit] at hdistinct
  obtain ⟨-, hafter, hbefore⟩ := List.pairwise_append.1 hdistinct
  rw [h.effects, hnone, List.nil_append, hsplit, List.flatMap_append, List.flatMap_cons,
    List.filter_append, List.filter_append, hown seen rfl,
    hother before fun x hx => hbefore x hx seen List.mem_cons_self,
    hother after fun x hx => ((List.pairwise_cons.1 hafter).1 x hx).symm, List.nil_append,
    List.append_nil]

/-! ## What a tick sees -/

section

variable (config : LivenessConfig) (tick : Tick Pane) (agent : String)

/-- The agent is in the running set. -/
def Tick.Runs : Prop := ∃ seen ∈ tick.running, seen.agent.agentId = agent

/-- The agent is in the running set and cannot be observed. -/
def Tick.Skips : Prop :=
  ∃ seen ∈ tick.running, seen.agent.agentId = agent ∧ seen.livenessInput = none

/-- The agent is assessed, in the pane that the running set gives for it. -/
def Tick.Assesses (pane : Pane) (detected : Option BreakInfo) : Prop :=
  ∃ seen ∈ tick.running, seen.agent.agentId = agent ∧ seen.agent.pane = pane ∧
    ∃ verdict, seen.verdict tick.observedAt config = some verdict ∧ verdict.break = detected

/-- After these ticks the agent is in an episode of breaks of this kind: that is what it was last
assessed to, and it has stayed in the running set since. -/
def Episode (ticks : List (Tick Pane)) (kind : BreakKind) : Prop :=
  ∃ earlier first between pane info, ticks = earlier ++ first :: between ∧
    first.Assesses config agent pane (some info) ∧ info.kind = kind ∧
    ∀ tick ∈ between, tick.Skips agent

/-- The running set gave this pane for the agent on one of these ticks, on which the agent was
assessed and since which it has stayed in the set. -/
def GivenPane (ticks : List (Tick Pane)) (pane : Pane) : Prop :=
  ∃ earlier first between detected, ticks = earlier ++ first :: between ∧
    first.Assesses config agent pane detected ∧ ∀ tick ∈ between, tick.Runs agent

end

variable {config : LivenessConfig} {tick : Tick Pane} {agent : String}
  {ticks : List (Tick Pane)} {kind : BreakKind}

theorem split_snoc {α : Type} {xs earlier between : List α} {x first : α}
    (h : xs ++ [x] = earlier ++ first :: between) :
    between = [] ∧ first = x ∨ ∃ between', between = between' ++ [x] ∧
      xs = earlier ++ first :: between' := by
  cases List.eq_nil_or_concat between with
  | inl hnil =>
    subst hnil
    exact .inl ⟨rfl, (List.append_singleton_inj.1 h).2.symm⟩
  | inr hsnoc =>
    obtain ⟨between', last, rfl⟩ := hsnoc
    rw [List.concat_eq_append] at h ⊢
    rw [← List.cons_append, ← List.append_assoc] at h
    obtain ⟨hxs, rfl⟩ := List.append_singleton_inj.1 h
    exact .inr ⟨between', rfl, hxs⟩

theorem episode_snoc : Episode config agent (ticks ++ [tick]) kind ↔
    (∃ pane info, tick.Assesses config agent pane (some info) ∧ info.kind = kind) ∨
      tick.Skips agent ∧ Episode config agent ticks kind := by
  constructor
  · rintro ⟨earlier, first, between, pane, info, hticks, hassesses, hkind, hbetween⟩
    cases split_snoc hticks with
    | inl h =>
      obtain ⟨-, rfl⟩ := h
      exact .inl ⟨pane, info, hassesses, hkind⟩
    | inr h =>
      obtain ⟨between', rfl, rfl⟩ := h
      refine .inr ⟨hbetween tick (List.mem_append_right _ List.mem_cons_self), earlier, first,
        between', pane, info, rfl, hassesses, hkind, fun t ht => hbetween t ?_⟩
      exact List.mem_append_left _ ht
  · rintro (⟨pane, info, hassesses, hkind⟩ | ⟨hskips, earlier, first, between, pane, info, rfl,
      hassesses, hkind, hbetween⟩)
    · exact ⟨ticks, tick, [], pane, info, rfl, hassesses, hkind, fun _ ht => absurd ht List.not_mem_nil⟩
    · refine ⟨earlier, first, between ++ [tick], pane, info, by simp, hassesses, hkind,
        fun t ht => ?_⟩
      cases List.mem_append.1 ht with
      | inl ht => exact hbetween t ht
      | inr ht => exact List.mem_singleton.1 ht ▸ hskips

theorem GivenPane.snoc {pane : Pane} (h : GivenPane config agent ticks pane)
    (hruns : tick.Runs agent) : GivenPane config agent (ticks ++ [tick]) pane := by
  obtain ⟨earlier, first, between, detected, rfl, hassesses, hbetween⟩ := h
  refine ⟨earlier, first, between ++ [tick], detected, by simp, hassesses, fun t ht => ?_⟩
  cases List.mem_append.1 ht with
  | inl ht => exact hbetween t ht
  | inr ht => exact List.mem_singleton.1 ht ▸ hruns

theorem Tick.eq_of_agentId {other : Observation Pane} (hseen : seen ∈ tick.running)
    (hother : other ∈ tick.running) (h : other.agent.agentId = seen.agent.agentId) :
    other = seen := by
  by_contra hne
  have : Std.Symm fun a b : Observation Pane => a.agent.agentId ≠ b.agent.agentId :=
    ⟨fun _ _ hab => hab.symm⟩
  exact tick.distinct.forall hother hseen hne h

/-- A tick skips an agent of the set when it has no verdict on it. -/
theorem Tick.skips_iff (hseen : seen ∈ tick.running) :
    tick.Skips seen.agent.agentId ↔ seen.verdict tick.observedAt config = none := by
  rw [Observation.verdict, Option.map_eq_none_iff]
  constructor
  · rintro ⟨other, hother, hid, hinput⟩
    rwa [Tick.eq_of_agentId hseen hother hid] at hinput
  · exact fun hinput => ⟨seen, hseen, rfl, hinput⟩

theorem Tick.assesses_iff (hseen : seen ∈ tick.running) {pane : Pane}
    {detected : Option BreakInfo} : tick.Assesses config seen.agent.agentId pane detected ↔
      seen.agent.pane = pane ∧ ∃ verdict, seen.verdict tick.observedAt config = some verdict ∧
        verdict.break = detected := by
  constructor
  · rintro ⟨other, hother, hid, hrest⟩
    rwa [Tick.eq_of_agentId hseen hother hid] at hrest
  · exact fun hrest => ⟨seen, hseen, rfl, hrest⟩

theorem Tick.Skips.runs (h : tick.Skips agent) : tick.Runs agent := by
  obtain ⟨seen, hseen, hid, -⟩ := h
  exact ⟨seen, hseen, hid⟩

theorem Tick.Assesses.runs {pane : Pane} {detected : Option BreakInfo}
    (h : tick.Assesses config agent pane detected) : tick.Runs agent := by
  obtain ⟨seen, hseen, hid, -⟩ := h
  exact ⟨seen, hseen, hid⟩

/-! ## What ticks preserve -/

/-- The loop knows of each agent the episode it is in, and holds a pane that it was given. -/
structure Tracks (config : LivenessConfig) (ticks : List (Tick Pane)) (loop : ReconcileLoop Pane) :
    Prop where
  judges : loop.config = config
  signaled : ∀ agent kind, (loop.watchdogs agent).bind LivenessWatchdog.signaled = some kind ↔
    Episode config agent ticks kind
  pane : ∀ agent watchdog, loop.watchdogs agent = some watchdog →
    GivenPane config agent ticks watchdog.pane

theorem tracks_start : Tracks config ([] : List (Tick Pane)) { config } where
  judges := rfl
  signaled agent kind := by
    constructor
    · intro h
      cases h
    · rintro ⟨earlier, first, between, _, _, hnil, -⟩
      simp at hnil
  pane agent watchdog h := by cases h

theorem Tick.contains_of_mem (hseen : seen ∈ tick.running) :
    (tick.running.map (·.agent.agentId)).contains seen.agent.agentId = true :=
  List.contains_iff_mem.2 (List.mem_map_of_mem hseen)

/-- A running agent keeps its watchdog when the departed are dropped. -/
theorem watchdogs_dropDeparted (hseen : seen ∈ tick.running) :
    (loop.dropDeparted tick.running).watchdogs seen.agent.agentId =
      loop.watchdogs seen.agent.agentId := by
  rw [ReconcileLoop.dropDeparted]
  exact if_pos (Tick.contains_of_mem hseen)

theorem visited_runTick (tick : Tick Pane) (loop : ReconcileLoop Pane) :
    Visited tick.running
      { loop := loop.dropDeparted tick.running, result := { observedAt := tick.observedAt } }
      (ReconcileLoop.runTick tick loop) :=
  visited_foldl tick.distinct _

/-- The watchdog of an observed agent after a tick. -/
theorem watchdogs_exec (hseen : seen ∈ tick.running) :
    (ReconcileLoop.exec tick loop).watchdogs seen.agent.agentId =
      seen.watchdog loop tick.observedAt := by
  rw [ReconcileLoop.exec, (visited_runTick tick loop).watchdogs seen hseen]
  exact Observation.watchdog_congr rfl (watchdogs_dropDeparted hseen)

theorem watchdogs_exec_of_not_runs (hruns : ¬ tick.Runs agent) :
    (ReconcileLoop.exec tick loop).watchdogs agent = none := by
  have hnone : ∀ seen ∈ tick.running, seen.agent.agentId ≠ agent :=
    fun seen hseen hid => hruns ⟨seen, hseen, hid⟩
  rw [ReconcileLoop.exec, (visited_runTick tick loop).others agent hnone, ReconcileLoop.dropDeparted]
  refine if_neg fun hcontains => ?_
  obtain ⟨seen, hseen, hid⟩ := List.mem_map.1 (List.contains_iff_mem.1 hcontains)
  exact hnone seen hseen hid

/-- What a tick calls for an observed agent. -/
theorem filter_effects_runTick (hseen : seen ∈ tick.running) :
    (ReconcileLoop.runTick tick loop).effects.filter (·.agent = seen.agent.agentId) =
      seen.effects loop tick.observedAt := by
  rw [(visited_runTick tick loop).filter_effects rfl tick.distinct hseen]
  exact Observation.effects_congr rfl (watchdogs_dropDeparted hseen)

theorem Tracks.exec (h : Tracks config ticks loop) :
    Tracks config (ticks ++ [tick]) (ReconcileLoop.exec tick loop) where
  judges := (visited_runTick tick loop).config.trans h.judges
  signaled := by
    intro agent kind
    rw [episode_snoc]
    by_cases hruns : tick.Runs agent
    · obtain ⟨seen, hseen, rfl⟩ := hruns
      rw [watchdogs_exec hseen, Observation.watchdog, h.judges, Tick.skips_iff hseen]
      simp only [Tick.assesses_iff hseen]
      cases hverdict : seen.verdict tick.observedAt config with
      | none => simpa using h.signaled seen.agent.agentId kind
      | some verdict => simp
    · rw [watchdogs_exec_of_not_runs hruns]
      constructor
      · intro hnone
        cases hnone
      · rintro (⟨_, _, hassesses, -⟩ | ⟨hskips, -⟩)
        · exact absurd hassesses.runs hruns
        · exact absurd hskips.runs hruns
  pane := by
    intro agent watchdog hwatchdog
    by_cases hruns : tick.Runs agent
    · have hstays := hruns
      obtain ⟨seen, hseen, rfl⟩ := hruns
      rw [watchdogs_exec hseen, Observation.watchdog, h.judges] at hwatchdog
      cases hverdict : seen.verdict tick.observedAt config with
      | none =>
        rw [hverdict] at hwatchdog
        exact (h.pane _ _ hwatchdog).snoc hstays
      | some verdict =>
        rw [hverdict] at hwatchdog
        cases hwatchdog
        cases hold : loop.watchdogs seen.agent.agentId with
        | none =>
          refine ⟨ticks, tick, [], verdict.break, rfl, ?_, fun _ ht => absurd ht List.not_mem_nil⟩
          rw [Tick.assesses_iff hseen]
          exact ⟨by rw [ReconcileLoop.watchdogFor, hold]; rfl, verdict, hverdict, rfl⟩
        | some old =>
          rw [ReconcileLoop.watchdogFor, hold]
          exact (h.pane _ old hold).snoc hstays
    · rw [watchdogs_exec_of_not_runs hruns] at hwatchdog
      cases hwatchdog

/-- After any ticks the loop knows the episode and a pane of every agent. -/
theorem tracks_after (config : LivenessConfig) (ticks : List (Tick Pane)) :
    Tracks config ticks (Run.after ReconcileLoop.exec ticks { config }) := by
  induction ticks using List.reverseRecOn with
  | nil => exact tracks_start
  | append_singleton ticks tick ih =>
    rw [Run.after_append]
    exact ih.exec

/-! ## Escalation -/

/-- The seams that a tick calls after earlier ticks. -/
def effectsAt (config : LivenessConfig) (earlier : List (Tick Pane)) (tick : Tick Pane) :
    List (Effect Pane) :=
  (ReconcileLoop.runTick tick (Run.after ReconcileLoop.exec earlier { config })).effects

/-- What the ticks of a run owe to the agents that break. -/
structure Escalates (config : LivenessConfig) (ticks : List (Tick Pane)) : Prop where
  /-- A wedge or a silent stop that was the agent's last break already makes it stuck. -/
  stuck : ∀ {earlier tick later agent pane info}, ticks = earlier ++ tick :: later →
    tick.Assesses config agent pane (some info) → info.kind.Escalates →
    Episode config agent earlier info.kind → .markStuck agent ∈ effectsAt config earlier tick
  /-- Nothing else makes an agent stuck. -/
  onlyPersisting : ∀ {earlier tick later agent}, ticks = earlier ++ tick :: later →
    .markStuck agent ∈ effectsAt config earlier tick →
    ∃ pane info, tick.Assesses config agent pane (some info) ∧ info.kind.Escalates ∧
      Episode config agent earlier info.kind
  /-- A break is signalled when an episode begins. -/
  signalled : ∀ {earlier tick later agent info}, ticks = earlier ++ tick :: later →
    (.onBreak agent info ∈ effectsAt config earlier tick ↔
      (∃ pane, tick.Assesses config agent pane (some info)) ∧
        ¬ Episode config agent earlier info.kind)
  /-- No tick signals an agent's break twice. -/
  once : ∀ {earlier tick later agent}, ticks = earlier ++ tick :: later →
    ((effectsAt config earlier tick).filter fun effect =>
      effect.isBreak ∧ effect.agent = agent).length ≤ 1
  /-- A nudge goes into a pane that the agent was given. -/
  nudged : ∀ {earlier tick later agent pane triggerId}, ticks = earlier ++ tick :: later →
    .injectNudge agent pane triggerId ∈ effectsAt config earlier tick →
    GivenPane config agent (earlier ++ [tick]) pane

/-- A tick calls a seam when one of its observations does. -/
theorem mem_effects_runTick {effect : Effect Pane} :
    effect ∈ (ReconcileLoop.runTick tick loop).effects ↔
      ∃ seen ∈ tick.running, effect ∈ seen.effects loop tick.observedAt := by
  rw [(visited_runTick tick loop).effects, List.nil_append, List.mem_flatMap]
  refine exists_congr fun seen => and_congr_right fun hseen => ?_
  have hsame : seen.effects (loop.dropDeparted tick.running) tick.observedAt =
      seen.effects loop tick.observedAt :=
    Observation.effects_congr rfl (watchdogs_dropDeparted hseen)
  rw [← hsame]

/-- What an observation calls for, in terms of the agent's episode. -/
theorem mem_effects_iff (h : Tracks config ticks loop) {effect : Effect Pane} :
    effect ∈ seen.effects loop observedAt ↔
      ∃ verdict, seen.verdict observedAt config = some verdict ∧
        effect ∈ (loop.watchdogFor seen.agent).reaction seen.throws seen.agent.agentId
          verdict.break := by
  rw [Observation.effects, h.judges]
  cases seen.verdict observedAt config with
  | none => simp
  | some verdict => simp

theorem Tracks.signaled_iff (h : Tracks config ticks loop) (seen : Observation Pane) :
    (loop.watchdogFor seen.agent).signaled = some kind ↔
      Episode config seen.agent.agentId ticks kind := by
  rw [← h.signaled, ReconcileLoop.watchdogFor]
  cases loop.watchdogs seen.agent.agentId with
  | none => simp
  | some watchdog => rfl

/-- Escalation is bounded, signals once, and nudges only the agent's own panes. -/
theorem reconcile_escalates (config : LivenessConfig) (ticks : List (Tick Pane)) :
    Escalates config ticks := by
  constructor
  case stuck =>
    intro earlier tick later agent pane info _ hassesses hescalates hepisode
    have htracks := tracks_after config earlier
    obtain ⟨seen, hseen, rfl, -, verdict, hverdict, hbreak⟩ := hassesses
    refine mem_effects_runTick.2 ⟨seen, hseen, (mem_effects_iff htracks).2 ⟨verdict, hverdict, ?_⟩⟩
    exact markStuck_mem_reaction.2
      ⟨rfl, info, hbreak, (htracks.signaled_iff seen).2 hepisode, hescalates⟩
  case onlyPersisting =>
    intro earlier tick later agent _ hstuck
    have htracks := tracks_after config earlier
    obtain ⟨seen, hseen, heffect⟩ := mem_effects_runTick.1 hstuck
    obtain ⟨verdict, hverdict, hreaction⟩ := (mem_effects_iff htracks).1 heffect
    obtain ⟨rfl, info, hbreak, hsignaled, hescalates⟩ := markStuck_mem_reaction.1 hreaction
    exact ⟨seen.agent.pane, info, ⟨seen, hseen, rfl, rfl, verdict, hverdict, hbreak⟩, hescalates,
      (htracks.signaled_iff seen).1 hsignaled⟩
  case signalled =>
    intro earlier tick later agent info _
    have htracks := tracks_after config earlier
    constructor
    · intro hsignal
      obtain ⟨seen, hseen, heffect⟩ := mem_effects_runTick.1 hsignal
      obtain ⟨verdict, hverdict, hreaction⟩ := (mem_effects_iff htracks).1 heffect
      obtain ⟨rfl, hbreak, hsignaled⟩ := onBreak_mem_reaction.1 hreaction
      exact ⟨⟨seen.agent.pane, seen, hseen, rfl, rfl, verdict, hverdict, hbreak⟩,
        fun hepisode => hsignaled ((htracks.signaled_iff seen).2 hepisode)⟩
    · rintro ⟨⟨pane, seen, hseen, rfl, -, verdict, hverdict, hbreak⟩, hepisode⟩
      refine mem_effects_runTick.2 ⟨seen, hseen, (mem_effects_iff htracks).2
        ⟨verdict, hverdict, ?_⟩⟩
      exact onBreak_mem_reaction.2
        ⟨rfl, hbreak, fun hsignaled => hepisode ((htracks.signaled_iff seen).1 hsignaled)⟩
  case once =>
    intro earlier tick later agent _
    have htracks := tracks_after config earlier
    by_cases hruns : tick.Runs agent
    · obtain ⟨seen, hseen, rfl⟩ := hruns
      have hown : ((effectsAt config earlier tick).filter fun effect =>
          effect.isBreak ∧ effect.agent = seen.agent.agentId) =
          (seen.effects (Run.after ReconcileLoop.exec earlier { config })
            tick.observedAt).filter Effect.isBreak := by
        rw [← filter_effects_runTick hseen, List.filter_filter]
        exact List.filter_congr fun effect _ => by simp
      rw [hown, Observation.effects]
      split
      · exact Nat.zero_le 1
      · exact length_signals_reaction
    · have hnone : ((effectsAt config earlier tick).filter fun effect =>
          effect.isBreak ∧ effect.agent = agent) = [] := by
        refine List.filter_eq_nil_iff.2 fun effect heffect hmine => hruns ?_
        obtain ⟨seen, hseen, heffect⟩ := mem_effects_runTick.1 heffect
        obtain ⟨verdict, -, hreaction⟩ := (mem_effects_iff htracks).1 heffect
        refine ⟨seen, hseen, ?_⟩
        rw [← agent_of_mem_reaction hreaction]
        exact (of_decide_eq_true hmine).2
      rw [hnone]
      exact Nat.zero_le 1
  case nudged =>
    intro earlier tick later agent pane triggerId _ hnudge
    have htracks := tracks_after config earlier
    obtain ⟨seen, hseen, heffect⟩ := mem_effects_runTick.1 hnudge
    obtain ⟨verdict, hverdict, hreaction⟩ := (mem_effects_iff htracks).1 heffect
    obtain ⟨rfl, rfl⟩ := injectNudge_mem_reaction hreaction
    have htracks' : Tracks config (earlier ++ [tick]) _ := htracks.exec
    refine htracks'.pane _
      { (Run.after ReconcileLoop.exec earlier { config }).watchdogFor seen.agent with
        signaled := verdict.break.map BreakInfo.kind } ?_
    rw [watchdogs_exec hseen, Observation.watchdog, htracks.judges, hverdict]

/-! ## Breaks of alternating kinds -/

/-- A tick that finds one agent in the given pane, quiet since time zero. -/
def quietSince (observedAt : ℚ) (pane : ℕ) (turnActive : Bool) : Tick ℕ where
  observedAt
  running := [{
    agent := { agentId := "impl", pane }
    livenessInput := some {
      trace := [.bytes 0]
      exited := false
      pidAlive := true
      turnActive } }]
  distinct := List.pairwise_singleton _ _

theorem alternating_never_stuck :
    (∃ info, (quietSince 2500 0 false).Assesses {} "impl" 0 (some info) ∧ info.kind.Escalates) ∧
      (∃ info, (quietSince 8000 1 true).Assesses {} "impl" 1 (some info) ∧ info.kind.Escalates) ∧
      .markStuck "impl" ∉ effectsAt {} [] (quietSince 2500 0 false) ∧
      .markStuck "impl" ∉ effectsAt {} [quietSince 2500 0 false] (quietSince 8000 1 true) ∧
      (quietSince 9000 1 false).running.map (·.agent.pane) = [1] ∧
      .injectNudge "impl" 0 SILENT_STOP_TRIGGER ∈
        effectsAt {} [quietSince 2500 0 false, quietSince 8000 1 true] (quietSince 9000 1 false) :=
  ⟨⟨⟨.silentStop, some SILENT_STOP_TRIGGER, .idleWithoutCompletion⟩,
      ⟨_, List.mem_singleton_self _, rfl, rfl, _, rfl, by decide +kernel⟩, by decide⟩,
    ⟨⟨.wedged, none, .noPtyBytes WEDGE_MS⟩,
      ⟨_, List.mem_singleton_self _, rfl, rfl, _, rfl, by decide +kernel⟩, by decide⟩,
    by decide +kernel, by decide +kernel, rfl, by decide +kernel⟩

end Orchestration.Pty
