import Orchestration.Conductor.ClarifySweep
import Orchestration.Conductor.Daemon

/-!
# Who is driven

The daemon drives the first of its candidates that holds an eligible mail, and an
actionable mail stays eligible until it is answered. So the candidates get their turns as
long as nobody who has just been driven stands before one who still waits; and the sweeps
run on every cadence as long as nothing before them throws.
-/

namespace Orchestration.Conductor

open Fallible Transaction
open Mail (DeliveredMail)
open Replay (StoreCall storeRun)
open Roles (AgentRecord selectAgent)
open Turns (Turn Next Patient HadTurnSince)

/-! ## Selection -/

section

variable {e : ConductorEngine} {now : ℚ} {candidates : List HostedIdentity}

theorem selectEligible_fst : (selectEligible (e.eligible now candidates) e.openMail).map Prod.fst =
    (waitingAgents e now candidates).head? := by
  rw [selectEligible, waitingAgents]
  generalize e.eligible now candidates = eligible
  induction eligible with
  | nil => rfl
  | cons identity rest ih =>
    rw [List.findSome?_cons]
    cases hmail : firstEligibleMail (e.openMail identity.projectId) identity.agent with
    | none => rw [List.filter_cons_of_neg (by rw [hmail]; decide)]; exact ih
    | some mail => rw [List.filter_cons_of_pos (by rw [hmail]; rfl)]; rfl

theorem waitingAgents_subset : waitingAgents e now candidates ⊆ candidates := by
  intro identity hmem
  exact (List.mem_filter.1 (List.mem_filter.1 hmem).1).1

end

/-! ## What a turn leaves behind -/

/-- The stores of every project are consistent. -/
def ConsistentStores (engine : Engine) : Prop := ∀ p, Consistent (engine.stores p)

theorem ConsistentStores.setStore {engine : Engine} {projectId : String} {db : Db}
    (h : ConsistentStores engine) (hdb : Consistent db) :
    ConsistentStores (engine.setStore projectId db) := by
  intro p
  by_cases hp : p = projectId
  · subst hp
    rw [Engine.stores_setStore]
    exact hdb
  · rw [Engine.stores_setStore_of_ne hp]
    exact h p

theorem preserves_onProject {α : Type} {projectId : String} {p : StoreProc α}
    (hp : Proc.Preserves Consistent p) :
    Proc.Preserves ConsistentStores (onProject projectId p) := by
  intro engine h
  exact h.setStore (hp _ (h projectId))

section

variable {deps : ConductorEngineDeps} {identity : HostedIdentity} {mail : DeliveredMail}

theorem preserves_retract {delivery : Mail.Delivery} {sender : String} {seq : ℕ} :
    Proc.Preserves Consistent (Mail.MailStore.retract delivery sender seq) :=
  fun _ h => StoreCall.exec_consistent h (.mail delivery (.retract sender seq))

theorem preserves_consumeOneShotKickoff :
    Proc.Preserves ConsistentStores (consumeOneShotKickoff deps identity mail) := by
  unfold consumeOneShotKickoff
  split
  · exact (preserves_onProject preserves_retract).bind fun _ => Proc.preserves_pure _
  · exact Proc.preserves_pure _

theorem preserves_consumeUnreadTurnWakeMail :
    Proc.Preserves ConsistentStores (consumeUnreadTurnWakeMail deps identity mail) := by
  unfold consumeUnreadTurnWakeMail
  split
  · refine (preserves_onProject fun db h => ?_).bind fun inbox => ?_
    · exact h
    · split
      · refine (preserves_onProject fun db h => ?_).bind fun _ => Proc.preserves_pure _
        exact StoreCall.exec_consistent h (.mail deps.delivery (.markRead mail.recipient mail.seq))
      · exact Proc.preserves_pure _
  · exact Proc.preserves_pure _

theorem preserves_consume {sawMcpActivity : Bool} :
    Proc.Preserves ConsistentStores (consume deps identity mail sawMcpActivity) := by
  unfold consume
  refine preserves_consumeOneShotKickoff.bind fun _ => ?_
  split
  · exact preserves_consumeUnreadTurnWakeMail
  · exact Proc.preserves_pure _

theorem preserves_retireKickoff {attempts : ℕ} {error : String} {seen : TurnEnd} :
    Proc.Preserves ConsistentStores (retireKickoff deps identity mail attempts error seen) := by
  unfold retireKickoff
  refine preserves_consumeOneShotKickoff.bind fun _ => ?_
  refine (preserves_onProject fun db h => ?_).bind fun _ => Proc.preserves_pure _
  exact StoreCall.exec_consistent h (.mail deps.delivery
    (.send (cappedKickoffNotice identity mail attempts error seen)))

theorem turnErrored_consistent {error : String} {seen : TurnEnd} {e : ConductorEngine}
    (h : ConsistentStores e.toEngine) :
    ConsistentStores (turnErrored deps identity mail error seen e).toEngine := by
  unfold turnErrored
  split
  · dsimp only
    split
    · exact preserves_retireKickoff _ h
    · exact h
  · exact h

/-- A turn keeps the stores consistent. -/
theorem runOneTurn_consistent {now : ℚ} {seen : TurnEnd} {e : ConductorEngine}
    (h : ConsistentStores e.toEngine) :
    ConsistentStores (runOneTurn deps identity mail now seen e).toEngine := by
  have hyielded : ConsistentStores (turnYielded deps identity mail now seen e).toEngine := by
    unfold turnYielded
    dsimp only
    split
    · exact h
    · have hconsumed : ConsistentStores
          (consume deps identity mail seen.sawMcpActivity e.toEngine).2 := preserves_consume _ h
      split
      · exact hconsumed
      · exact turnErrored_consistent hconsumed
  unfold runOneTurn
  dsimp only
  cases seen.error with
  | none =>
    dsimp only
    split
    · exact hyielded
    · exact hyielded
  | some error =>
    dsimp only
    split
    · exact turnErrored_consistent h
    · exact turnErrored_consistent h

end

/-! ## The condition -/

/-- Every running session has a roster row. -/
def SessionsRegistered (db : Db) : Prop :=
  ∀ session ∈ db.sessions.sessions.rows, (selectAgent db.roster session.agentId).isSome = true

namespace ConductorDaemon

/-- The turns of the ticks that are over. -/
def turns (d : ConductorDaemon) : List (Turn String) := d.ticks.map TickRecord.turn

section

variable (deps : ConductorDaemonDeps)

/-- The cold agents that the tick launches have what their provider needs. -/
def ColdHomes (wanted : AgentRecord → Bool) (d : ConductorDaemon) : Prop :=
  ∀ agent ∈ (d.db deps).roster.roster.rows, wanted agent = true →
    isCold deps d.skipped d.engine agent = true →
    hasLiveWorktree (d.db deps) agent.agentId = true →
    providerForColdAgent (d.db deps) agent.agentId = .codex →
    ∃ codexHomeFor, deps.codexHomeFor = some codexHomeFor ∧ codexHomeFor agent.agentId ≠ ""

/-- The first that could be driven has not been driven since another of them began to wait. -/
def InTurn (now : ℚ) (d : ConductorDaemon) : Prop :=
  ∀ candidates, d.phase = .warming candidates → ∀ first others,
    waitingAgents d.engine now (candidates.filter d.engine.isHosted) = first :: others →
    ∀ other ∈ others, ¬ HadTurnSince d.turns other.agent first.agent

/-- The clarify sweep of a cadence can forward all that is due. -/
def SweepsThrough (now : ℚ) (d : ConductorDaemon) : Prop :=
  ∀ candidates drivable turn, d.phase = .sweeping candidates drivable turn →
    d.tickCount % deps.reconcileEvery = 0 →
    (∀ identity ∈ candidates, DueForwardable deps.engine now d.engine.toEngine identity) ∧
    (d.db deps).nextSeq + 2 * waitingCount d.engine.toEngine (agentsByProject candidates) ≤
      Js.maxSafeInteger

/-- Nothing stands in the way of the daemon's step. -/
def Orderly : DaemonOp → ConductorDaemon → Prop
  | .tickStarts _, d => d.phase = .idle →
      (d.recovered = false → SessionsRegistered (d.db deps)) ∧ d.ColdHomes deps isRootAgent
  | .rewakes _, d => d.phase = .coldStarting →
      d.ColdHomes deps fun agent =>
        !isRootAgent agent && (firstEligibleMail (d.db deps).mail agent.agentId).isSome
  | .builds _, d => d.phase = .rewaking → SessionsRegistered (d.db deps)
  | .selects now, d => d.InTurn now
  | .sweeps now, d => d.SweepsThrough deps now
  | _, _ => True

/-- What the ticks of a run owe to the agents. -/
structure NobodyStarves (d : ConductorDaemon) : Prop where
  /-- The ticks that are over, in the order of their numbers. -/
  counted : d.ticks.map TickRecord.tick = List.range' 1 d.ticks.length
  /-- Who could be driven on as many ticks in a row as there are warm candidates is driven on one
  of them. -/
  driven : ∀ (earlier window later : List TickRecord) (agents : List String) (agent : String),
    d.ticks = earlier ++ window ++ later → window ≠ [] →
    (∀ record ∈ window, agent ∈ record.turn.waiting) →
    (∀ record ∈ window, record.candidates ⊆ agents) → agents.length ≤ window.length →
    ∃ record ∈ window, record.turn.chosen = some agent
  /-- Both sweeps run on every cadence. -/
  swept : ∀ record ∈ d.ticks, record.tick % deps.reconcileEvery = 0 →
    record.clarifySwept = true ∧ record.reconciled = true

end

/-! ## What a tick keeps -/

section

variable {deps : ConductorDaemonDeps} {d d' : ConductorDaemon} {now : ℚ}

theorem buildCandidates_ok {skipped : List String} {db : Db} (h : SessionsRegistered db) :
    ∃ candidates, buildCandidates deps skipped db = .ok candidates := by
  have hmap : ∃ ids, (selectAllSessions db.sessions).mapM (toIdentity deps db.roster) = .ok ids ∧
      ∀ identity ∈ ids, True := by
    refine mapM_ok _ fun session hsession => ?_
    have hrow : session ∈ db.sessions.sessions.rows := (List.mem_insertionSort _).1 hsession
    obtain ⟨agent, hagent⟩ := Option.isSome_iff_exists.1 (h session hrow)
    exact ⟨_, bind_eq_ok.2 ⟨agent, orThrow_eq_ok.2 hagent, rfl⟩, trivial⟩
  obtain ⟨ids, hids, -⟩ := hmap
  exact ⟨_, bind_eq_ok.2 ⟨ids, hids, rfl⟩⟩

theorem project_of_mapM {roster : Roles.RosterTables} {sessions : List Session.SessionRecord}
    {ids : List HostedIdentity} (h : sessions.mapM (toIdentity deps roster) = .ok ids) :
    ∀ identity ∈ ids, identity.projectId = deps.projectId := by
  induction sessions generalizing ids with
  | nil =>
    obtain rfl := pure_eq_ok.1 h
    exact fun _ hmem => absurd hmem List.not_mem_nil
  | cons session sessions ih =>
    rw [List.mapM_cons] at h
    obtain ⟨identity, hfirst, h⟩ := bind_eq_ok.1 h
    obtain ⟨rest, hrest, h⟩ := bind_eq_ok.1 h
    obtain rfl := pure_eq_ok.1 h
    obtain ⟨_, -, hidentity⟩ := bind_eq_ok.1 hfirst
    obtain rfl := pure_eq_ok.1 hidentity
    exact List.forall_mem_cons.2 ⟨rfl, ih hrest⟩

theorem buildCandidates_project {skipped : List String} {db : Db}
    {candidates : List HostedIdentity} (h : buildCandidates deps skipped db = .ok candidates) :
    ∀ identity ∈ candidates, identity.projectId = deps.projectId := by
  obtain ⟨ids, hids, h⟩ := bind_eq_ok.1 h
  obtain rfl := pure_eq_ok.1 h
  exact fun identity hmem => project_of_mapM hids identity (List.mem_filter.1 hmem).1

theorem toColdAgentIdentity_ok {db : Db} {agent : AgentRecord}
    (h : providerForColdAgent db agent.agentId = .codex →
      ∃ codexHomeFor, deps.codexHomeFor = some codexHomeFor ∧ codexHomeFor agent.agentId ≠ "") :
    ∃ identity, toColdAgentIdentity deps db agent = .ok identity ∧ True := by
  unfold toColdAgentIdentity
  cases hprovider : providerForColdAgent db agent.agentId with
  | claude => exact ⟨_, rfl, trivial⟩
  | codex =>
    obtain ⟨codexHomeFor, hsome, hne⟩ := h hprovider
    have hhome : codexHomeForColdAgent deps agent.agentId = .ok (codexHomeFor agent.agentId) := by
      refine bind_eq_ok.2 ⟨(), refuse_eq_ok.2 ?_, ?_⟩
      · rw [hsome]
        exact hne
      · rw [hsome]
        rfl
    exact ⟨_, bind_eq_ok.2 ⟨_, hhome, rfl⟩, trivial⟩

/-- The discovery of the cold agents goes through. -/
theorem ColdHomes.discovers {wanted : AgentRecord → Bool} (h : d.ColdHomes deps wanted)
    {p : AgentRecord → Bool} (hp : ∀ agent, p agent = true → wanted agent = true ∧
      isCold deps d.skipped d.engine agent = true ∧
      hasLiveWorktree (d.db deps) agent.agentId = true) :
    ∃ ids, ((d.db deps).roster.roster.rows.filter p).mapM
      (toColdAgentIdentity deps (d.db deps)) = .ok ids := by
  have hmap : ∃ ids, ((d.db deps).roster.roster.rows.filter p).mapM
      (toColdAgentIdentity deps (d.db deps)) = .ok ids ∧ ∀ identity ∈ ids, True := by
    refine mapM_ok _ fun agent hagent => ?_
    obtain ⟨hmem, hagent⟩ := List.mem_filter.1 hagent
    obtain ⟨hwanted, hcold, hlive⟩ := hp agent hagent
    exact toColdAgentIdentity_ok (h agent hmem hwanted hcold hlive)
  obtain ⟨ids, hids, -⟩ := hmap
  exact ⟨ids, hids⟩

end

/-! ## The invariant -/

/-- The warm candidates and the turn of a tick that has selected. -/
def selected : TickPhase → Option (List HostedIdentity × Turn String)
  | .driving _ drivable turn _ _ | .sweeping _ drivable turn => some (drivable, turn)
  | _ => none

/-- The candidates of a tick that has built them. -/
def built : TickPhase → List HostedIdentity
  | .warming candidates | .driving candidates _ _ _ _ | .sweeping candidates _ _ => candidates
  | _ => []

/-- How many ticks are not over. -/
def underWay : TickPhase → ℕ
  | .idle => 0
  | _ => 1

/-- What every step of an orderly run keeps. -/
structure Orders (deps : ConductorDaemonDeps) (d : ConductorDaemon) : Prop where
  consistent : ConsistentStores d.engine.toEngine
  patient : Patient d.turns
  next : ∀ drivable turn, selected d.phase = some (drivable, turn) →
    Next d.turns turn ∧ turn.waiting ⊆ drivable.map HostedIdentity.agent
  project : ∀ identity ∈ built d.phase, identity.projectId = deps.projectId
  recorded : ∀ record ∈ d.ticks, record.turn.waiting ⊆ record.candidates
  swept : ∀ record ∈ d.ticks, record.tick % deps.reconcileEvery = 0 →
    record.clarifySwept = true ∧ record.reconciled = true
  counted : d.ticks.map TickRecord.tick = List.range' 1 d.ticks.length
  count : d.tickCount = d.ticks.length + underWay d.phase

section

variable {deps : ConductorDaemonDeps} {d d' : ConductorDaemon} {now : ℚ}

theorem Orders.started (clock : String → ℕ → ℕ) :
    (ConductorDaemon.started clock).Orders deps where
  consistent p := .empty (clock p)
  patient := .nil
  next _ _ h := nomatch h
  project _ h := absurd h List.not_mem_nil
  recorded _ h := absurd h List.not_mem_nil
  swept _ h := absurd h List.not_mem_nil
  counted := rfl
  count := rfl

/-- A step that is not one of the tick's. -/
theorem Orders.aside (h : d.Orders deps) (hphase : d'.phase = d.phase) (hticks : d'.ticks = d.ticks)
    (hcount : d'.tickCount = d.tickCount) (hconsistent : ConsistentStores d'.engine.toEngine) :
    d'.Orders deps := by
  have hturns : d'.turns = d.turns := by rw [turns, turns, hticks]
  constructor
  case consistent => exact hconsistent
  case patient => rw [hturns]; exact h.patient
  case next => rw [hturns, hphase]; exact h.next
  case project => rw [hphase]; exact h.project
  case recorded => rw [hticks]; exact h.recorded
  case swept => rw [hticks]; exact h.swept
  case counted => rw [hticks]; exact h.counted
  case count => rw [hticks, hphase, hcount]; exact h.count

/-- The tick goes on to its next await. -/
theorem Orders.goesOn (h : d.Orders deps) {phase : TickPhase}
    (hnext : ∀ drivable turn, selected phase = some (drivable, turn) →
      Next d.turns turn ∧ turn.waiting ⊆ drivable.map HostedIdentity.agent)
    (hproject : ∀ identity ∈ built phase, identity.projectId = deps.projectId)
    (hcount : underWay phase = underWay d.phase) : ({ d with phase } : ConductorDaemon).Orders deps where
  consistent := h.consistent
  patient := h.patient
  next := hnext
  project := hproject
  recorded := h.recorded
  swept := h.swept
  counted := h.counted
  count := by
    show d.tickCount = d.ticks.length + underWay phase
    rw [hcount]
    exact h.count

/-- A tick that has run to its end is recorded. -/
theorem Orders.ended (h : d.Orders deps) {drivable : List HostedIdentity} {turn : Turn String}
    {swept : Bool} (hselected : selected d.phase = some (drivable, turn))
    (hswept : d.tickCount % deps.reconcileEvery = 0 → swept = true) :
    (d.ended drivable turn swept).Orders deps := by
  obtain ⟨hnext, hwaiting⟩ := h.next drivable turn hselected
  have hcount := h.count
  have hunderWay : underWay d.phase = 1 := by
    cases hphase : d.phase with
    | idle | coldStarting | rewaking | warming _ =>
      rw [hphase] at hselected
      cases hselected
    | driving _ _ _ _ _ | sweeping _ _ _ => rfl
  rw [hunderWay] at hcount
  constructor
  case consistent => exact h.consistent
  case patient =>
    show Patient (List.map TickRecord.turn (d.ticks ++ [_]))
    rw [List.map_append]
    exact h.patient.concat hnext
  case next => exact fun _ _ hidle => nomatch hidle
  case project => exact fun _ hidle => absurd hidle List.not_mem_nil
  case recorded =>
    intro record hrecord
    cases List.mem_append.1 hrecord with
    | inl hold => exact h.recorded record hold
    | inr hnew =>
      obtain rfl := List.mem_singleton.1 hnew
      exact hwaiting
  case swept =>
    intro record hrecord hcadence
    cases List.mem_append.1 hrecord with
    | inl hold => exact h.swept record hold hcadence
    | inr hnew =>
      obtain rfl := List.mem_singleton.1 hnew
      exact ⟨hswept hcadence, hswept hcadence⟩
  case counted =>
    show List.map TickRecord.tick (d.ticks ++ [_]) = List.range' 1 (d.ticks ++ [_]).length
    rw [List.map_append, List.length_append, List.length_singleton, List.range'_concat, h.counted]
    show _ ++ [d.tickCount] = _
    rw [hcount, Nat.one_mul, Nat.add_comm]
  case count =>
    show d.tickCount = (d.ticks ++ [_]).length + 0
    rw [List.length_append, List.length_singleton]
    exact hcount

end

section

variable {deps : ConductorDaemonDeps} {d d' : ConductorDaemon} {now : ℚ}

/-! ## One step -/

theorem Orders.tickStarts (h : d.Orders deps) (hguard : Orderly deps (.tickStarts now) d) :
    (d.tickStarts deps now).Orders deps := by
  unfold ConductorDaemon.tickStarts
  split
  case h_2 => exact h
  case h_1 hphase =>
    obtain ⟨hregistered, hhomes⟩ := hguard hphase
    obtain ⟨ids, hrecovery⟩ : ∃ ids, (if d.recovered then .ok []
        else buildCandidates deps d.skipped (d.db deps)) = Except.ok (ε := String) ids := by
      cases hrecovered : d.recovered with
      | true => exact ⟨[], rfl⟩
      | false => exact buildCandidates_ok (hregistered hrecovered)
    obtain ⟨roots, hroots⟩ := hhomes.discovers
      (p := fun agent => isRootAgent agent && isCold deps d.skipped d.engine agent &&
        hasLiveWorktree (d.db deps) agent.agentId) fun agent hagent => by
      simpa [and_assoc] using hagent
    dsimp only
    rw [hrecovery]
    dsimp only
    have hdiscovered : discoverColdStartRoots deps d.skipped d.engine = .ok roots := hroots
    rw [hdiscovered]
    have hcount := h.count
    rw [hphase] at hcount
    constructor
    case consistent => exact h.consistent
    case patient => exact h.patient
    case next => exact fun _ _ hnone => nomatch hnone
    case project => exact fun _ hnone => absurd hnone List.not_mem_nil
    case recorded => exact h.recorded
    case swept => exact h.swept
    case counted => exact h.counted
    case count => exact congrArg (· + 1) hcount

theorem Orders.rewakes (h : d.Orders deps) (hguard : Orderly deps (.rewakes now) d) :
    (d.rewakes deps now).Orders deps := by
  unfold ConductorDaemon.rewakes
  split
  case h_2 => exact h
  case h_1 hphase =>
    obtain ⟨agents, hagents⟩ := (hguard hphase).discovers
      (p := fun agent => !isRootAgent agent && isCold deps d.skipped d.engine agent &&
        (firstEligibleMail (d.db deps).mail agent.agentId).isSome &&
        hasLiveWorktree (d.db deps) agent.agentId) fun agent hagent => by
      simp only [Bool.and_eq_true] at hagent ⊢
      exact ⟨⟨hagent.1.1.1, hagent.1.2⟩, hagent.1.1.2, hagent.2⟩
    have hdiscovered : discoverColdRewakeAgents deps d.skipped d.engine = .ok agents := hagents
    rw [hdiscovered]
    exact h.goesOn (fun _ _ hnone => nomatch hnone) (fun _ hnone => absurd hnone List.not_mem_nil)
      (by rw [hphase]; rfl)

theorem Orders.builds (h : d.Orders deps) (hguard : Orderly deps (.builds now) d) :
    (d.builds deps now).Orders deps := by
  unfold ConductorDaemon.builds
  split
  case h_2 => exact h
  case h_1 hphase =>
    obtain ⟨candidates, hbuilt⟩ :
        ∃ candidates, buildCandidates deps d.skipped (d.db deps) = .ok candidates :=
      buildCandidates_ok (hguard hphase)
    rw [hbuilt]
    exact h.goesOn (fun _ _ hnone => nomatch hnone) (buildCandidates_project hbuilt)
      (by rw [hphase]; rfl)

theorem Orders.selects (h : d.Orders deps) (hguard : Orderly deps (.selects now) d) :
    (d.selects now).Orders deps := by
  unfold ConductorDaemon.selects
  split
  case h_2 => exact h
  case h_1 candidates hphase =>
    have hproject : ∀ identity ∈ candidates, identity.projectId = deps.projectId := by
      have hbuilt := h.project
      rw [hphase] at hbuilt
      exact hbuilt
    have hunderWay : 1 = underWay d.phase := by rw [hphase]; rfl
    have hfirst : (selectEligible (d.engine.eligible now (candidates.filter d.engine.isHosted))
        d.engine.openMail).map Prod.fst =
          (waitingAgents d.engine now (candidates.filter d.engine.isHosted)).head? :=
      selectEligible_fst
    have hwaiting : waitingAgents d.engine now (candidates.filter d.engine.isHosted) ⊆
        candidates.filter d.engine.isHosted := waitingAgents_subset
    dsimp only
    split
    case h_1 hnone =>
      rw [hnone, Option.map_none, eq_comm, List.head?_eq_none_iff] at hfirst
      refine h.goesOn (fun drivable turn hselected => ?_) hproject hunderWay
      cases hselected
      refine ⟨⟨fun hne => absurd ?_ hne, fun _ _ _ hchosen => nomatch hchosen⟩,
        List.map_subset _ hwaiting⟩
      show List.map _ _ = []
      rw [hfirst, List.map_nil]
    case h_2 identity mail hsome =>
      rw [hsome, Option.map_some, eq_comm, List.head?_eq_some_iff] at hfirst
      obtain ⟨others, hothers⟩ := hfirst
      refine h.goesOn (fun drivable turn hselected => ?_) hproject hunderWay
      cases hselected
      refine ⟨⟨fun _ => ⟨identity.agent, ?_, rfl⟩, fun agent hagent c hchosen hsince => ?_⟩,
        List.map_subset _ hwaiting⟩
      · show identity.agent ∈ List.map _ _
        rw [hothers]
        exact List.mem_map_of_mem List.mem_cons_self
      · cases hchosen
        obtain ⟨other, hother, rfl⟩ := List.mem_map.1 hagent
        rw [hothers] at hother
        cases List.mem_cons.1 hother with
        | inl hsame =>
          subst hsame
          obtain ⟨_, later, -, hover, turn, hturn, hdriven⟩ := hsince
          exact (hover turn hturn).2 hdriven
        | inr hmem => exact hguard candidates hphase identity others hothers other hmem hsince

theorem Orders.turnEnds {seen : TurnEnd} (h : d.Orders deps) :
    (d.turnEnds deps now seen).Orders deps := by
  unfold ConductorDaemon.turnEnds
  split
  case h_2 => exact h
  case h_1 candidates drivable turn identity mail hphase =>
    have hselected := h.next
    have hproject := h.project
    rw [hphase] at hselected hproject
    have hengine : (d.mapEngine (runOneTurn deps.engine identity mail now seen)).Orders deps :=
      h.aside rfl rfl rfl (runOneTurn_consistent h.consistent)
    refine hengine.goesOn hselected hproject ?_
    show 1 = underWay d.phase
    rw [hphase]
    rfl

theorem Orders.sweeps (h : d.Orders deps) (hguard : Orderly deps (.sweeps now) d) :
    (d.sweeps deps now).Orders deps := by
  unfold ConductorDaemon.sweeps
  split
  case h_2 => exact h
  case h_1 candidates drivable turn hphase =>
    have hselected : selected d.phase = some (drivable, turn) := by rw [hphase]; rfl
    split
    case isFalse hcadence => exact h.ended hselected fun hfired => absurd hfired hcadence
    case isTrue hcadence =>
      obtain ⟨hdue, hroom⟩ := hguard candidates drivable turn hphase hcadence
      have hproject := h.project
      rw [hphase] at hproject
      have hready : SweepReady deps.engine now deps.projectId (agentsByProject candidates)
          d.engine.toEngine :=
        { distinct := nodup_agentsByProject _
          project := fun identity hmem => hproject identity (mem_agentsByProject.1 hmem)
          consistent := h.consistent
          due := fun identity hmem => hdue identity (mem_agentsByProject.1 hmem)
          room := hroom }
      obtain ⟨forwarded, engine', htick, hemits⟩ := tick_passes hready
      dsimp only
      rw [htick]
      have hengine : (d.mapEngine fun e => { e with toEngine := engine' }).Orders deps :=
        h.aside rfl rfl rfl fun p => (h.consistent p).emits (hemits p)
      exact hengine.ended hselected fun _ => rfl

theorem Orders.step {op : DaemonOp} (h : d.Orders deps) (hguard : Orderly deps op d) :
    (step deps op d).Orders deps := by
  cases op with
  | calls p calls =>
    exact h.aside rfl rfl rfl (h.consistent.setStore (Replay.storeRun_consistent (h.consistent p)))
  | suppress agent => exact h.aside rfl rfl rfl h.consistent
  | unsuppress agent => exact h.aside rfl rfl rfl h.consistent
  | hosts identity =>
    refine h.aside rfl rfl rfl ?_
    show ConsistentStores (d.engine.host identity).toEngine
    unfold ConductorEngine.host
    split <;> exact h.consistent
  | releases identity =>
    refine h.aside rfl rfl rfl ?_
    show ConsistentStores (d.engine.release identity _).toEngine
    unfold ConductorEngine.release
    dsimp only
    split
    · split <;> exact h.consistent
    · exact h.consistent
  | tickStarts now => exact h.tickStarts hguard
  | rewakes now => exact h.rewakes hguard
  | builds now => exact h.builds hguard
  | selects now => exact h.selects hguard
  | turnEnds now seen => exact h.turnEnds
  | sweeps now => exact h.sweeps hguard

/-! ## Whole runs -/

theorem Orders.nobodyStarves (h : d.Orders deps) : d.NobodyStarves deps where
  counted := h.counted
  swept := h.swept
  driven := by
    intro earlier window later agents agent hsplit hne hwaits hagents hlong
    have hturns : d.turns = earlier.map TickRecord.turn ++ window.map TickRecord.turn ++
        later.map TickRecord.turn := by
      rw [turns, hsplit, List.map_append, List.map_append]
    have hrecord : ∀ record ∈ window, record ∈ d.ticks := by
      intro record hmem
      rw [hsplit]
      exact List.mem_append_left _ (List.mem_append_right _ hmem)
    have hsubset : ∀ record ∈ window, record.turn.waiting ⊆ agents := by
      intro record hmem a ha
      exact hagents record hmem (h.recorded record (hrecord record hmem) ha)
    have hagent : agent ∈ agents := by
      obtain ⟨record, hmem⟩ := List.exists_mem_of_ne_nil window hne
      exact hsubset record hmem (hwaits record hmem)
    have hlength : agents.length ≤ (window.map TickRecord.turn).length := by
      rw [List.length_map]
      exact hlong
    obtain ⟨turn, hturn, hchosen⟩ := h.patient.has_turn hturns (List.forall_mem_map.2 hwaits)
      (List.forall_mem_map.2 hsubset) hagent hlength
    obtain ⟨record, hmem, rfl⟩ := List.mem_map.1 hturn
    exact ⟨record, hmem, hchosen⟩

/-- In a run whose steps nothing stands in the way of, nobody starves. -/
theorem nobody_starves (deps : ConductorDaemonDeps) (clock : String → ℕ → ℕ) (ops : List DaemonOp)
    (h : Run.Guarded (step deps) (Orderly deps) ops (.started clock)) :
    (Run.after (step deps) ops (.started clock)).NobodyStarves deps := by
  have horders : (Run.after (step deps) ops (.started clock)).Orders deps :=
    Run.invariant (Orders deps) (fun _ _ hguard hs => hs.step hguard) h (.started clock)
  exact horders.nobodyStarves

end

/-! ## Two roots that are asked -/

def everyTick : ConductorDaemonDeps where
  projectId := "p"
  reconcileEvery := 1
  reconcileEvery_pos := Nat.one_pos
  engine := { clarifyTimeoutSeconds := fun _ => 60 }

/-- A root with a session, and a question of the operator that it has not answered. -/
def askedRoot (agent : String) : List StoreCall := [
  .roster (.recordAgent { agentId := agent, role := .coordinator, parent := "@operator" }),
  .session (.recordSession {
    agentId := agent
    pane := "pane-" ++ agent
    cwd := "/w/" ++ agent
    provider := .claude
    resume := .claude agent }),
  .mail .inProcess (.send {
    type := .clarifyRequest
    «to» := agent
    «from» := "@operator"
    subject := "which one?"
    body := "please decide" })]

def twoAsked : List DaemonOp := [
  .calls "p" (askedRoot "c" ++ askedRoot "d"),
  .hosts { projectId := "p", agent := "c" },
  .hosts { projectId := "p", agent := "d" }]

/-- A tick on which the driven agent does nothing. -/
def idleTick : List DaemonOp :=
  [.tickStarts 0, .rewakes 0, .builds 0, .selects 0, .turnEnds 0 {}, .sweeps 0]

theorem not_hadTurnSince_nil {a c : String} : ¬ HadTurnSince ([] : List (Turn String)) a c := by
  rintro ⟨earlier, later, hsplit, -, turn, hturn, -⟩
  rw [(List.append_eq_nil_iff.1 hsplit.symm).2] at hturn
  exact absurd hturn List.not_mem_nil

/-- On the first tick both wait, and none of them has had a turn. -/
theorem nobody_starves_once :
    (Run.after (step everyTick) (twoAsked ++ idleTick) (.started fun _ _ => 0)).NobodyStarves
      everyTick := by
  have hcold : ∀ {d : ConductorDaemon} {wanted : AgentRecord → Bool},
      (∀ agent ∈ (d.db everyTick).roster.roster.rows,
        isCold everyTick d.skipped d.engine agent = false) → d.ColdHomes everyTick wanted := by
    intro d wanted hwarm agent hmem _ hcold
    rw [hwarm agent hmem] at hcold
    cases hcold
  refine nobody_starves everyTick (fun _ _ => 0) (twoAsked ++ idleTick) ⟨trivial, trivial, trivial,
    fun _ => ⟨fun _ => ?_, hcold ?_⟩, fun _ => hcold ?_, fun _ => ?_, ?_, trivial, ?_, trivial⟩
  case refine_1 => unfold SessionsRegistered; decide +kernel
  case refine_2 => decide +kernel
  case refine_3 => decide +kernel
  case refine_4 => unfold SessionsRegistered; decide +kernel
  case refine_5 => exact fun _ _ _ _ _ _ _ => not_hadTurnSince_nil
  case refine_6 =>
    intro candidates drivable turn hphase _
    have hbuilt := congrArg built hphase
    have hcandidates : candidates = [⟨"p", "c"⟩, ⟨"p", "d"⟩] := by
      refine hbuilt.symm.trans ?_
      decide +kernel
    rw [hcandidates]
    constructor
    case left =>
      intro identity hmem m hm
      have hnone : ∀ identity ∈ [(⟨"p", "c"⟩ : HostedIdentity), ⟨"p", "d"⟩],
          waitingFor (Run.after (step everyTick) (twoAsked ++ idleTick.take 5)
            (.started fun _ _ => 0)).engine.toEngine identity = [] := by decide +kernel
      have hm' := hnone identity hmem ▸ hm
      exact absurd hm' List.not_mem_nil
    case right => decide +kernel

/-- The first is driven on both ticks, the other on none. -/
def unfairTicks : List TickRecord :=
  let record (tick : ℕ) : TickRecord := {
    tick
    candidates := ["c", "d"]
    turn := { waiting := ["c", "d"], chosen := some "c" }
    clarifySwept := true
    reconciled := true }
  [record 1, record 2]

/-- The first of two asked agents is driven on every tick, the other never. -/
theorem first_candidate_starves_others :
    ¬ ∀ (deps : ConductorDaemonDeps) (clock : String → ℕ → ℕ) (ops : List DaemonOp),
      (Run.after (step deps) ops (.started clock)).NobodyStarves deps := by
  intro h
  have hticks : (Run.after (step everyTick) (twoAsked ++ idleTick ++ idleTick)
      (.started fun _ _ => 0)).ticks = [] ++ unfairTicks ++ [] := by decide +kernel
  obtain ⟨record, hrecord, hdriven⟩ := (h everyTick (fun _ _ => 0)
    (twoAsked ++ idleTick ++ idleTick)).driven [] unfairTicks [] ["c", "d"] "d" hticks (by decide)
    (by decide) (by decide) (by decide)
  revert record
  decide

end ConductorDaemon

end Orchestration.Conductor
