import Orchestration.Conductor.DaemonRuns
import Orchestration.Conductor.SessionHosting
import Orchestration.Dispatch.Throttle

/-!
# Every active session has a roster row

Each of the paths that take a session back ends the session before it takes the roster row, in
one stretch without an await, so no crash between the two leaves a session without its row.
Hosting a session goes the other way: it records the session first, and for an agent that the
roster does not hold yet the project is broken until the registration is committed. Every run
in which sessions are only recorded for registered agents keeps the rows together, wherever
the process is killed.
-/

namespace Orchestration.Conductor

open Fallible Transaction
open Replay (StoreCall)
open Roles (AgentRegistered recordAgent removeAgent selectAgent)
open Session (SessionCreated endSession recordSession selectSession)

/-- What a daemon needs of the log that it is started on. -/
structure Drivable (db : Db) : Prop where
  registered : SessionsRegistered db
  /-- Every session is among the candidates, whoever is suppressed. -/
  candidates : ∀ deps skipped, ∃ candidates, buildCandidates deps skipped db = .ok candidates ∧
    ∀ session ∈ db.sessions.sessions.rows, session.agentId ∉ skipped →
      { projectId := deps.projectId, agent := session.agentId } ∈ candidates
  /-- A tick that has rewoken the cold agents comes to its turn. -/
  ticks : ∀ (deps : ConductorDaemonDeps) (d : ConductorDaemon) now, d.db deps = db →
    d.phase = .rewaking → ∃ candidates,
      d.builds deps now = { d with phase := .warming candidates }

theorem drivable_of_registered {db : Db} (h : SessionsRegistered db) : Drivable db := by
  have hcandidates : ∀ deps skipped, ∃ candidates, buildCandidates deps skipped db = .ok candidates ∧
      ∀ session ∈ db.sessions.sessions.rows, session.agentId ∉ skipped →
        { projectId := deps.projectId, agent := session.agentId } ∈ candidates := by
    intro deps skipped
    let identityOf (session : Session.SessionRecord) : HostedIdentity :=
      { projectId := deps.projectId, agent := session.agentId }
    have hmap : (selectAllSessions db.sessions).mapM (toIdentity deps db.roster) =
        .ok ((selectAllSessions db.sessions).map identityOf) := by
      refine mapM_eq_map fun session hsession => ?_
      have hrow : session ∈ db.sessions.sessions.rows := (List.mem_insertionSort _).1 hsession
      obtain ⟨agent, hagent⟩ := Option.isSome_iff_exists.1 (h session hrow)
      exact bind_eq_ok.2 ⟨agent, orThrow_eq_ok.2 hagent, rfl⟩
    refine ⟨_, bind_eq_ok.2 ⟨_, hmap, rfl⟩, fun session hsession hskipped => ?_⟩
    refine List.mem_filter.2 ⟨?_, by simpa using hskipped⟩
    exact List.mem_map_of_mem ((List.mem_insertionSort _).2 hsession)
  refine ⟨h, hcandidates, fun deps d now hdb hphase => ?_⟩
  obtain ⟨candidates, hbuilt, -⟩ := hcandidates deps d.skipped
  refine ⟨candidates, ?_⟩
  rw [ConductorDaemon.builds, hphase]
  dsimp only
  rw [hdb, hbuilt]

/-! ## The transactions -/

/-- A log that the stores left, with a roster row for every session. -/
structure Stands (db : Db) : Prop where
  consistent : Consistent db
  registered : SessionsRegistered db

def NoSession (db : Db) (agent : String) : Prop :=
  ∀ session ∈ db.sessions.sessions.rows, session.agentId ≠ agent

theorem noSession_of_selectSession {db : Db} {agent : String}
    (h : selectSession db.sessions agent = none) : NoSession db agent :=
  fun session hsession hagent => Table.find?_eq_none.1 h session hsession hagent

section

variable {db db' : Db}

theorem Stands.recordSession {rec : SessionCreated} {row : Session.SessionRecord} (h : Stands db)
    (hagent : (selectAgent db.roster rec.agentId).isSome = true)
    (hbody : recordSession rec db = .ok (row, db')) : Stands db' := by
  obtain ⟨hroster, hrows⟩ := Session.recordSession_rows hbody
  refine ⟨h.consistent.emits (Session.recordSession_spec hbody), fun session hsession => ?_⟩
  rw [hroster]
  cases hrows session hsession with
  | inl hold => exact h.registered session hold
  | inr hnew => rwa [hnew]

theorem Stands.endSession {agent pane : String} {row : Session.SessionRecord} (h : Stands db)
    (hbody : endSession agent pane db = .ok (row, db')) :
    Stands db' ∧ NoSession db' agent ∧ ∀ other, NoSession db other → NoSession db' other := by
  obtain ⟨hroster, hrows⟩ := Session.endSession_rows hbody
  refine ⟨⟨h.consistent.emits (Session.endSession_spec hbody), fun session hsession => ?_⟩,
    fun session hsession => (hrows session hsession).2,
    fun other hother session hsession => hother session (hrows session hsession).1⟩
  rw [hroster]
  exact h.registered session (hrows session hsession).1

theorem Stands.recordAgent {rec : AgentRegistered} {row : Roles.AgentRecord} (h : Stands db)
    (hbody : recordAgent rec db = .ok (row, db')) :
    Stands db' ∧ db'.sessions = db.sessions := by
  obtain ⟨hsessions, hkeeps⟩ := Roles.recordAgent_keeps hbody
  refine ⟨⟨h.consistent.emits (Roles.recordAgent_spec hbody), fun session hsession => ?_⟩, hsessions⟩
  rw [hsessions] at hsession
  exact hkeeps _ (h.registered session hsession)

theorem Stands.removeAgent {agent : String} {row : Roles.AgentRecord} (h : Stands db)
    (hnone : NoSession db agent) (hbody : removeAgent agent db = .ok (row, db')) :
    Stands db' ∧ db'.sessions = db.sessions := by
  obtain ⟨hsessions, hkeeps⟩ := Roles.removeAgent_keeps hbody
  refine ⟨⟨h.consistent.emits (Roles.removeAgent_spec hbody), fun session hsession => ?_⟩, hsessions⟩
  rw [hsessions] at hsession
  rw [hkeeps _ (hnone session hsession)]
  exact h.registered session hsession

theorem Stands.call {call : StoreCall} (h : Stands db) (hsession : .session ∉ call.folders)
    (hroster : .roster ∉ call.folders) :
    Stands (call.exec db) ∧ (call.exec db).sessions = db.sessions := by
  have hsessions : (call.exec db).sessions = db.sessions :=
    StoreCall.exec_same h.consistent hsession
  have hrosterSame : (call.exec db).roster = db.roster := StoreCall.exec_same h.consistent hroster
  refine ⟨⟨StoreCall.exec_consistent h.consistent call, fun session hrow => ?_⟩, hsessions⟩
  rw [hsessions] at hrow
  rw [hrosterSame]
  exact h.registered session hrow

end

namespace SessionHost

theorem commits_cases {α : Type} (body : StoreTx α) (fault : Bool) (s : SessionHost) :
    (∃ a db', body s.db = .ok (a, db') ∧ s.commits body fault = (true, { s with db := db' })) ∨
      s.commits body fault = (false, s) := by
  unfold commits
  cases fault with
  | true => exact .inr rfl
  | false =>
    cases hbody : body s.db with
    | ok p =>
      refine .inl ⟨p.1, p.2, rfl, ?_⟩
      rw [if_neg Bool.false_ne_true, Proc.exec, transaction_eq_ok.2 hbody]
      rfl
    | error e =>
      refine .inr ?_
      rw [if_neg Bool.false_ne_true, Proc.exec, transaction, hbody]
      rfl

/-! ## The threads -/

/-- What a call of `hostSession` has made sure of. -/
def Fits (running : Option Running) (db : Db) (i : ℕ) (h : Hosting) : Prop :=
  match h.phase with
  | .unwinding _ false rosterClaimed => rosterClaimed = false
  | .rolledBack rosterClaimed =>
    running = some (.hosting i) ∧ (rosterClaimed = true → NoSession db h.agent)
  | _ => True

/-- A teardown that is past the session of an agent has ended it. -/
def Torn (running : Option Running) (db : Db) : Prop :=
  ∀ agent order phase, running = some (.deleting (agent :: order) phase) →
    phase ≠ .sandbox → phase ≠ .session → NoSession db agent

/-- Every session has its row, and a thread that is about to take a row has seen the session go. -/
structure Registers (s : SessionHost) : Prop where
  stands : Stands s.db
  hostings : ∀ i h, s.hostings[i]? = some h → Fits s.running s.db i h
  teardown : Torn s.running s.db

/-- The thread that goes on, where none or the call `i` runs. -/
def Turn (i : ℕ) (s : SessionHost) : Prop := s.running = none ∨ s.running = some (.hosting i)

variable {s t : SessionHost} {i : ℕ} {h : Hosting}

theorem registers_onLog {db : Db} (hstands : Stands db) : Registers (onLog db) where
  stands := hstands
  hostings i h hi := by rw [onLog, List.getElem?_nil] at hi; cases hi
  teardown agent order phase heq := nomatch heq

/-- A step that takes no session back and begins none leaves every thread what it knew. -/
theorem Registers.aside (hs : Registers s) (hstands : Stands t.db)
    (hsessions : t.db.sessions = s.db.sessions) (hhostings : t.hostings = s.hostings)
    (hrunning : t.running = s.running) : Registers t where
  stands := hstands
  hostings j h hj := by
    rw [hhostings] at hj
    have hfits := hs.hostings j h hj
    unfold Fits NoSession at hfits ⊢
    rwa [hrunning, hsessions]
  teardown := by
    have htorn := hs.teardown
    unfold Torn NoSession at htorn ⊢
    rwa [hrunning, hsessions]

/-- What a call that is not running has made sure of holds whatever the others do. -/
theorem Fits.elsewhere {running running' : Option Running} {db db' : Db} (hfits : Fits running db i h)
    (hturn : running ≠ some (.hosting i)) : Fits running' db' i h := by
  unfold Fits at hfits ⊢
  cases hphase : h.phase with
  | rolledBack rosterClaimed =>
    rw [hphase] at hfits
    exact absurd hfits.1 hturn
  | unwinding activeClaimed sessionClaimed rosterClaimed =>
    rw [hphase] at hfits
    cases sessionClaimed with
    | true => trivial
    | false => exact hfits
  | called | opened | sessionRecorded | contextOpened | registered | connecting | hosted | failed
  | closing | closed => trivial

theorem Turn.ne {j : ℕ} (hturn : Turn i s) (hne : i ≠ j) : s.running ≠ some (.hosting j) := by
  intro hj
  cases hturn with
  | inl hnone => rw [hnone] at hj; cases hj
  | inr hi =>
    rw [hi] at hj
    cases hj
    exact absurd rfl hne

/-- The call that has the turn moves to another phase and runs on or not. -/
theorem Registers.moved (hs : Registers s) (hturn : Turn i s) (hi : s.hostings[i]? = some h)
    (hstands : Stands t.db) (hhostings : t.hostings = s.hostings) {phase : HostingPhase}
    {running : Option Running} (hrunning : running = none ∨ running = some (.hosting i))
    (hfits : Fits running t.db i { h with phase }) :
    Registers { t.setPhase i phase with running } where
  stands := hstands
  hostings j other hj := by
    rw [setPhase, hhostings, List.getElem?_modify] at hj
    obtain ⟨old, hold, heq⟩ := Option.map_eq_some_iff.1 hj
    by_cases hij : i = j
    · subst hij
      rw [hi] at hold
      cases hold
      rw [if_pos rfl] at heq
      rwa [← heq]
    · rw [if_neg hij] at heq
      rw [← heq]
      exact (hs.hostings j old hold).elsewhere (hturn.ne hij)
  teardown agent order phase heq := by
    cases hrunning with
    | inl hnone => rw [hnone] at heq; cases heq
    | inr hsome => rw [hsome] at heq; cases heq

theorem Registers.rest (hs : Registers s) (hturn : Turn i s) (hi : s.hostings[i]? = some h)
    (hstands : Stands t.db) (hhostings : t.hostings = s.hostings) {phase : HostingPhase}
    (hfits : Fits none t.db i { h with phase }) : Registers (t.rest i phase) :=
  hs.moved hturn hi hstands hhostings (.inl rfl) hfits

theorem Registers.goOn (hs : Registers s) (hturn : Turn i s) (hi : s.hostings[i]? = some h)
    (hstands : Stands t.db) (hhostings : t.hostings = s.hostings) {phase : HostingPhase}
    (hfits : Fits (some (.hosting i)) t.db i { h with phase }) : Registers (t.goOn i phase) :=
  hs.moved hturn hi hstands hhostings (.inr rfl) hfits

/-! ## Hosting -/

theorem Registers.hostSession (hs : Registers s) (hnone : s.running = none)
    (identity : LaunchIdentity) : Registers (s.hostSession identity) := by
  unfold SessionHost.hostSession
  dsimp only
  split
  case isTrue => exact hs
  case isFalse =>
    refine ⟨hs.stands, fun i h hi => ?_, fun agent order phase heq => nomatch heq⟩
    rcases Nat.lt_or_ge i s.hostings.length with hlt | hge
    · rw [List.getElem?_append_left hlt] at hi
      exact (hs.hostings i h hi).elsewhere (by rw [hnone]; exact nofun)
    · rw [List.getElem?_append_right hge] at hi
      have hmem := List.mem_singleton.1 (List.mem_of_getElem? hi)
      rw [hmem]
      trivial

theorem Registers.unwinds (hs : Registers s) (hturn : Turn i s) (hi : s.hostings[i]? = some h)
    {activeClaimed sessionClaimed rosterClaimed : Bool} (fault : Bool)
    (hphase : h.phase = .unwinding activeClaimed sessionClaimed rosterClaimed) :
    Registers (s.unwinds i h activeClaimed sessionClaimed rosterClaimed fault) := by
  unfold SessionHost.unwinds
  dsimp only
  obtain ⟨t, ht, hdb, hhostings⟩ : ∃ t, (if activeClaimed then s.releaseActive h else s) = t ∧
      t.db = s.db ∧ t.hostings = s.hostings := by
    cases activeClaimed with
    | true => exact ⟨_, rfl, rfl, rfl⟩
    | false => exact ⟨_, rfl, rfl, rfl⟩
  have hstands : Stands t.db := hdb ▸ hs.stands
  rw [ht]
  cases sessionClaimed with
  | true =>
    rw [if_pos rfl]
    obtain ⟨row, db', hbody, heq⟩ | heq :=
      t.commits_cases (endSession h.agent h.identity.pane) fault
    · rw [heq]
      obtain ⟨hstands', hended, -⟩ := hstands.endSession hbody
      exact hs.goOn (t := { t with db := db' }) hturn hi hstands' hhostings ⟨rfl, fun _ => hended⟩
    · rw [heq]
      exact hs.rest hturn hi hstands hhostings trivial
  | false =>
    rw [if_neg Bool.false_ne_true]
    have hfits := hs.hostings i h hi
    unfold Fits at hfits
    rw [hphase] at hfits
    refine hs.goOn hturn hi hstands hhostings ⟨rfl, fun hclaimed => ?_⟩
    rw [hfits] at hclaimed
    cases hclaimed

/-- A session is only recorded for an agent that the roster holds. -/
def Guard (op : HostOp) (s : SessionHost) : Prop :=
  match op with
  | .resumes i false => ∀ h ∈ s.hostings[i]?, h.phase = .opened →
      (selectAgent s.db.roster h.agent).isSome = true
  | _ => True

instance (op : HostOp) (s : SessionHost) : Decidable (Guard op s) := by
  unfold Guard
  split <;> infer_instance

theorem Registers.resumes (hs : Registers s) (hturn : Turn i s) (hi : s.hostings[i]? = some h)
    {fault : Bool} (hguard : fault = false → h.phase = .opened →
      (selectAgent s.db.roster h.agent).isSome = true) : Registers (s.resumes i h fault) := by
  unfold SessionHost.resumes
  cases hphase : h.phase with
  | called =>
    dsimp only
    split
    case isTrue => exact hs.rest hturn hi hs.stands rfl rfl
    case isFalse => exact hs.goOn (t := s.claimActive h) hturn hi hs.stands rfl trivial
  | opened =>
    dsimp only
    obtain ⟨row, db', hbody, heq⟩ | heq := s.commits_cases (recordSession h.sessionCreated) fault
    · rw [heq]
      have hfault : fault = false := by
        cases fault with
        | false => rfl
        | true => cases heq
      have hstands := hs.stands.recordSession (hguard hfault hphase) hbody
      exact hs.goOn (t := { s with db := db' }) hturn hi hstands rfl trivial
    · rw [heq]
      exact hs.rest hturn hi hs.stands rfl rfl
  | sessionRecorded =>
    dsimp only
    split
    case isTrue => exact hs.rest hturn hi hs.stands rfl trivial
    case isFalse => exact hs.goOn hturn hi hs.stands rfl trivial
  | contextOpened =>
    dsimp only
    obtain ⟨row, db', hbody, heq⟩ | heq := s.commits_cases (recordAgent h.agentRegistered) fault
    · rw [heq]
      exact hs.goOn (t := { s with db := db' }) hturn hi (hs.stands.recordAgent hbody).1 rfl trivial
    · rw [heq]
      exact hs.rest hturn hi hs.stands rfl trivial
  | registered rosterClaimed =>
    dsimp only
    split
    case isTrue => exact hs.rest hturn hi hs.stands rfl trivial
    case isFalse => exact hs.rest hturn hi hs.stands rfl trivial
  | connecting rosterClaimed =>
    dsimp only
    split
    case isTrue => exact hs.rest hturn hi hs.stands rfl trivial
    case isFalse => exact hs.rest hturn hi hs.stands rfl trivial
  | unwinding activeClaimed sessionClaimed rosterClaimed =>
    exact hs.unwinds hturn hi fault hphase
  | rolledBack rosterClaimed =>
    dsimp only
    have hfits := hs.hostings i h hi
    unfold Fits at hfits
    rw [hphase] at hfits
    split
    case isTrue hclaimed =>
      obtain ⟨row, db', hbody, heq⟩ | heq := s.commits_cases (removeAgent h.agent) fault
      · rw [heq]
        have hstands := (hs.stands.removeAgent (hfits.2 hclaimed) hbody).1
        exact hs.rest (t := { s with db := db' }) hturn hi hstands rfl trivial
      · rw [heq]
        exact hs.rest hturn hi hs.stands rfl trivial
    case isFalse => exact hs.rest hturn hi hs.stands rfl trivial
  | closing rosterClaimed =>
    dsimp only
    obtain ⟨row, db', hbody, heq⟩ | heq :=
      s.commits_cases (endSession h.agent h.identity.pane) fault
    · rw [heq]
      have hstands := (hs.stands.endSession hbody).1
      exact hs.rest (t := ({ s with db := db' } : SessionHost).releaseActive h) hturn hi hstands
        rfl trivial
    · rw [heq]
      exact hs.rest (t := s.releaseActive h) hturn hi hs.stands rfl trivial
  | hosted | failed | closed => exact hs

theorem Registers.close (hs : Registers s) (hnone : s.running = none) (i : ℕ) :
    Registers (s.close i) := by
  unfold SessionHost.close
  split
  case h_1 rosterClaimed hphase =>
    obtain ⟨h, hi, -⟩ := Option.map_eq_some_iff.1 hphase
    exact hs.rest (.inl hnone) hi hs.stands rfl trivial
  case h_2 => exact hs

theorem Registers.removeUnlessActive (hs : Registers s) (agent : String) :
    Registers (s.removeUnlessActive agent) := by
  unfold SessionHost.removeUnlessActive
  split
  case h_1 row hsession hrow =>
    obtain ⟨row, db', hbody, heq⟩ | heq := s.commits_cases (removeAgent agent) false
    · rw [heq]
      obtain ⟨hstands, hsessions⟩ :=
        hs.stands.removeAgent (noSession_of_selectSession hsession) hbody
      exact hs.aside (t := { s with db := db' }) hstands hsessions rfl rfl
    · rw [heq]
      exact hs
  case h_2 => exact hs

theorem Registers.rollbackRegistration (hs : Registers s) (i : ℕ) :
    Registers (s.rollbackRegistration i) := by
  unfold SessionHost.rollbackRegistration
  split
  case h_1 => exact hs
  case h_2 h hi =>
    split
    case h_1 | h_2 | h_3 => exact hs.removeUnlessActive h.agent
    case h_4 => exact hs

/-! ## Teardown -/

/-- A teardown goes on; no call of `hostSession` is about to take a row. -/
theorem Registers.tearing (hs : Registers s) (hturn : ∀ i, s.running ≠ some (.hosting i))
    (hstands : Stands t.db) (hhostings : t.hostings = s.hostings) {running : Option Running}
    (htorn : Torn running t.db) : Registers { t with running } where
  stands := hstands
  hostings i h hi := by
    rw [hhostings] at hi
    exact (hs.hostings i h hi).elsewhere (hturn i)
  teardown := htorn

theorem torn_sandbox {order : List String} {db : Db} :
    Torn (some (.deleting order .sandbox)) db := by
  intro agent order phase heq hsandbox
  cases heq
  exact absurd rfl hsandbox

theorem Registers.nextAgent (hs : Registers s) (hturn : ∀ i, s.running ≠ some (.hosting i))
    (hstands : Stands t.db) (hhostings : t.hostings = s.hostings) (order : List String) :
    Registers (t.nextAgent order) := by
  unfold SessionHost.nextAgent
  split
  case h_1 | h_2 =>
    exact hs.tearing hturn hstands hhostings fun agent order phase heq => nomatch heq
  case h_3 => exact hs.tearing hturn hstands hhostings torn_sandbox

theorem Registers.deleteAgentSubtree (hs : Registers s) (hnone : s.running = none) (js : Js.Runtime)
    (rootId : String) : Registers (s.deleteAgentSubtree js rootId) := by
  have hturn : ∀ i, s.running ≠ some (.hosting i) := fun i => by rw [hnone]; exact nofun
  unfold SessionHost.deleteAgentSubtree
  split
  case h_1 => exact hs
  case h_2 =>
    split
    case isTrue => exact hs.tearing hturn hs.stands rfl torn_sandbox
    case isFalse => exact hs

theorem torn_of_noSession {agent : String} {order : List String} {phase : TeardownPhase} {db : Db}
    (h : NoSession db agent) : Torn (some (.deleting (agent :: order) phase)) db := by
  intro agent order phase heq _ _
  cases heq
  exact h

theorem Registers.tears (hs : Registers s) {order : List String} {phase : TeardownPhase}
    (hrunning : s.running = some (.deleting order phase)) (fault : Bool) :
    Registers (s.tears order phase fault) := by
  have hturn : ∀ i, s.running ≠ some (.hosting i) := fun i => by rw [hrunning]; exact nofun
  unfold SessionHost.tears
  cases order with
  | nil => exact hs.tearing hturn hs.stands rfl fun agent order phase heq => nomatch heq
  | cons agentId rest =>
    cases phase with
    | sandbox =>
      dsimp only
      split
      case isTrue => exact hs.nextAgent hturn hs.stands rfl _
      case isFalse =>
        refine hs.tearing hturn hs.stands rfl fun agent order phase heq _ hsession => ?_
        cases heq
        exact absurd rfl hsession
    | session =>
      dsimp only
      split
      case h_1 hsession =>
        split
        case isTrue => exact hs.nextAgent hturn hs.stands rfl _
        case isFalse =>
          exact hs.tearing hturn hs.stands rfl
            (torn_of_noSession (noSession_of_selectSession hsession))
      case h_2 session hsession =>
        obtain ⟨row, db', hbody, heq⟩ | heq := s.commits_cases (endSession agentId session.pane) fault
        · rw [heq]
          obtain ⟨hstands, hended, -⟩ := hs.stands.endSession hbody
          exact hs.tearing (t := { s with db := db' }) hturn hstands rfl (torn_of_noSession hended)
        · rw [heq]
          exact hs.nextAgent hturn hs.stands rfl _
    | mail =>
      have hended := hs.teardown agentId rest .mail hrunning nofun nofun
      dsimp only
      split
      case isTrue => exact hs.nextAgent hturn hs.stands rfl _
      case isFalse => exact hs.tearing hturn hs.stands rfl (torn_of_noSession hended)
    | slots =>
      have hended := hs.teardown agentId rest .slots hrunning nofun nofun
      dsimp only
      split
      case isTrue => exact hs.nextAgent hturn hs.stands rfl _
      case isFalse => exact hs.tearing hturn hs.stands rfl (torn_of_noSession hended)
    | roster =>
      have hended := hs.teardown agentId rest .roster hrunning nofun nofun
      dsimp only
      obtain ⟨row, db', hbody, heq⟩ | heq := s.commits_cases (removeAgent agentId) fault
      · rw [heq]
        have hstands := (hs.stands.removeAgent hended hbody).1
        exact hs.nextAgent (t := { s with db := db' }) hturn hstands rfl _
      · rw [heq]
        exact hs.nextAgent hturn hs.stands rfl _

/-! ## Runs -/

theorem Registers.step (js : Js.Runtime) (op : HostOp) (hguard : Guard op s) (hs : Registers s) :
    Registers (s.step js op) := by
  unfold SessionHost.step
  cases op with
  | crash => exact registers_onLog hs.stands
  | calls call =>
    dsimp only
    split
    case isTrue => exact hs
    case isFalse hother =>
      obtain ⟨hsession, hroster⟩ := not_or.1 hother
      obtain ⟨hstands, hsessions⟩ := hs.stands.call hsession hroster
      exact hs.aside (t := { s with db := call.exec s.db }) hstands hsessions rfl rfl
  | resumes i fault =>
    dsimp only
    split
    case h_1 => exact hs
    case h_2 h hi =>
      split
      case isTrue hturn =>
        refine hs.resumes hturn hi fun hfault hphase => ?_
        subst hfault
        exact hguard h hi hphase
      case isFalse => exact hs
  | tears fault =>
    dsimp only
    split
    case h_1 order phase hrunning => exact hs.tears hrunning fault
    case h_2 => exact hs
  | hostSession identity =>
    dsimp only
    split
    case isTrue hnone => exact hs.hostSession hnone identity
    case isFalse => exact hs
  | close i =>
    dsimp only
    split
    case isTrue hnone => exact hs.close hnone i
    case isFalse => exact hs
  | rollbackRegistration i =>
    dsimp only
    split
    case isTrue => exact hs.rollbackRegistration i
    case isFalse => exact hs
  | gateReleases agent =>
    dsimp only
    split
    case isTrue => exact hs.removeUnlessActive agent
    case isFalse => exact hs
  | deleteAgentSubtree rootId =>
    dsimp only
    split
    case isTrue hnone => exact hs.deleteAgentSubtree hnone js rootId
    case isFalse => exact hs
  | recordAgent rec =>
    dsimp only
    split
    case isTrue =>
      obtain ⟨row, db', hbody, heq⟩ | heq := s.commits_cases (Roles.recordAgent rec) false
      · rw [heq]
        obtain ⟨hstands, hsessions⟩ := hs.stands.recordAgent hbody
        exact hs.aside (t := { s with db := db' }) hstands hsessions rfl rfl
      · rw [heq]
        exact hs
    case isFalse => exact hs

/-- A project whose log is empty. -/
def empty (clock : ℕ → ℕ) : SessionHost := onLog { Db.atRest with clock }

theorem sessions_stay_registered (js : Js.Runtime) (clock : ℕ → ℕ) (ops : List HostOp)
    (h : Run.Guarded (step js) Guard ops (empty clock)) :
    Drivable (Run.after (step js) ops (empty clock)).db := by
  have hempty : Stands (empty clock).db :=
    ⟨Consistent.empty clock, fun session hsession => absurd hsession List.not_mem_nil⟩
  have hinv := Run.invariant Registers (fun op s => Registers.step js op) h
    (registers_onLog hempty)
  exact drivable_of_registered hinv.stands.registered

/-- A worker under the root `c`. -/
def workerLaunch : LaunchIdentity where
  agent := "w"
  role := .implementer
  subRole := none
  parent := "c"
  pane := "pane-w"
  cwd := "/w/w"
  provider := .claude
  resume := .claude "w"

def rootAgent : AgentRegistered where
  agentId := "c"
  role := .coordinator
  parent := "@operator"

/-- The worker is hosted up to its session row, and then the process is killed. -/
def killedHosting : List HostOp :=
  [.recordAgent rootAgent, .hostSession workerLaunch, .resumes 0 false, .resumes 0 false, .crash]

/-- The worker is registered before it is hosted, and its hosting fails at the connection. -/
def failedHosting : List HostOp :=
  [.recordAgent rootAgent, .recordAgent { agentId := "w", role := .implementer, parent := "c" },
    .hostSession workerLaunch] ++ List.replicate 5 (.resumes 0 false) ++
  [.resumes 0 true, .resumes 0 false, .crash]

theorem sessions_stay_registered_once :
    Drivable (Run.after (step Dispatch.plainRuntime) failedHosting (empty fun _ => 0)).db :=
  sessions_stay_registered Dispatch.plainRuntime (fun _ => 0) failedHosting (by decide +kernel)

theorem sessions_not_always_registered :
    ¬ ∀ (js : Js.Runtime) (clock : ℕ → ℕ) (ops : List HostOp),
      Drivable (Run.after (step js) ops (empty clock)).db := by
  intro h
  have hregistered := (h Dispatch.plainRuntime (fun _ => 0) killedHosting).registered
  revert hregistered
  unfold SessionsRegistered
  decide +kernel

end SessionHost

end Orchestration.Conductor
