import Orchestration.Library.Run

/-!
# The daemon supervisor

The supervisor spawns the daemon of a project, waits until its socket is
healthy, starts it again when it goes away and stops it. Every call and every
restart loop is a thread that runs from one await to the next; a generation
number tells the threads of the present episode from those of earlier ones.
-/

namespace Orchestration.Desktop

abbrev ProjectId := String

/-- The daemon's lifecycle as the operator sees it. -/
inductive DaemonStatus where
  | starting
  | healthy
  | restarting
  | failed
  | stopped
deriving DecidableEq, Repr

structure DaemonSupervisorOptions where
  maxRetries : ℕ := 5
  healthTimeoutMs : ℕ := 10000
  healthIntervalMs : ℕ := 250

/-- Whether there is an `i`-th poll among the `max 1 ⌈timeout / interval⌉`. -/
def DaemonSupervisorOptions.polls (options : DaemonSupervisorOptions) (i : ℕ) : Bool :=
  if options.healthIntervalMs = 0 then decide (0 < options.healthTimeoutMs)
  else i < max 1 ((options.healthTimeoutMs + options.healthIntervalMs - 1) / options.healthIntervalMs)

/-- A spawned child: what became of the process, and what the supervisor heard of it. -/
structure Child where
  projectId : ProjectId
  /-- The generation that its listeners go by. -/
  generation : ℕ
  /-- The process has ended, or never came up. -/
  gone : Bool
  exitEmitted : Bool
  /-- The child is in `exitedChildren`. -/
  heard : Bool
  /-- The process was sent SIGKILL. -/
  killed : Bool
deriving DecidableEq, Repr

/-- Where `terminateChild` is: in the grace after SIGTERM, in the one after SIGKILL, or at its end. -/
inductive Phase where
  | grace
  | killed
  | returned
deriving DecidableEq, Repr

/-- Where `waitForHealth` is. -/
inductive Wait where
  | probing (i : ℕ)
  | delaying (i : ℕ)
  | returned (healthy : Bool)
deriving DecidableEq, Repr

/-- Who waits for a child's health: a start, or a restart loop with its reason. -/
inductive Owner where
  | start
  | loop (detail : String)
deriving DecidableEq, Repr

/-- Where a thread waits. -/
inductive Thread where
  /-- `startAfterTeardown`, in `terminateChild` of the old child. -/
  | tearing (generation : ℕ) (projectId : ProjectId) (old : ℕ) (phase : Phase)
  /-- `waitForHealth` of a child just spawned. -/
  | waiting (owner : Owner) (generation : ℕ) (child : ℕ) (wait : Wait)
  /-- `terminateChild` of a child that did not become healthy. -/
  | discarding (owner : Owner) (generation : ℕ) (child : ℕ) (phase : Phase)
  /-- The restart loop, before it spawns. -/
  | backoff (generation : ℕ) (detail : String)
  /-- A start whose promise has settled, before its `finally`. -/
  | settled (result : Except String DaemonStatus)
  /-- `stop` of its own or of a restart, in `terminateChild`. -/
  | stopping (child : ℕ) (phase : Phase) (restart : Option ProjectId)
  /-- `stop` after it has set the status. -/
  | stopped (restart : Option ProjectId)
  | done

structure DaemonSupervisor where
  status : DaemonStatus
  detail : Option String
  child : Option ℕ
  projectId : Option ProjectId
  socketPath : String
  stopping : Bool
  retries : ℕ
  generation : ℕ
  starting : Option ℕ
  lastEmittedStatus : DaemonStatus
  lastEmittedDetail : Option String
  /-- The children spawned so far. -/
  children : List Child
  threads : List Thread
  /-- What the status sink was told. -/
  emitted : List DaemonStatus

/-- What the seams answer: the socket path, the spawn, and the probe that a thread waits for. -/
structure SeamAnswer where
  socketPath : Except String String
  spawn : Except String Unit
  probe : Except String Bool

namespace DaemonSupervisor

/-- Nothing has been started. -/
def initial : DaemonSupervisor where
  status := .stopped
  detail := none
  child := none
  projectId := none
  socketPath := ""
  stopping := false
  retries := 0
  generation := 0
  starting := none
  lastEmittedStatus := .stopped
  lastEmittedDetail := none
  children := []
  threads := []
  emitted := []

variable (options : DaemonSupervisorOptions) (s : DaemonSupervisor)

def setThread (t : ℕ) (thread : Thread) : DaemonSupervisor :=
  { s with threads := s.threads.set t thread }

def modifyChild (i : ℕ) (f : Child → Child) : DaemonSupervisor :=
  { s with children := s.children.modify i f }

def setStatus (status : DaemonStatus) : DaemonSupervisor :=
  let visibleStateChanged := s.lastEmittedStatus ≠ status ∨ s.lastEmittedDetail ≠ s.detail
  { s with
    status
    lastEmittedStatus := status
    lastEmittedDetail := s.detail
    emitted := if visibleStateChanged then s.emitted ++ [status] else s.emitted }

/-! ## Ending a child -/

/-- A child that was heard to be gone needs no signal. -/
def terminateChild (i : ℕ) : Phase :=
  if (s.children[i]?).any (·.heard) then .returned else .grace

/-- The exit was heard of, or the delay is over. -/
def terminateNext (i : ℕ) (phase : Phase) : DaemonSupervisor × Phase :=
  let exited := (s.children[i]?).any (·.exitEmitted)
  let sigkill := s.modifyChild i fun child => { child with killed := true }
  match phase with
  | .grace => if exited then (s, .returned) else (sigkill, .killed)
  | .killed => if exited then (s, .returned) else (sigkill, .returned)
  | .returned => (s, .returned)

/-! ## Starting -/

/-- The thread's episode is not the present one, or is being stopped. -/
def superseded (generation : ℕ) : Bool := generation ≠ s.generation || s.stopping

def spawnChild (generation : ℕ) (answer : SeamAnswer) : Except String (DaemonSupervisor × ℕ) :=
  match s.projectId with
  | none => .error "DaemonSupervisor.spawnChild: no projectId — start(projectId) must run first."
  | some projectId =>
    match answer.spawn with
    | .error e => .error e
    | .ok () =>
      let child : Child := {
        projectId, generation, gone := false, exitEmitted := false, heard := false, killed := false }
      .ok ({ s with children := s.children ++ [child], child := some s.children.length },
        s.children.length)

/-- `waitForHealth` from its `i`-th poll on. -/
def waitFrom (child generation i : ℕ) : Wait :=
  if s.superseded generation then .returned false
  else if s.child ≠ some child then .returned false
  else if options.polls i then .probing i
  else .returned false

/-- `waitForHealth` once the awaited probe or delay is over. -/
def waitNext (child generation : ℕ) (wait : Wait) (answer : SeamAnswer) : Wait :=
  match wait with
  | .probing i =>
    let ok := match answer.probe with
      | .ok ok => ok
      | .error _ => false
    if s.superseded generation then .returned false
    else if ok then .returned true
    else if options.polls (i + 1) then .delaying i
    else .returned false
  | .delaying i => s.waitFrom options child generation (i + 1)
  | .returned healthy => .returned healthy

/-- Spawn a child for its owner, and wait for its health. -/
def spawnAndWait (t : ℕ) (owner : Owner) (generation : ℕ) (answer : SeamAnswer)
    (thrown : String → Thread) : DaemonSupervisor :=
  match s.spawnChild generation answer with
  | .error e => s.setThread t (thrown e)
  | .ok (s, child) =>
    s.setThread t (.waiting owner generation child (s.waitFrom options child generation 0))

def doStart (t generation : ℕ) (answer : SeamAnswer) : DaemonSupervisor :=
  ({ s with detail := none }.setStatus .starting).spawnAndWait options t .start generation answer
    fun e => .settled (.error e)

/-- `startAfterTeardown` once the old child is gone. -/
def afterTeardown (t generation : ℕ) (projectId : ProjectId) (answer : SeamAnswer) :
    DaemonSupervisor :=
  let s := { s with stopping := false, projectId := some projectId }
  match answer.socketPath with
  | .error e => s.setThread t (.settled (.error e))
  | .ok socketPath =>
    { s with socketPath, retries := 0, detail := none }.doStart options t generation answer

def startAfterTeardown (t generation : ℕ) (projectId : ProjectId) (answer : SeamAnswer) :
    DaemonSupervisor :=
  match s.child with
  | none => s.afterTeardown options t generation projectId answer
  | some old =>
    { s with child := none }.setThread t
      (.tearing generation projectId old (s.terminateChild old))

/-- A start that does not join one in flight and does not find its daemon healthy. -/
def Begins (projectId : ProjectId) : Prop :=
  s.starting = none ∧ ¬ (s.status = .healthy ∧ s.projectId = some projectId ∧ s.child ≠ none)

instance (projectId : ProjectId) : Decidable (s.Begins projectId) :=
  inferInstanceAs (Decidable (_ ∧ _))

def start (projectId : ProjectId) (answer : SeamAnswer) : DaemonSupervisor :=
  if s.Begins projectId then
    let t := s.threads.length
    let generation := s.generation + 1
    let s := { s with generation, threads := s.threads ++ [Thread.done] }
    { s.startAfterTeardown options t generation projectId answer with starting := some t }
  else s

/-! ## Stopping -/

/-- `stop` once the child is gone. -/
def markStopped (t : ℕ) (restart : Option ProjectId) : DaemonSupervisor :=
  ({ s with detail := none }.setStatus .stopped).setThread t (.stopped restart)

/-- `stop`, of its own or as the first half of a restart. -/
def stop (restart : Option ProjectId) : DaemonSupervisor :=
  let t := s.threads.length
  let stopped := { s with
    stopping := true
    generation := s.generation + 1
    starting := none
    child := none
    threads := s.threads ++ [Thread.done] }
  match s.child with
  | none => stopped.markStopped t restart
  | some child => stopped.setThread t (.stopping child (s.terminateChild child) restart)

/-! ## The restart loop -/

/-- One round of the restart loop, up to the backoff. -/
def restartLoop (t generation : ℕ) (detail : String) : DaemonSupervisor :=
  if s.superseded generation then s.setThread t .done
  else if options.maxRetries ≤ s.retries then
    ({ s with detail := some s!"{detail} Exhausted {options.maxRetries} restart attempts." }.setStatus
      .failed).setThread t .done
  else
    ({ s with
      retries := s.retries + 1
      detail := some s!"{detail} Restart attempt {s.retries + 1}/{options.maxRetries}." }.setStatus
      .restarting).setThread t (.backoff generation detail)

/-- The first that is heard of a child's end. -/
def onChildGone (i generation : ℕ) (detail : String) : DaemonSupervisor :=
  let s := s.modifyChild i fun child => { child with heard := true }
  if s.superseded generation then s
  else if s.child ≠ some i then s
  else
    let s := { s with child := none, detail := some detail }
    if s.status ≠ .healthy then s
    else { s with threads := s.threads ++ [Thread.done] }.restartLoop options s.threads.length generation
      detail

/-! ## Resuming -/

/-- The promise of a start settles; a restart loop just ends. -/
def endThread (t : ℕ) (owner : Owner) (status : DaemonStatus) : DaemonSupervisor :=
  match owner with
  | .start => s.setThread t (.settled (.ok status))
  | .loop _ => s.setThread t .done

/-- What follows the wait for a child's health. -/
def afterWait (t : ℕ) (owner : Owner) (generation child : ℕ) (healthy : Bool) : DaemonSupervisor :=
  if s.superseded generation then s.endThread t owner s.status
  else if healthy then
    ({ s with retries := 0, detail := none }.setStatus .healthy).endThread t owner .healthy
  else
    { s with child := if s.child = some child then none else s.child }.setThread t
      (.discarding owner generation child (s.terminateChild child))

/-- What follows the end of a child that did not become healthy. -/
def afterDiscard (t : ℕ) (owner : Owner) (generation : ℕ) : DaemonSupervisor :=
  if s.superseded generation then s.endThread t owner s.status
  else
    match owner with
    | .loop detail => s.restartLoop options t generation detail
    | .start =>
      ({ s with detail := some (s.detail.getD
        s!"Conductor daemon did not become healthy within {options.healthTimeoutMs}ms.") }.setStatus
        .failed).endThread t .start .failed

/-- What a thread waits for is over. -/
def resume (t : ℕ) (answer : SeamAnswer) : DaemonSupervisor :=
  match s.threads[t]? with
  | none => s
  | some .done => s
  | some (.tearing generation projectId old phase) =>
    if phase = .returned then
      if generation ≠ s.generation then s.setThread t (.settled (.ok s.status))
      else s.afterTeardown options t generation projectId answer
    else
      let (s, phase) := s.terminateNext old phase
      s.setThread t (.tearing generation projectId old phase)
  | some (.waiting owner generation child wait) =>
    match wait with
    | .returned healthy => s.afterWait t owner generation child healthy
    | wait =>
      s.setThread t
        (.waiting owner generation child (s.waitNext options child generation wait answer))
  | some (.discarding owner generation child phase) =>
    if phase = .returned then s.afterDiscard options t owner generation
    else
      let (s, phase) := s.terminateNext child phase
      s.setThread t (.discarding owner generation child phase)
  | some (.backoff generation detail) =>
    if s.superseded generation then s.setThread t .done
    else s.spawnAndWait options t (.loop detail) generation answer fun _ => .done
  | some (.settled _) =>
    { s with starting := if s.starting = some t then none else s.starting }.setThread t .done
  | some (.stopping child phase restart) =>
    if phase = .returned then s.markStopped t restart
    else
      let (s, phase) := s.terminateNext child phase
      s.setThread t (.stopping child phase restart)
  | some (.stopped none) => s.setThread t .done
  | some (.stopped (some projectId)) => (s.setThread t .done).start options projectId answer

/-! ## What the child does -/

/-- `String(value)` of a code or a signal that may be missing. -/
def orNull {α : Type} [ToString α] : Option α → String
  | none => "null"
  | some a => toString a

/-- A child exits, once. -/
def childExits (i : ℕ) (code : Option ℕ) (signal : Option String) : DaemonSupervisor :=
  match s.children[i]? with
  | none => s
  | some child =>
    if child.exitEmitted then s
    else
      let s := s.modifyChild i fun child => { child with gone := true, exitEmitted := true }
      if child.heard then s
      else s.onChildGone options i child.generation
        s!"Conductor daemon exited (code={orNull code} signal={orNull signal})."

/-- A child emits an error: it never came up, or else it may live on. -/
def childErrs (i : ℕ) (message : String) (gone : Bool) : DaemonSupervisor :=
  match s.children[i]? with
  | none => s
  | some child =>
    let s := s.modifyChild i fun child => { child with gone := child.gone || gone }
    if child.heard then s
    else s.onChildGone options i child.generation s!"Conductor daemon failed to spawn: {message}"

end DaemonSupervisor

/-! ## Steps -/

/-- What happens next: a call, something of the child, or what a thread waits for is over. -/
inductive SupervisorEvent where
  | start (projectId : ProjectId) (answer : SeamAnswer)
  | stop
  | restart (projectId : ProjectId)
  | exit (i : ℕ) (code : Option ℕ) (signal : Option String)
  | error (i : ℕ) (message : String) (gone : Bool)
  | resume (t : ℕ) (answer : SeamAnswer)

/-- One step, up to the next await. -/
def DaemonSupervisor.step (options : DaemonSupervisorOptions) :
    SupervisorEvent → DaemonSupervisor → DaemonSupervisor
  | .start projectId answer, s => s.start options projectId answer
  | .stop, s => s.stop none
  | .restart projectId, s => s.stop (some projectId)
  | .exit i code signal, s => s.childExits options i code signal
  | .error i message gone, s => s.childErrs options i message gone
  | .resume t answer, s => s.resume options t answer

end Orchestration.Desktop
