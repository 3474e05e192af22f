import Orchestration.Desktop.DaemonSupervisor

/-!
# The project controller

The controller tears the open project down, builds a supervisor and a shell for
the next one and starts them. Opens, reopens and the shutdown take turns in one
tail; a retry and the daemon stop before a quit do not wait. A step of the
controller is what it does between two awaits, and the steps come in any order
that the promises allow.
-/

namespace Orchestration.Desktop

structure DaemonStatusPayload where
  status : DaemonStatus
  detail : Option String
deriving DecidableEq, Repr

/-- The project that the window shows. -/
structure CurrentProject where
  projectId : ProjectId
  path : Option String
deriving DecidableEq, Repr

/-- A supervisor as the controller drives it. -/
structure Supervisor where
  /-- The project it was last started for. -/
  projectId : Option ProjectId
  /-- It was started, and `stop` has not been called since. -/
  running : Bool
deriving DecidableEq, Repr

/-- A shell, bound to its project from the beginning. -/
structure Shell where
  projectId : ProjectId
  closed : Bool
deriving DecidableEq, Repr

/-- A call that waits for its turn in the tail. A path that was not passed is looked up. -/
inductive Job where
  | openProject (projectId : ProjectId) (path : Option (Option String))
  | reopenCurrentProject
  | shutdown
deriving DecidableEq, Repr

/-- What a teardown is followed by. -/
inductive Next where
  | bind (projectId : ProjectId) (path : Option (Option String))
  | rethrow (error : String)
  | finish
deriving DecidableEq, Repr

/-- Where the call whose turn it is waits. -/
inductive Active where
  | stopping (activeShell : Option ℕ) (next : Next)
  | closing (next : Next)
  | tornDown (next : Next)
  | starting (supervisor shell : ℕ)
  | startingShell (supervisor shell : ℕ)
deriving DecidableEq, Repr

/-- Where a retry waits: for the supervisor that it started, or for the shell's connection. -/
inductive Retry where
  | starting (supervisor : ℕ)
  | refreshing
deriving DecidableEq, Repr

/-- What a retry returns. -/
structure RetryReply where
  ok : Bool
  error : Option String
deriving DecidableEq, Repr

structure Controller where
  shell : Option ℕ
  supervisor : Option ℕ
  currentProjectId : Option ProjectId
  currentPath : Option String
  latestDaemonStatus : Option DaemonStatusPayload
  currentProject : Option CurrentProject
  shellStarted : Bool
  /-- The calls that wait in `openTail`, the next one first. -/
  openTail : List Job
  active : Option Active
  retries : List Retry
  /-- The supervisors and the shells created so far. -/
  supervisors : List Supervisor
  shells : List Shell
  /-- The shells whose connection was told to reconnect. -/
  refreshed : List ℕ
  /-- How the calls of the tail settled, and what the retries returned. -/
  settled : List (Except String Unit)
  replies : List RetryReply

namespace Controller

/-- Nothing is open yet. -/
def initial : Controller where
  shell := none
  supervisor := none
  currentProjectId := none
  currentPath := none
  latestDaemonStatus := none
  currentProject := none
  shellStarted := false
  openTail := []
  active := none
  retries := []
  supervisors := []
  shells := []
  refreshed := []
  settled := []
  replies := []

variable (c : Controller)

/-! ## What is shown -/

def pushCurrentProject : Controller :=
  { c with currentProject := c.currentProjectId.map fun projectId => ⟨projectId, c.currentPath⟩ }

def pushNoProjectState : Controller :=
  { c with
    currentProjectId := none
    currentPath := none
    latestDaemonStatus := some { status := .stopped, detail := none } }.pushCurrentProject

/-- Tell the live shell, if there is one, to reconnect. -/
def refresh : Controller := { c with refreshed := c.refreshed ++ c.shell.toList }

/-- `detail` is what the live supervisor gives for its reason. -/
def handleDaemonStatus (status : DaemonStatus) (detail : Option String) : Controller :=
  let c := { c with latestDaemonStatus := some {
    status
    detail := if c.supervisor = none then none else detail } }
  if status = .healthy ∧ c.shellStarted then c.refresh else c

/-! ## The teardown -/

/-- Call `stop` of a supervisor. -/
def stopSupervisor (i : ℕ) : Controller :=
  { c with supervisors := c.supervisors.modify i fun s => { s with running := false } }

/-- Call `start` of a supervisor. -/
def startSupervisor (i : ℕ) (projectId : ProjectId) : Controller :=
  { c with supervisors := c.supervisors.modify i fun _ => ⟨some projectId, true⟩ }

/-- Call `close` of the shell that was live, if there was one. -/
def closeShell (activeShell : Option ℕ) (next : Next) : Controller :=
  match activeShell with
  | none => { c with active := some (.tornDown next) }
  | some i =>
    { c with
      active := some (.closing next)
      shells := c.shells.modify i fun shell => { shell with closed := true } }

/-- Stop the supervisor first, then close the shell. -/
def teardownActive (next : Next) : Controller :=
  let torn := { c with shellStarted := false, supervisor := none, shell := none }
  match c.supervisor with
  | none => torn.closeShell c.shell next
  | some i => { torn.stopSupervisor i with active := some (.stopping c.shell next) }

/-! ## Opening a project -/

/-- What the world answers in one step of a call: how the awaited promise settled, what the registry
has for a path, and whether the factories throw. -/
structure Answer where
  awaited : Except String Unit
  registryPath : Option String
  createSupervisor : Except String Unit
  createShell : Except String Unit

/-- Build the supervisor and the shell, and start the daemon. -/
def build (projectId : ProjectId) (answer : Answer) : Controller :=
  match answer.createSupervisor with
  | .error e => c.teardownActive (.rethrow e)
  | .ok () =>
    let supervisor := c.supervisors.length
    let c := { c with
      supervisors := c.supervisors ++ [(⟨none, false⟩ : Supervisor)]
      supervisor := some supervisor }
    match answer.createShell with
    | .error e => c.teardownActive (.rethrow e)
    | .ok () =>
      let shell := c.shells.length
      { c.startSupervisor supervisor projectId with
        shells := c.shells ++ [(⟨projectId, false⟩ : Shell)]
        shell := some shell
        active := some (.starting supervisor shell) }

/-- Bind the new project and show it, then build it. -/
def bind (projectId : ProjectId) (path : Option (Option String)) (answer : Answer) : Controller :=
  let c := { c with
    currentProjectId := some projectId
    currentPath := path.getD answer.registryPath }
  c.pushCurrentProject.build projectId answer

/-- The call whose turn it is settles. -/
def settle (result : Except String Unit) : Controller :=
  { c with active := none, settled := c.settled ++ [result] }

/-- What the call does once its teardown is done. -/
def afterTeardown (next : Next) (answer : Answer) : Controller :=
  match next with
  | .bind projectId path => c.bind projectId path answer
  | .rethrow e => c.pushNoProjectState.settle (.error e)
  | .finish => c.settle (.ok ())

/-- The promise that the call waits for settles. A teardown goes on when a stop or a close throws. -/
def resume (answer : Answer) : Controller :=
  match c.active with
  | none => c
  | some (.stopping activeShell next) => c.closeShell activeShell next
  | some (.closing next) => { c with active := some (.tornDown next) }
  | some (.tornDown next) => c.afterTeardown next answer
  | some (.starting supervisor shell) =>
    match answer.awaited with
    | .ok () => { c with active := some (.startingShell supervisor shell) }
    | .error e => c.teardownActive (.rethrow e)
  | some (.startingShell _ _) =>
    match answer.awaited with
    | .ok () => { c with shellStarted := true }.settle (.ok ())
    | .error e => c.teardownActive (.rethrow e)

/-! ## The tail -/

/-- A call takes its turn. -/
def run (job : Job) : Controller :=
  match job with
  | .openProject projectId path => c.teardownActive (.bind projectId path)
  | .reopenCurrentProject =>
    match c.currentProjectId with
    | none => c.settle (.ok ())
    | some projectId => c.teardownActive (.bind projectId (some c.currentPath))
  | .shutdown => c.teardownActive .finish

/-- The tail resolves when nothing is active, and the next call takes its turn. -/
def takeTurn : Controller :=
  match c.active, c.openTail with
  | none, job :: jobs => { c with openTail := jobs }.run job
  | _, _ => c

/-! ## Calls that do not wait -/

def retryDaemon : Controller :=
  match c.supervisor, c.currentProjectId with
  | some supervisor, some projectId =>
    { c.startSupervisor supervisor projectId with
      retries := c.retries ++ [.starting supervisor] }
  | _, _ =>
    { c with replies := c.replies ++
      [⟨false, some "No project is open — use \"Open project\" to choose one."⟩] }

/-- How the promise of a retry settled, and the supervisor's reason. -/
structure RetryAnswer where
  awaited : Except String DaemonStatus
  detail : Option String

def reply (reply : RetryReply) : Controller := { c with replies := c.replies ++ [reply] }

/-- The promise that a retry waits for settles. -/
def resumeRetry (i : ℕ) (answer : RetryAnswer) : Controller :=
  match c.retries[i]? with
  | none => c
  | some (.starting _) =>
    match answer.awaited with
    | .ok .healthy => { c.refresh with retries := c.retries.set i .refreshing }
    | .ok _ =>
      { c with retries := c.retries.eraseIdx i }.reply
        ⟨false, some (answer.detail.getD "The Conductor daemon failed to start.")⟩
    | .error e => { c with retries := c.retries.eraseIdx i }.reply ⟨false, some e⟩
  | some .refreshing =>
    match answer.awaited with
    | .ok _ => { c with retries := c.retries.eraseIdx i }.reply ⟨true, none⟩
    | .error e => { c with retries := c.retries.eraseIdx i }.reply ⟨false, some e⟩

def requestDaemonStop : Controller :=
  match c.supervisor with
  | none => c
  | some i => c.stopSupervisor i

end Controller

/-! ## Steps -/

/-- What happens next: a call is made, or something that a call waits for settles. -/
inductive ControllerEvent where
  | call (job : Job)
  | retryDaemon
  | requestDaemonStop
  | daemonStatus (status : DaemonStatus) (detail : Option String)
  | takeTurn
  | resume (answer : Controller.Answer)
  | resumeRetry (i : ℕ) (answer : Controller.RetryAnswer)

/-- One step, up to the next await. -/
def Controller.step : ControllerEvent → Controller → Controller
  | .call job, c => { c with openTail := c.openTail ++ [job] }
  | .retryDaemon, c => c.retryDaemon
  | .requestDaemonStop, c => c.requestDaemonStop
  | .daemonStatus status detail, c => c.handleDaemonStatus status detail
  | .takeTurn, c => c.takeTurn
  | .resume answer, c => c.resume answer
  | .resumeRetry i answer, c => c.resumeRetry i answer

end Orchestration.Desktop
