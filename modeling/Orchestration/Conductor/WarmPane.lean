import Orchestration.Library.Run
import Orchestration.Pty.MailInjector
import Orchestration.Session.StartCoordinator

/-!
# Turns and deliveries on a warm pane

The conductor drives turns on a pane that it hosts, and the mail buses of other
panes deliver into it. Each such call runs from one await to the next; the calls
share the composer of the pane and the two files that long codex mail goes to.
-/

namespace Orchestration.Conductor

open Dispatch (Provider)
open Mail (DeliveredMail)
open Pty (Text Write Progress Injection DialogWatcher InjectMailOptions CodexHandoff watchDialogs)
open Session (isTurnKickoffMail)

/-! ## Handoff files -/

/-- The files that a codex mail is diverted to. -/
inductive HandoffFile where
  | kickoff
  | routed
deriving DecidableEq, Repr

/-- The environment variable that holds the path of the file. -/
def HandoffFile.env : HandoffFile → String
  | .kickoff => "CO_KICKOFF_HANDOFF"
  | .routed => "CO_ROUTED_HANDOFF"

/-- `codexKickoffHandoffPointer` and `codexRoutedHandoffPointer`. -/
def HandoffFile.pointer (file : HandoffFile) : Text :=
  "Read $".toList ++ file.env.toList ++ " in full and act on it now.".toList

/-- The file that a mail is diverted to. -/
def handoffFile (mail : DeliveredMail) : HandoffFile :=
  if isTurnKickoffMail mail then .kickoff else .routed

/-- What the engine injects with. -/
structure InjectDeps where
  provider : Provider
  renderMail : DeliveredMail → Text
  maxEchoAttempts : ℕ := 5
  allowUnverifiedSubmit : Bool := false
  /-- A turn ends by capturing its cost. -/
  capturesTurnCost : Bool := true

namespace InjectDeps

variable (deps : InjectDeps) (mail : DeliveredMail)

def options : InjectMailOptions where
  provider := some deps.provider
  maxEchoAttempts := deps.maxEchoAttempts
  allowUnverifiedSubmit := deps.allowUnverifiedSubmit

/-- The handoff of `injectOptionsFor`, whose write of the file ends as `written`. -/
def codexHandoff (written : Except String Text) : Option CodexHandoff :=
  if deps.provider = .codex then
    some { write := fun _ => written, pointer := fun _ => (handoffFile mail).pointer }
  else none

/-- Whether the mail goes to a handoff file. -/
def diverts : Bool :=
  deps.provider = .codex && Pty.usePaste (deps.renderMail mail) &&
    Pty.normalizeStartupOutput (deps.renderMail mail) ≠ []

/-- What `injectMail` is to put into the composer for a mail. -/
def composed : Text :=
  if deps.diverts mail then (handoffFile mail).pointer else deps.renderMail mail

end InjectDeps

/-! ## The pane -/

/-- Who injects: the conductor's own turn, or a delivery of a hosted sender's mail bus. -/
inductive Source where
  | driven
  | routed (sender : String)
deriving DecidableEq, Repr

/-- Where a call waits. -/
inductive Phase where
  /-- A delivery behind the earlier ones of its sender. -/
  | queued
  | injecting (injection : Injection)
  /-- `injectMail` has settled. -/
  | injected (result : Except String Unit)
  /-- A driven turn, watched for its idle boundary. -/
  | observing (dialogs : DialogWatcher)
  | capturingCost
  | ended (result : Except String Unit)

structure Call where
  source : Source
  mail : DeliveredMail
  phase : Phase
  /-- The handoff file that it has written, and what it wrote there. -/
  handoff : Option (HandoffFile × Text)

/-- What happens on the pane, in order. -/
inductive Mark where
  /-- The injection of a call writes. -/
  | wrote (call : ℕ) (write : Write)
  /-- The injection of a call is over. -/
  | settled (call : ℕ)
  /-- The turn of a call answers a dialog. -/
  | watched (call : ℕ) (write : Write)
deriving DecidableEq, Repr

/-- A message that points at a handoff file, and the text that was written there. -/
structure Pointer where
  call : ℕ
  file : HandoffFile
  text : Text
deriving DecidableEq, Repr

structure WarmPane where
  calls : List Call
  trace : List Mark
  /-- What was written into the composer since it was last submitted or cleared. -/
  composer : Text
  /-- What the composer held at each submit, and whose submit it was. -/
  submitted : List (ℕ × Text)
  files : HandoffFile → Option Text
  /-- `activeCodexHandoffs` and `activeCodexRoutedHandoffs`. -/
  active : HandoffFile → Bool
  /-- Every pointer message submitted so far. -/
  pointed : List Pointer
  /-- The pointer messages of turns that have not ended. -/
  reading : List Pointer
  hosted : Bool
  turnInFlight : Bool
  routeInjectInFlight : ℕ
  releasePending : Bool
  killed : Bool

/-- How the file system, the mail store and the cost capture answer a step. -/
structure Seams where
  /-- The handoff file is written, at this path. -/
  written : Except String Text
  /-- A handoff file is removed. -/
  removes : Bool
  /-- The mail is retracted or marked as read. -/
  stored : Except String Unit

structure TurnObservation where
  sawMcpActivity : Bool
  sawOverload : Bool
deriving DecidableEq, Repr

namespace WarmPane

/-- A pane that has just become warm. -/
def initial : WarmPane where
  calls := []
  trace := []
  composer := []
  submitted := []
  files := fun _ => none
  active := fun _ => false
  pointed := []
  reading := []
  hosted := true
  turnInFlight := false
  routeInjectInFlight := 0
  releasePending := false
  killed := false

variable (deps : InjectDeps) (i : ℕ) (s : WarmPane)

/-! ### Calls -/

def modifyCall (f : Call → Call) : WarmPane := { s with calls := s.calls.modify i f }

def setPhase (phase : Phase) : WarmPane := s.modifyCall i fun call => { call with phase }

/-- The call no longer needs its handoff file. -/
def dropHandoff : WarmPane := s.modifyCall i fun call => { call with handoff := none }

def handoffOf : Option (HandoffFile × Text) := s.calls[i]? >>= Call.handoff

/-! ### Writes -/

/-- The agent is given a pointer message; a killed pane has no one to read it. -/
def point (pointer : Pointer) : WarmPane :=
  { s with
    pointed := s.pointed ++ [pointer]
    reading := if s.killed then s.reading else s.reading ++ [pointer] }

/-- The injection of call `i` writes to the pane. -/
def write (w : Write) : WarmPane :=
  let s : WarmPane := { s with
    trace := s.trace ++ [.wrote i w]
    composer := w.composed s.composer
    submitted := if w = .submit then s.submitted ++ [(i, s.composer)] else s.submitted }
  match w, s.handoffOf i with
  | .submit, some (file, text) => s.point ⟨i, file, text⟩
  | _, _ => s

/-- `injectMail` of call `i` settles. -/
def settle (result : Except String Unit) : WarmPane :=
  let s : WarmPane := { s with trace := s.trace ++ [.settled i] }
  s.setPhase i (.injected result)

/-- The injection of call `i` runs up to its next await. -/
def perform (done : List Write × Progress) : WarmPane :=
  let s := done.1.foldl (fun s w => s.write i w) s
  match done.2 with
  | .racing injection => s.setPhase i (.injecting injection)
  | .submitted => s.settle i (.ok ())
  | .refused error => s.settle i (.error error)

/-! ### Handoffs -/

/-- `write` of the handoff of `injectOptionsFor`. -/
def recordHandoff (file : HandoffFile) (text : Text) : WarmPane :=
  let s : WarmPane := { s with
    files := Function.update s.files file (some text)
    active := Function.update s.active file true }
  s.modifyCall i fun call => { call with handoff := some (file, text) }

/-- `removeActiveCodexHandoff` and `removeActiveCodexRoutedHandoff`. -/
def scrub (seams : Seams) (file : HandoffFile) : WarmPane :=
  if deps.provider = .codex ∧ s.active file = true then
    { s with
      files := if seams.removes then Function.update s.files file none else s.files
      active := Function.update s.active file false }
  else s

def consumeOneShotKickoff (seams : Seams) (mail : DeliveredMail) : Except String Unit × WarmPane :=
  if isTurnKickoffMail mail then (seams.stored, s.scrub deps seams .kickoff) else (.ok (), s)

/-! ### Releases -/

def finalizeRelease (seams : Seams) : WarmPane :=
  let s := (s.scrub deps seams .kickoff).scrub deps seams .routed
  { s with killed := true, reading := [] }

def release (seams : Seams) : WarmPane :=
  if s.hosted then
    let s : WarmPane := { s with hosted := false }
    if s.turnInFlight then { s with releasePending := true } else s.finalizeRelease deps seams
  else s

/-! ### Driven turns -/

/-- What `injectMail` does once it knows what goes into the composer. -/
def injectComposed (composed : Except String Text) : WarmPane :=
  match composed with
  | .error error => s.settle i (.error error)
  | .ok composed => s.perform i (Pty.inject deps.options composed)

/-- `injectMail` of call `i`, up to its first await. -/
def injectMail (seams : Seams) (mail : DeliveredMail) : WarmPane :=
  let text := deps.renderMail mail
  let s :=
    if deps.diverts mail && seams.written.isOk then s.recordHandoff i (handoffFile mail) text else s
  s.injectComposed deps i
    (Pty.composerText deps.options (deps.codexHandoff mail seams.written) text)

def runOneTurn (seams : Seams) (mail : DeliveredMail) : WarmPane :=
  let i := s.calls.length
  let s : WarmPane := { s with
    calls := s.calls ++ [⟨.driven, mail, .queued, none⟩]
    turnInFlight := true }
  s.injectMail deps i seams mail

/-- The `finally` of a turn. -/
def finishTurn (seams : Seams) (result : Except String Unit) : WarmPane :=
  let s := ((s.scrub deps seams .routed).dropHandoff i).setPhase i (.ended result)
  let s : WarmPane := { s with turnInFlight := false }
  if s.releasePending then finalizeRelease deps { s with releasePending := false } seams else s

/-- The `catch` of a turn. -/
def failTurn (seams : Seams) (mail : DeliveredMail) (error : String) : WarmPane :=
  let s := if isTurnKickoffMail mail then s.scrub deps seams .kickoff else s
  s.finishTurn deps i seams (.error error)

/-- The turn of call `i` is over for the agent, who needs its kickoff file no longer. -/
def turnOver : WarmPane :=
  let s : WarmPane := { s with reading := s.reading.filter fun pointer => pointer.call ≠ i }
  s.modifyCall i fun call =>
    { call with handoff := call.handoff.filter fun handoff => handoff.1 ≠ HandoffFile.kickoff }

/-- What the turn of call `i` does once `observeTurnEnd` has returned. -/
def turnEnd (seams : Seams) (mail : DeliveredMail) (seen : TurnObservation) : WarmPane :=
  if seen.sawOverload && !seen.sawMcpActivity then s.finishTurn deps i seams (.ok ())
  else
    let (stored, s) := s.consumeOneShotKickoff deps seams mail
    let stored := stored >>= fun _ => if seen.sawMcpActivity then seams.stored else .ok ()
    match stored with
    | .error error => s.failTurn deps i seams mail error
    | .ok () =>
      if deps.capturesTurnCost then s.setPhase i .capturingCost
      else s.finishTurn deps i seams (.ok ())

/-! ### Routed deliveries -/

/-- `enqueueInject` of a sender's `LiveDelivery`. -/
def enqueueInject (sender : String) (mail : DeliveredMail) : WarmPane :=
  { s with calls := s.calls ++ [⟨.routed sender, mail, .queued, none⟩] }

/-- Whether call `i` is a delivery whose turn in its sender's queue has come. -/
def due : Bool :=
  match s.calls[i]? with
  | some ⟨.routed sender, _, .queued, _⟩ =>
    (s.calls.take i).all fun call =>
      call.source ≠ .routed sender || match call.phase with
        | .ended _ => true
        | _ => false
  | _ => false

def routeInject (seams : Seams) (mail : DeliveredMail) : WarmPane :=
  if s.hosted then
    injectMail deps i { s with routeInjectInFlight := s.routeInjectInFlight + 1 } seams mail
  else s.setPhase i (.ended (.error "ConductorEngine.routeInject: recipient is not hosted"))

/-- The queue of its sender calls `routeInject` for call `i`. -/
def routeDue (seams : Seams) : WarmPane :=
  match s.calls[i]? with
  | some call => if s.due i then s.routeInject deps i seams call.mail else s
  | none => s

/-- What `routeInject` does once `injectMail` has settled. -/
def routeEnd (seams : Seams) (mail : DeliveredMail) (result : Except String Unit) : WarmPane :=
  let failed := match result with
    | .error _ => true
    | .ok () => false
  let s := if failed && isTurnKickoffMail mail then s.scrub deps seams .kickoff else s
  let s := s.scrub deps seams .routed
  let (consumed, s) :=
    if failed then (result, s) else s.consumeOneShotKickoff deps seams mail
  let s : WarmPane := { s with routeInjectInFlight := s.routeInjectInFlight - 1 }
  (s.dropHandoff i).setPhase i (.ended consumed)

/-! ### Steps -/

/-- Call `i` hears a chunk of the pane's output. -/
def hear (chunk : Text) : WarmPane :=
  match s.calls[i]? with
  | some ⟨_, _, .injecting injection, _⟩ =>
    let (injection, writes) := injection.onData chunk
    (writes.foldl (fun s w => s.write i w) s).setPhase i (.injecting injection)
  | some ⟨_, _, .observing dialogs, _⟩ =>
    let (dialogs, answer) := dialogs.onData chunk
    let s : WarmPane := { s with
      trace := s.trace ++ answer.toList.map fun bytes => .watched i (.answer bytes) }
    s.setPhase i (.observing dialogs)
  | _ => s

/-- The retry delay of call `i` is over. -/
def delay : WarmPane :=
  match s.calls[i]? with
  | some ⟨_, _, .injecting injection, _⟩ => s.setPhase i (.injecting injection.onDelay)
  | _ => s

/-- Call `i` goes on after its await. -/
def resume (seams : Seams) : WarmPane :=
  match s.calls[i]? with
  | some ⟨_, _, .injecting injection, _⟩ => s.perform i injection.resume
  | some ⟨.driven, _, .injected (.ok ()), _⟩ =>
    s.setPhase i (.observing (watchDialogs (some deps.provider)))
  | some ⟨.driven, mail, .injected (.error error), _⟩ => s.failTurn deps i seams mail error
  | some ⟨.driven, _, .capturingCost, _⟩ => s.finishTurn deps i seams (.ok ())
  | some ⟨.routed _, mail, .injected result, _⟩ => s.routeEnd deps i seams mail result
  | _ => s

/-- `observeTurnEnd` of call `i` returns or throws. -/
def observe (seams : Seams) (seen : Except String TurnObservation) : WarmPane :=
  match s.calls[i]? with
  | some ⟨.driven, mail, .observing _, _⟩ =>
    match seen with
    | .error error => (s.turnOver i).failTurn deps i seams mail error
    | .ok seen => (s.turnOver i).turnEnd deps i seams mail seen
  | _ => s

/-- The agent comes to the end of a turn that the engine does not watch. -/
def agentIdle : WarmPane :=
  { s with reading := s.reading.filter fun pointer =>
      (s.calls[pointer.call]?.map Call.source) = some .driven }

end WarmPane

/-- What happens to a warm pane. -/
inductive WarmOp where
  | runOneTurn (mail : DeliveredMail) (seams : Seams)
  | enqueueInject (sender : String) (mail : DeliveredMail)
  | routeInject (i : ℕ) (seams : Seams)
  | data (chunk : Text)
  | delay (i : ℕ)
  | resume (i : ℕ) (seams : Seams)
  | observe (i : ℕ) (seams : Seams) (seen : Except String TurnObservation)
  | agentIdle
  | release (seams : Seams)

def WarmPane.step (deps : InjectDeps) (op : WarmOp) (s : WarmPane) : WarmPane :=
  match op with
  | .runOneTurn mail seams => s.runOneTurn deps seams mail
  | .enqueueInject sender mail => s.enqueueInject sender mail
  | .routeInject i seams => s.routeDue deps i seams
  | .data chunk => (List.range s.calls.length).foldl (fun s i => s.hear i chunk) s
  | .delay i => s.delay i
  | .resume i seams => s.resume deps i seams
  | .observe i seams seen => s.observe deps i seams seen
  | .agentIdle => s.agentIdle
  | .release seams => s.release deps seams

end Orchestration.Conductor
