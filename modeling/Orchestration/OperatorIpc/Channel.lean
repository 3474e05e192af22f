import Mathlib.Data.List.Basic
import Mathlib.Tactic.Common

/-!
# The operator-IPC channel

Operator clients call the daemon over a socket. A facade keeps one connection and
opens a new one when it has none; the server reads from the socket that is attached
and answers on the socket that is attached when a handler finishes. Requests and
answers of one connection arrive in order, or are lost with the socket.
-/

namespace Orchestration.OperatorIpc

/-! ## Wire messages -/

inductive OperatorIpcMethod where
  | observe
  | listArchive
  | restoreArchive
  | purgeArchive
  | pause
  | resume
  | stop
  | unstick
  | steer
  | reply
  | operatorMessage
  | approve
  | markRead
  | transcript
  | reviewContext
  | startSession
  | deleteAgent
  | reclaimChild
  | rewake
  | sendInput
  | resize
deriving DecidableEq, Repr

def OPERATOR_IPC_METHODS : List (OperatorIpcMethod × String) :=
  [(.observe, "observe"), (.listArchive, "listArchive"), (.restoreArchive, "restoreArchive"),
    (.purgeArchive, "purgeArchive"), (.pause, "pause"), (.resume, "resume"), (.stop, "stop"),
    (.unstick, "unstick"), (.steer, "steer"), (.reply, "reply"),
    (.operatorMessage, "operatorMessage"), (.approve, "approve"), (.markRead, "markRead"),
    (.transcript, "transcript"), (.reviewContext, "reviewContext"),
    (.startSession, "startSession"), (.deleteAgent, "deleteAgent"),
    (.reclaimChild, "reclaimChild"), (.rewake, "rewake"), (.sendInput, "session:input"),
    (.resize, "session:resize")]

def OperatorIpcMethod.wire (method : OperatorIpcMethod) : String :=
  (OPERATOR_IPC_METHODS.lookup method).getD ""

def isOperatorIpcMethod (method : String) : Bool :=
  (OPERATOR_IPC_METHODS.map Prod.snd).contains method

structure WireRequest (Payload : Type) where
  id : ℕ
  method : String
  params : Payload
deriving DecidableEq

/-- A result or an error, under the id of the request that it answers. -/
structure WireAnswer (Payload : Type) where
  id : ℕ
  outcome : Except String Payload
deriving DecidableEq

/-! ## A connection -/

inductive Phase where
  | unborn
  /-- `connect` has not resolved. -/
  | dialing
  | opened
  | closed
deriving DecidableEq, Repr

/-- An `OperatorIpcConnection` and its socket. -/
structure Connection (Payload : Type) where
  /-- The facade that opened it. -/
  owner : Option ℕ := none
  phase : Phase := .unborn
  nextId : ℕ := 1
  pending : List ℕ := []
  /-- The requests that it has numbered. -/
  sent : List (WireRequest Payload) := []
  /-- The call promises that have settled. -/
  settled : List (ℕ × Except String Payload) := []
  /-- The server has accepted the socket. -/
  accepted : Bool := false
  /-- On their way to the server. -/
  requests : List (WireRequest Payload) := []
  /-- On their way to the client. -/
  answers : List (WireAnswer Payload) := []

variable {Payload : Type}

namespace Connection

def alreadyClosed : String := "operator IPC: connection is closed."

def closedBeforeResponse : String :=
  "operator IPC: connection closed before the response arrived."

/-- `call` on a connection that is not closed. -/
def call (method : String) (params : Payload) (conn : Connection Payload) : Connection Payload :=
  let request : WireRequest Payload := ⟨conn.nextId, method, params⟩
  { conn with
    nextId := conn.nextId + 1
    pending := conn.pending ++ [conn.nextId]
    sent := conn.sent ++ [request]
    requests := conn.requests ++ [request] }

/-- Settle the pending call of that id, if there is one. -/
def settle (id : ℕ) (outcome : Except String Payload) (conn : Connection Payload) :
    Connection Payload :=
  if id ∈ conn.pending then
    { conn with
      pending := conn.pending.filter fun other => other != id
      settled := conn.settled ++ [(id, outcome)] }
  else conn

/-- `onMessage`, for the next answer from the socket. -/
def receive (conn : Connection Payload) : Connection Payload :=
  match conn.answers with
  | [] => conn
  | answer :: answers => settle answer.id answer.outcome { conn with answers := answers }

/-- `handleClose`. A call to `close` runs it at once. -/
def handleClose (conn : Connection Payload) : Connection Payload :=
  if conn.phase = .closed then conn
  else
    { conn with
      phase := .closed
      pending := []
      settled := conn.settled ++ conn.pending.map fun id => (id, .error closedBeforeResponse) }

end Connection

/-! ## The facade and the server -/

/-- An `OperatorIpcClient`. -/
structure Facade where
  connection : Option ℕ := none
  connecting : Option ℕ := none
  closed : Bool := false
deriving DecidableEq, Repr

/-- Where a verb of a facade waits. -/
inductive VerbPhase (Payload : Type) where
  /-- For the dial of a connection. -/
  | awaiting (connection : ℕ)
  /-- `ensureConnection` has resolved. -/
  | ensured (connection : Option ℕ)
  | calling (connection id : ℕ)
  /-- Settled, after the call `via`. -/
  | settled (via : Option (ℕ × ℕ)) (outcome : Except String Payload)

/-- A control or write verb of a facade, run by `withConnection`. -/
structure Verb (Payload : Type) where
  facade : ℕ
  method : String
  params : Payload
  phase : VerbPhase Payload

/-- The server's work on one request. -/
structure Handler (Payload : Type) where
  connection : ℕ
  request : WireRequest Payload
  /-- What it has computed. -/
  outcome : Option (Except String Payload) := none

structure Channel (Payload : Type) where
  facades : ℕ → Facade := fun _ => {}
  connections : ℕ → Connection Payload := fun _ => {}
  /-- How many connections have been made. -/
  made : ℕ := 0
  verbs : List (Verb Payload) := []
  /-- The socket that the server's transport holds. -/
  attached : Option ℕ := none
  serverClosed : Bool := false
  handlers : List (Handler Payload) := []

namespace Channel

def updateConnection (c : ℕ) (change : Connection Payload → Connection Payload)
    (s : Channel Payload) : Channel Payload :=
  { s with connections := fun j => if j = c then change (s.connections c) else s.connections j }

def updateFacade (f : ℕ) (change : Facade → Facade) (s : Channel Payload) : Channel Payload :=
  { s with facades := fun j => if j = f then change (s.facades f) else s.facades j }

def updateVerb (k : ℕ) (phase : VerbPhase Payload) (s : Channel Payload) : Channel Payload :=
  { s with verbs := s.verbs.modify k fun verb => { verb with phase := phase } }

/-! ## The client side -/

/-- A new connection begins to dial. -/
def dial (owner : Option ℕ) (s : Channel Payload) : Channel Payload :=
  let s := s.updateConnection s.made fun _ => { owner := owner, phase := .dialing }
  { s with made := s.made + 1 }

/-- `ensureConnection` up to its first await. -/
def ensureConnection (f : ℕ) (s : Channel Payload) : Channel Payload × VerbPhase Payload :=
  let facade := s.facades f
  if facade.closed then (s, .ensured none)
  else
    match facade.connection, facade.connecting with
    | some c, _ => (s, .ensured (some c))
    | none, some c => (s, .awaiting c)
    | none, none =>
      ((s.dial (some f)).updateFacade f fun facade => { facade with connecting := some s.made },
        .awaiting s.made)

/-- A verb of facade `f` begins. -/
def invoke (f : ℕ) (method : String) (params : Payload) (s : Channel Payload) : Channel Payload :=
  let ensured := s.ensureConnection f
  { ensured.1 with verbs := ensured.1.verbs ++ [⟨f, method, params, ensured.2⟩] }

/-- The dial that the verbs shared resolves. -/
def resolveDial (c : ℕ) (value : Option ℕ) (s : Channel Payload) : Channel Payload :=
  { s with
    verbs := s.verbs.map fun verb =>
      match verb.phase with
      | .awaiting dialed => if dialed = c then { verb with phase := .ensured value } else verb
      | _ => verb }

/-- `handleClose` and, for the facade that holds the connection, `handleDisconnect`. -/
def closeConnection (c : ℕ) (s : Channel Payload) : Channel Payload :=
  let s := s.updateConnection c Connection.handleClose
  match (s.connections c).owner with
  | none => s
  | some f =>
    s.updateFacade f fun facade =>
      if facade.connection = some c then { facade with connection := none } else facade

/-- `openConnection` after `connect` has resolved. -/
def opened (c : ℕ) (s : Channel Payload) : Channel Payload :=
  if (s.connections c).phase = .dialing then
    let s := s.updateConnection c fun conn => { conn with phase := .opened }
    match (s.connections c).owner with
    | none => s
    | some f =>
      let s := s.updateFacade f fun facade => { facade with connecting := none }
      if (s.facades f).closed then (s.closeConnection c).resolveDial c none
      else
        (s.updateFacade f fun facade => { facade with connection := some c }).resolveDial c (some c)
  else s

/-- `openConnection` after `connect` has rejected. -/
def refused (c : ℕ) (s : Channel Payload) : Channel Payload :=
  if (s.connections c).phase = .dialing then
    let s := s.updateConnection c Connection.handleClose
    match (s.connections c).owner with
    | none => s
    | some f =>
      (s.updateFacade f fun facade => { facade with connecting := none }).resolveDial c none
  else s

def call (c : ℕ) (method : String) (params : Payload) (s : Channel Payload) : Channel Payload :=
  if (s.connections c).phase = .opened then s.updateConnection c (Connection.call method params)
  else s

def notRunning : String :=
  "operator IPC: the Conductor is not running — control and mail writes need `co-mcp serve <projectId>`."

def lostMidCall : String :=
  "operator IPC: lost the Conductor connection mid-call — retry once it is back."

/-- What `withConnection` throws for an error of its call. -/
def callFailed (f : ℕ) (message : String) (s : Channel Payload) : String :=
  if (s.facades f).connection = none then lostMidCall else message

/-- `withConnection` after `ensureConnection`. -/
def proceed (k : ℕ) (s : Channel Payload) : Channel Payload :=
  match s.verbs[k]? with
  | some ⟨f, method, params, .ensured connection⟩ =>
    match connection with
    | none => s.updateVerb k (.settled none (.error notRunning))
    | some c =>
      if (s.connections c).phase = .opened then
        (s.call c method params).updateVerb k (.calling c (s.connections c).nextId)
      else
        s.updateVerb k (.settled none (.error (s.callFailed f Connection.alreadyClosed)))
  | _ => s

/-- `withConnection` after its call has settled. -/
def finishVerb (k : ℕ) (s : Channel Payload) : Channel Payload :=
  match s.verbs[k]? with
  | some ⟨f, _, _, .calling c id⟩ =>
    match (s.connections c).settled.lookup id with
    | none => s
    | some (.ok result) => s.updateVerb k (.settled (some (c, id)) (.ok result))
    | some (.error message) =>
      s.updateVerb k (.settled (some (c, id)) (.error (s.callFailed f message)))
  | _ => s

/-- `OperatorIpcClient.close`. -/
def closeFacade (f : ℕ) (s : Channel Payload) : Channel Payload :=
  let connection := (s.facades f).connection
  let s := s.updateFacade f fun facade => { facade with closed := true, connection := none }
  match connection with
  | none => s
  | some c => s.closeConnection c

/-! ## The server side -/

/-- The server takes a new socket, and ends the one it held. -/
def accept (c : ℕ) (s : Channel Payload) : Channel Payload :=
  let conn := s.connections c
  if s.serverClosed = true ∨ conn.accepted = true ∨ conn.phase = .unborn then s
  else
    { s.updateConnection c fun conn => { conn with accepted := true } with attached := some c }

/-- The close event of a socket at the server. -/
def detach (c : ℕ) (s : Channel Payload) : Channel Payload :=
  if s.attached = some c then { s with attached := none } else s

def closeServer (s : Channel Payload) : Channel Payload :=
  { s with attached := none, serverClosed := true }

/-- `safeSend`, on the socket that is attached. -/
def safeSend (answer : WireAnswer Payload) (s : Channel Payload) : Channel Payload :=
  match s.attached with
  | none => s
  | some c => s.updateConnection c fun conn => { conn with answers := conn.answers ++ [answer] }

def unknownMethod (method : String) : String :=
  "operator IPC: unknown method '" ++ method ++ "'."

/-- `dispatch` up to the await of the handler. -/
def dispatch (c : ℕ) (request : WireRequest Payload) (s : Channel Payload) : Channel Payload :=
  if isOperatorIpcMethod request.method then
    { s with handlers := s.handlers ++ [{ connection := c, request := request }] }
  else
    let outcome : Except String Payload := .error (unknownMethod request.method)
    let s : Channel Payload :=
      { s with handlers := s.handlers ++ [⟨c, request, some outcome⟩] }
    s.safeSend ⟨request.id, outcome⟩

/-- The next request of a socket arrives. What comes from a replaced socket is dropped. -/
def arrive (c : ℕ) (s : Channel Payload) : Channel Payload :=
  match (s.connections c).accepted, (s.connections c).requests with
  | true, request :: requests =>
    let s := s.updateConnection c fun conn => { conn with requests := requests }
    if s.attached = some c then s.dispatch c request else s
  | _, _ => s

/-- `dispatch` after the handler has finished. -/
def finishHandler (h : ℕ) (outcome : Except String Payload) (s : Channel Payload) :
    Channel Payload :=
  match s.handlers[h]? with
  | some ⟨c, request, none⟩ =>
    let s : Channel Payload := { s with handlers := s.handlers.set h ⟨c, request, some outcome⟩ }
    s.safeSend ⟨request.id, outcome⟩
  | _ => s

end Channel

/-! ## The runs -/

/-- What can happen next. -/
inductive Op (Payload : Type) where
  /-- A connection is made without a facade. -/
  | connect
  | ensure (facade : ℕ)
  | invoke (facade : ℕ) (method : OperatorIpcMethod) (params : Payload)
  | opened (connection : ℕ)
  | refused (connection : ℕ)
  | proceed (verb : ℕ)
  | finishVerb (verb : ℕ)
  | call (connection : ℕ) (method : String) (params : Payload)
  | sendFails (connection id : ℕ) (message : String)
  | receive (connection : ℕ)
  /-- The close event of the client's socket, or a call to `close`. -/
  | close (connection : ℕ)
  | closeFacade (facade : ℕ)
  | accept (connection : ℕ)
  | arrive (connection : ℕ)
  | finishHandler (handler : ℕ) (outcome : Except String Payload)
  | detach (connection : ℕ)
  | closeServer

namespace Channel

def step : Op Payload → Channel Payload → Channel Payload
  | .connect, s => s.dial none
  | .ensure f, s => (s.ensureConnection f).1
  | .invoke f method params, s => s.invoke f method.wire params
  | .opened c, s => s.opened c
  | .refused c, s => s.refused c
  | .proceed k, s => s.proceed k
  | .finishVerb k, s => s.finishVerb k
  | .call c method params, s => s.call c method params
  | .sendFails c id message, s => s.updateConnection c (Connection.settle id (.error message))
  | .receive c, s =>
    if (s.connections c).phase = .opened then s.updateConnection c Connection.receive else s
  | .close c, s => if (s.connections c).phase = .opened then s.closeConnection c else s
  | .closeFacade f, s => s.closeFacade f
  | .accept c, s => s.accept c
  | .arrive c, s => s.arrive c
  | .finishHandler h outcome, s => s.finishHandler h outcome
  | .detach c, s => s.detach c
  | .closeServer, s => s.closeServer

end Channel

end Orchestration.OperatorIpc
