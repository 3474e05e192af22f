import Mathlib.Logic.Function.Basic
import Orchestration.Library.Run
import Orchestration.Library.Serial
import Orchestration.Mail.Acknowledgements

/-!
# Live delivery

The half of a delivery that runs after the commit. A new mail wakes its
recipient, and what is actionable and outstanding is injected into the
recipient's session, one injection behind the other. What was acknowledged is
in the log; the chains and the state of each mail's effects are in memory and
go with the delivery that holds them.

The host's callbacks are seams: how a wake or an injection of a mail ends is
given from outside, and so is whether the acknowledgement's transaction goes
through. Callbacks return before the delivery is called again.
-/

namespace Orchestration.Mail

open Transaction

/-- How a call of the host's injection ends: it returns, it throws, or it hands back a promise,
which settles later. -/
inductive Injection where
  | returned
  | threw
  | pending
deriving DecidableEq, Repr

/-- What the host does about one mail. -/
structure Seams where
  wakes : Bool := true
  wakeRecorded : Bool := true
  injection : Injection := .pending
  injectionRecorded : Bool := true
deriving DecidableEq, Repr

/-- What a live delivery remembers about the effects of one mail. -/
structure LiveEffect where
  wakeSucceeded : Bool
  injectQueued : Bool
  injectSucceeded : Bool
deriving DecidableEq, Repr

/-- What happened, for the properties to speak about; the delivery reads none of it. An injection
is noted with the row that the inbox had when it started. -/
inductive LiveMark where
  | enqueued (mail : DeliveredMail)
  | started (mail : DeliveredMail) (current : Option DeliveredMail)
  | settled (mail : DeliveredMail)
  | recorded (seq : ℕ)
  | restarted
deriving DecidableEq, Repr

/-- A live delivery over its store. A chain whose last injection settled stays until it is cleaned
up. -/
structure Live where
  db : Db
  liveEffects : ℕ → Option LiveEffect := fun _ => none
  injectQueues : String → Option (Serial.Chain DeliveredMail) := fun _ => none
  trace : List LiveMark := []

/-- Whether a mail is pushed into a live session: an actionable item that is outstanding. -/
def isInjectableActionable (mail : DeliveredMail) : Bool :=
  mail.kind == .actionable && !mail.read && !mail.resolved && !mail.retracted

namespace Live

def mark (mark : LiveMark) (s : Live) : Live := { s with trace := s.trace ++ [mark] }

/-- Remember the effects of a mail. -/
def setEffect (seq : ℕ) (state : LiveEffect) (s : Live) : Live :=
  { s with liveEffects := Function.update s.liveEffects seq (some state) }

/-- Change what is remembered about the effects of a mail. -/
def changeEffect (seq : ℕ) (change : LiveEffect → LiveEffect) (s : Live) : Live :=
  { s with liveEffects := Function.update s.liveEffects seq ((s.liveEffects seq).map change) }

/-- The chain of a recipient; one that was cleaned up is empty. -/
def queue (recipient : String) (s : Live) : Serial.Chain DeliveredMail :=
  (s.injectQueues recipient).getD {}

def setQueue (recipient : String) (queue : Option (Serial.Chain DeliveredMail)) (s : Live) : Live :=
  { s with injectQueues := Function.update s.injectQueues recipient queue }

/-- What the log says about the effects of a mail that nothing is remembered about. -/
def loadedEffect (t : MailTables) (mail : DeliveredMail) : LiveEffect :=
  let persisted := selectLiveDeliveryEffect t mail.seq
  { wakeSucceeded := persisted.any (·.wakeSucceeded)
    injectQueued := false
    injectSucceeded := !isInjectableActionable mail || persisted.any (·.injectSucceeded) }

/-- The effects of a mail, read from the log the first time. -/
def effectState (mail : DeliveredMail) (s : Live) : LiveEffect × Live :=
  match s.liveEffects mail.seq with
  | some state => (state, s)
  | none =>
    let state := loadedEffect s.db.mail mail
    (state, s.setEffect mail.seq state)

/-- Acknowledge an effect, and remember what the log says then; `none` when the transaction
throws. -/
def persistEffect (recorded : Bool) (effect : MailLiveEffect) (s : Live) : Option Live :=
  if !recorded then none
  else
    match transaction (LiveDelivery.persistEffect effect) s.db with
    | (.error _, _) => none
    | (.ok row, db) =>
      some ({ s with db }.changeEffect effect.seq fun state =>
        { state with
          wakeSucceeded := row.wakeSucceeded
          injectSucceeded := row.injectSucceeded })

/-- The injection that runs for the recipient settles. -/
def settle (recipient : String) (succeeded recorded : Bool) (s : Live) : Live :=
  match s.injectQueues recipient with
  | some ⟨some mail, waiting⟩ =>
    let s := (s.setQueue recipient (some ⟨none, waiting⟩)).mark (.settled mail)
    let persisted :=
      if succeeded then s.persistEffect recorded { seq := mail.seq, injectSucceeded := true }
      else none
    match persisted with
    | some s =>
      (s.mark (.recorded mail.seq)).changeEffect mail.seq fun state =>
        { state with injectQueued := false }
    | none =>
      s.changeEffect mail.seq fun state =>
        { state with injectSucceeded := false, injectQueued := false }
  | _ => s

/-- The next injection of the chain starts. It counts as queued no longer once its promise was
handed back. -/
def startNext (seams : ℕ → Seams) (recipient : String) (s : Live) : Live :=
  match s.injectQueues recipient with
  | some ⟨none, mail :: waiting⟩ =>
    let s := (s.setQueue recipient (some ⟨some mail, waiting⟩)).mark
      (.started mail (selectMailBySeq s.db.mail mail.seq))
    match (seams mail.seq).injection with
    | .pending =>
      -- `finally` runs as the promise is returned, not when it settles
      s.changeEffect mail.seq fun state => { state with injectQueued := false }
    | .returned => s.settle recipient true (seams mail.seq).injectionRecorded
    | .threw => s.settle recipient false (seams mail.seq).injectionRecorded
  | _ => s

/-- Put an injection behind the others of its recipient. -/
def chain (mail : DeliveredMail) (s : Live) : Live :=
  ((s.changeEffect mail.seq fun state => { state with injectQueued := true }).setQueue
    mail.recipient ((s.queue mail.recipient).enqueue mail)).mark (.enqueued mail)

/-- Enqueue an injection. Where there is no chain it runs at once; behind another it runs when
that one settled, with the row as it was when it was enqueued. -/
def enqueueInject (seams : ℕ → Seams) (mail : DeliveredMail) (s : Live) : Live :=
  match s.injectQueues mail.recipient with
  | none => (s.chain mail).startNext seams mail.recipient
  | some _ => s.chain mail

/-- Inject what is to be injected, unless it is queued or was injected. -/
def maybeInject (seams : ℕ → Seams) (mail : DeliveredMail) (s : Live) : Live :=
  let (state, s) := s.effectState mail
  if isInjectableActionable mail && !state.injectSucceeded && !state.injectQueued then
    s.enqueueInject seams mail
  else s

def wakeAndMaybeInject (seams : ℕ → Seams) (mail : DeliveredMail) (s : Live) : Live :=
  let (state, s) := s.effectState mail
  if state.wakeSucceeded then s.maybeInject seams mail
  else
    let persisted :=
      if (seams mail.seq).wakes then
        s.persistEffect (seams mail.seq).wakeRecorded { seq := mail.seq, wakeSucceeded := true }
      else none
    match persisted with
    | some s => s.maybeInject seams mail
    | none => s.changeEffect mail.seq fun state => { state with wakeSucceeded := false }

def shouldRetryLiveEffects (mail : DeliveredMail) (s : Live) : Bool × Live :=
  let (state, s) := s.effectState mail
  if !state.wakeSucceeded then (true, s)
  else (isInjectableActionable mail && !state.injectQueued && !state.injectSucceeded, s)

def deliver (envelope : MailEnvelope) (seams : ℕ → Seams) (s : Live) : Live :=
  match transaction (InProcessDelivery.deliverWithStatus envelope) s.db with
  | (.error _, db) => { s with db }
  | (.ok result, db) =>
    if result.created then { s with db }.wakeAndMaybeInject seams result.mail
    else
      let (retry, s) := { s with db }.shouldRetryLiveEffects result.mail
      if retry then s.wakeAndMaybeInject seams result.mail else s

def forward (held : DeliveredMail) (envelope : MailEnvelope) (seams : ℕ → Seams) (s : Live) :
    Live :=
  match LiveDelivery.forwardOrRecover held envelope s.db with
  | (.error _, db) => { s with db }
  | (.ok delivered, db) => { s with db }.wakeAndMaybeInject seams delivered

def resolve (held : DeliveredMail) (envelope : MailEnvelope) (relays : List MailEnvelope)
    (seams : ℕ → Seams) (s : Live) : Live :=
  match LiveDelivery.resolveOrRecover held envelope relays s.db with
  | (.error _, db) => { s with db }
  | (.ok (response, relayRows), db) =>
    (response :: relayRows).foldl (fun s row => s.wakeAndMaybeInject seams row) { s with db }

/-- What the chain does after its injection settled: start the next one, or be cleaned up. -/
def advance (recipient : String) (seams : ℕ → Seams) (s : Live) : Live :=
  match s.injectQueues recipient with
  | some ⟨none, []⟩ => s.setQueue recipient none
  | _ => s.startNext seams recipient

/-- A fresh delivery over the same log; what ran in the process before is gone. -/
def restart (s : Live) : Live := { db := s.db, trace := s.trace ++ [.restarted] }

end Live

/-- What happens to a live delivery. The calls of the store are those of its receipts and of every
other handle; the acknowledgements are its own. -/
inductive LiveOp where
  | deliver (envelope : MailEnvelope) (seams : ℕ → Seams)
  | forward (held : DeliveredMail) (envelope : MailEnvelope) (seams : ℕ → Seams)
  | resolve (held : DeliveredMail) (envelope : MailEnvelope) (relays : List MailEnvelope)
      (seams : ℕ → Seams)
  | store (call : MailCall) (hcall : call.acknowledges = false)
  | settle (recipient : String) (succeeded recorded : Bool)
  | advance (recipient : String) (seams : ℕ → Seams)
  | restart

def liveStep : LiveOp → Live → Live
  | .deliver envelope seams, s => s.deliver envelope seams
  | .forward held envelope seams, s => s.forward held envelope seams
  | .resolve held envelope relays seams, s => s.resolve held envelope relays seams
  | .store call _, s => { s with db := call.exec .live s.db }
  | .settle recipient succeeded recorded, s => s.settle recipient succeeded recorded
  | .advance recipient seams, s => s.advance recipient seams
  | .restart, s => s.restart

/-- The state after `ops`. -/
abbrev liveRun (ops : List LiveOp) (s : Live) : Live := Run.after liveStep ops s

/-! ## Reading the state -/

namespace Live

variable {s : Live} {recipient : String} {seq : ℕ}

section

variable (s : Live) (recipient : String) (seq : ℕ) (note : LiveMark) (state : LiveEffect)
  (change : LiveEffect → LiveEffect) (chain : Option (Serial.Chain DeliveredMail))

@[simp] theorem db_mark : (s.mark note).db = s.db := rfl
@[simp] theorem db_setEffect : (s.setEffect seq state).db = s.db := rfl
@[simp] theorem db_changeEffect : (s.changeEffect seq change).db = s.db := rfl
@[simp] theorem db_setQueue : (s.setQueue recipient chain).db = s.db := rfl

@[simp] theorem trace_mark : (s.mark note).trace = s.trace ++ [note] := rfl
@[simp] theorem trace_setEffect : (s.setEffect seq state).trace = s.trace := rfl
@[simp] theorem trace_changeEffect : (s.changeEffect seq change).trace = s.trace := rfl
@[simp] theorem trace_setQueue : (s.setQueue recipient chain).trace = s.trace := rfl

@[simp] theorem injectQueues_mark : (s.mark note).injectQueues = s.injectQueues := rfl
@[simp] theorem injectQueues_setEffect :
    (s.setEffect seq state).injectQueues = s.injectQueues := rfl
@[simp] theorem injectQueues_changeEffect :
    (s.changeEffect seq change).injectQueues = s.injectQueues := rfl

@[simp] theorem queue_mark : (s.mark note).queue recipient = s.queue recipient := rfl
@[simp] theorem queue_setEffect : (s.setEffect seq state).queue recipient = s.queue recipient := rfl
@[simp] theorem queue_changeEffect :
    (s.changeEffect seq change).queue recipient = s.queue recipient := rfl

@[simp] theorem liveEffects_mark : (s.mark note).liveEffects = s.liveEffects := rfl
@[simp] theorem liveEffects_setQueue : (s.setQueue recipient chain).liveEffects = s.liveEffects := rfl

end

theorem queue_setQueue {other : String} {chain : Option (Serial.Chain DeliveredMail)} :
    (s.setQueue recipient chain).queue other =
      if other = recipient then chain.getD {} else s.queue other := by
  unfold queue setQueue
  by_cases h : other = recipient <;> simp [h]

theorem queue_eq {chain : Serial.Chain DeliveredMail} (h : s.injectQueues recipient = some chain) :
    s.queue recipient = chain := by
  simp [queue, h]

theorem liveEffects_setEffect {n : ℕ} {state : LiveEffect} :
    (s.setEffect seq state).liveEffects n = if n = seq then some state else s.liveEffects n := by
  unfold setEffect
  by_cases h : n = seq <;> simp [h]

theorem liveEffects_changeEffect {n : ℕ} {change : LiveEffect → LiveEffect} :
    (s.changeEffect seq change).liveEffects n =
      if n = seq then (s.liveEffects n).map change else s.liveEffects n := by
  unfold changeEffect
  by_cases h : n = seq <;> simp [h]

end Live

end Orchestration.Mail
