import Orchestration.Library.Cleanup
import Orchestration.Library.Run
import Orchestration.Mail.Calls
import Orchestration.Specs.Lifecycle

/-!
# What the operator approves is what is locked

A lock is asked for by mail, and the operator's answer locks the spec before it is recorded. The
answer comes as a reply through `co_mail_send`, or from the operator's console.

Agents mail, the operator answers, and specs are drafted, locked and archived in any order. As long
as no agent answers the operator's own mail with an approval under a reserved key, every request
of a lock shows the criteria of its spec: they are what an approval freezes.
-/

namespace Orchestration.Specs

open EventStore Fallible Transaction
open Mail (ApprovalDecision DeliveredMail Delivery MailEnvelope MailType OPERATOR ReplyDraft
  deliveredRow)

/-- The mails and the specs of a project. -/
structure SpecDesk where
  db : Db
  specs : SpecLog

abbrev DeskProc (α : Type) := Proc SpecDesk String α

def onMail {α : Type} (p : StoreProc α) : DeskProc α := Proc.on (·.db) (fun db s => { s with db }) p

def onSpecs {α : Type} (p : SpecProc α) : DeskProc α :=
  Proc.on (·.specs) (fun specs s => { s with specs }) p

def readDesk : DeskProc SpecDesk := fun s => (.ok s, s)

/-! ## The request -/

/-- What the request of a lock shows of a spec. -/
def StoredSpec.shown (spec : StoredSpec) : SpecRecord where
  taskId := spec.taskId
  criteria := spec.criteria.map fun criterion => ⟨criterion.text, criterion.verify⟩

/-- The specs as the requests show them. -/
def shownSpecs (t : SpecRows) : SpecTables := t.view StoredSpec.shown fun _ _ h => h

theorem find?_shownSpecs {t : SpecRows} {taskId : String} :
    (shownSpecs t).find? taskId = (selectSpec t taskId).map StoredSpec.shown :=
  Table.find?_view (fun _ => rfl) _

/-! ## The answer -/

/-- The task that a key of the reserved namespace names. -/
def taskIdFromSpecLockApprovalKey (key : Option String) : Option String :=
  (key.bind (afterPrefix? "spec-lock:")).filter (· ≠ "")

def isSpecLockApproval (mail : DeliveredMail) : Bool :=
  mail.type = .approval && (taskIdFromSpecLockApprovalKey mail.idempotencyKey).isSome

/-- What the operator's decision does to the spec of the request. -/
def applyApprovalLockSideEffect (approval : DeliveredMail) (decision : ApprovalDecision) :
    SpecProc (Option StoredSpec) :=
  if approval.type ≠ .approval then pure none
  else
    match taskIdFromSpecLockApprovalKey approval.idempotencyKey with
    | none => pure none
    | some taskId => do
      let current ← SpecStore.getSpec taskId
      match decision, current.filter (·.state = .locked) with
      | .decline, some _ =>
        throw (s!"spec-lock approval '{taskId}' already locked the spec; retry with approve to " ++
          "record the matching approval_response.")
      | .decline, none => return none
      | .approve, some current => return some current
      | .approve, none =>
        let spec ← lockSpec taskId OPERATOR
        return some spec

/-- A call of `co_mail_send`; a reply names the mail that it answers. -/
structure MailSendCall extends MailSendInput where
  inReplyTo : Option ℕ := none
deriving DecidableEq, Repr

/-- What is checked of a reply before it does anything. -/
def replyChecks (specsWired : Bool) (seq : ℕ) (input : MailSendInput)
    (answered : DeliveredMail) : Except String Unit := do
  refuse (input.lockTaskId.isSome = true)
    ("co_mail_send: lock_task_id is only valid for a new approval request; omit " ++
      "in_reply_to and use the spec-lock request path.")
  refuse (input.decision.isSome = true ∧ input.type ≠ .approvalResponse)
    (s!"co_mail_send: decision is only valid on an '{MailType.approvalResponse}' reply " ++
      s!"(got type '{input.type}').")
  refuse (input.type = .approvalResponse ∧ answered.resolved = true)
    s!"co_mail_send: mail {seq} is already resolved."
  refuse (input.type = .approvalResponse ∧ input.decision.isSome = true ∧
      isSpecLockApproval answered = true ∧ specsWired = false)
    ("co_mail_send: cannot resolve a spec-lock approval_response without an injected spec " ++
      "store.")

/-- What a decision on the request of a lock does before the reply is sent. -/
def replySideEffect (input : MailSendInput) (answered : DeliveredMail) : DeskProc Unit :=
  match input.decision with
  | some decision =>
    if input.type = .approvalResponse ∧ isSpecLockApproval answered = true then do
      let _ ← onSpecs (applyApprovalLockSideEffect answered decision)
    else pure ()
  | none => pure ()

/-- `co_mail_send` for a reply. -/
def mailReplyTool (delivery : Delivery) (agent : String) (specsWired : Bool) (seq : ℕ)
    (input : MailSendInput) : DeskProc DeliveredMail := do
  let desk ← readDesk
  let answered ← orThrow ((Mail.inboxForRecipient desk.db.mail agent).find? (·.seq == seq))
    (s!"co_mail_send: cannot reply to mail {seq} — it is not in {agent}'s inbox (you must be " ++
      "its recipient).")
  replyChecks specsWired seq input answered
  replySideEffect input answered
  onMail (Mail.MailStore.reply delivery answered {
    type := input.type
    subject := input.subject
    body := input.body
    «from» := some agent
    idempotencyKey := input.idempotencyKey
    decision := input.decision })

/-- `co_mail_send`. -/
def coMailSend (delivery : Delivery) (agent : String) (specsWired : Bool) (input : MailSendCall) :
    DeskProc DeliveredMail :=
  match input.inReplyTo with
  | some seq => mailReplyTool delivery agent specsWired seq input.toMailSendInput
  | none => do
    let desk ← readDesk
    let specs := if specsWired then some (shownSpecs desk.specs.tables) else none
    onMail (mailSendTool delivery agent specs input.toMailSendInput)

/-- The operator's decision on an approval, from the console. -/
def handleApprove (delivery : Delivery) (approvalSeq : ℕ) (decision : ApprovalDecision)
    (subject body : String) : DeskProc DeliveredMail := do
  let desk ← readDesk
  let found ← orThrow
    ((Mail.inboxForRecipient desk.db.mail OPERATOR).find? (·.seq == approvalSeq))
    s!"operator IPC approve: no mail seq={approvalSeq} in '{OPERATOR}' inbox."
  refuse (found.type ≠ .approval)
    s!"operator IPC approve: mail seq={approvalSeq} is '{found.type}', not an approval."
  refuse (found.resolved = true)
    s!"operator IPC approve: mail seq={approvalSeq} is already resolved."
  let _ ← onSpecs (applyApprovalLockSideEffect found decision)
  onMail (Mail.MailStore.reply delivery found {
    type := .approvalResponse
    subject
    body
    decision := some decision })

/-! ## The rows of the inbox -/

section

variable {E : MailEnvelope → Prop} {R : EventClass} {db db' : Db}

/-- An event that is appended is a fresh mail, or no mail. -/
theorem mail_or_receipt {event : NewEvent Payload} (h : Mail.Appends E R db event) :
    (∃ envelope e, E envelope ∧ Mail.makeMailEvent envelope = .ok e ∧
      Mail.existingForKey db.mail envelope = none ∧ event = Mail.toProject e) ∨
      ∀ type p, event.payload ≠ .mail (.mail type p) := by
  cases h with
  | @mail envelope e hE he hfresh => exact .inl ⟨envelope, e, hE, he, hfresh, rfl⟩
  | read he =>
    simp only [Mail.makeMailReadEvent, bind_eq_ok, pure_eq_ok] at he
    obtain ⟨-, -, rfl⟩ := he
    exact .inr (by simp [Mail.toProject, NewEvent.withPayload])
  | forwarded he =>
    simp only [Mail.makeMailForwardEvent, bind_eq_ok, pure_eq_ok] at he
    obtain ⟨-, -, -, -, payload, hmake, rfl⟩ := he
    obtain rfl := Mail.mailSchemas_receipt (by simp) hmake
    exact .inr (by simp [Mail.toProject, NewEvent.withPayload])
  | retracted he =>
    simp only [Mail.makeMailRetractEvent, bind_eq_ok, pure_eq_ok] at he
    obtain ⟨-, -, rfl⟩ := he
    exact .inr (by simp [Mail.toProject, NewEvent.withPayload])
  | liveEffect he =>
    simp only [Mail.makeMailLiveEffectEvent, bind_eq_ok, pure_eq_ok] at he
    obtain ⟨payload, hmake, rfl⟩ := he
    obtain rfl := Mail.mailSchemas_receipt (by simp) hmake
    exact .inr (by simp [Mail.toProject, NewEvent.withPayload])
  | other hother _ => exact .inr fun type p => hother _

/-- A row was there before, or it was delivered from one of the envelopes. -/
theorem row_of_emits (h : Emits (Mail.Writes E R) db db') :
    ∀ row ∈ db'.mail.inbox, (∃ old ∈ db.mail.inbox, row.fixed = old.fixed) ∨
      ∃ envelope, E envelope ∧ ∃ seq ts, row.fixed = (deliveredRow envelope seq ts).fixed := by
  induction h with
  | refl => exact fun row hrow => .inl ⟨row, hrow, rfl⟩
  | @tail mid last _ hcommits ih =>
    intro row hrow
    obtain ⟨event, ⟨hevent, -⟩, hcommit⟩ := hcommits
    have hold : ∀ old ∈ mid.mail.inbox, row.fixed = old.fixed →
        (∃ old ∈ db.mail.inbox, row.fixed = old.fixed) ∨
          ∃ envelope, E envelope ∧ ∃ seq ts, row.fixed = (deliveredRow envelope seq ts).fixed := by
      intro old hmem hfixed
      rw [hfixed]
      exact ih old hmem
    rcases mail_or_receipt hevent with ⟨envelope, e, hE, he, hfresh, rfl⟩ | hreceipt
    · rcases ((Mail.added_of_fresh he hfresh hcommit).mem row).1 hrow with rfl | ⟨old, hmem, rfl⟩
      · exact .inr ⟨envelope, hE, _, _, rfl⟩
      · exact hold old hmem (Mail.fixed_answered _ old)
    · obtain ⟨old, hmem, hfixed⟩ := Mail.old_row_of_receipt hcommit hreceipt hrow
      exact hold old hmem hfixed

end

/-! ## Requests of a lock -/

/-- The mail asks for the lock of the spec of a task. -/
def RequestsLock (taskId : String) (mail : DeliveredMail) : Prop :=
  mail.type = .approval ∧ taskIdFromSpecLockApprovalKey mail.idempotencyKey = some taskId

/-- The mail shows the operator the criteria of the spec. -/
def Shows (spec : StoredSpec) (mail : DeliveredMail) : Prop :=
  mail.recipient = OPERATOR ∧
    mail.body = (buildSpecLockApprovalEnvelope mail.sender spec.taskId spec.shown).body

/-- A request of a lock shows the spec of its task. -/
def Minted (t : SpecRows) (mail : DeliveredMail) : Prop :=
  ∀ taskId, RequestsLock taskId mail → ∃ spec, selectSpec t taskId = some spec ∧ Shows spec mail

theorem taskId_of_selectSpec {t : SpecRows} {taskId : String} {spec : StoredSpec}
    (h : selectSpec t taskId = some spec) : spec.taskId = taskId := (Table.find?_eq_some.1 h).2

theorem taskIdFrom_eq_some {key : Option String} {taskId : String} :
    taskIdFromSpecLockApprovalKey key = some taskId ↔
      taskId ≠ "" ∧ key = some (specLockApprovalKey taskId) := by
  rw [taskIdFromSpecLockApprovalKey, Option.filter_eq_some_iff, Option.bind_eq_some_iff,
    decide_eq_true_iff, and_comm]
  refine and_congr_right fun _ => ?_
  constructor
  · rintro ⟨key, rfl, hkey⟩
    rw [eq_append_of_afterPrefix? hkey, specLockApprovalKey]
  · rintro rfl
    exact ⟨_, rfl, afterPrefix?_append _ _⟩

theorem taskIdFrom_of_notReserved {key : Option String} (h : isSpecLockApprovalKey key = false) :
    taskIdFromSpecLockApprovalKey key = none := by
  cases hname : taskIdFromSpecLockApprovalKey key with
  | none => rfl
  | some taskId =>
    obtain ⟨-, rfl⟩ := taskIdFrom_eq_some.1 hname
    simp [isSpecLockApprovalKey, specLockApprovalKey] at h

theorem Shows.keeps {spec spec' : StoredSpec} {mail : DeliveredMail} (h : Shows spec mail)
    (hkeeps : Keeps spec spec') (htask : spec'.taskId = spec.taskId) : Shows spec' mail := by
  obtain ⟨hrecipient, hbody⟩ := h
  have hshown : spec'.shown = spec.shown := by
    rw [StoredSpec.shown, StoredSpec.shown, hkeeps.criteria, htask]
  exact ⟨hrecipient, by rw [htask, hshown, hbody]⟩

theorem Minted.later {s s' : SpecLog} {mail : DeliveredMail} (h : Minted s.tables mail)
    (hlater : Later s s') : Minted s'.tables mail := by
  intro taskId hrequests
  obtain ⟨spec, hspec, hshows⟩ := h taskId hrequests
  obtain ⟨spec', hspec', hkeeps⟩ := hlater taskId spec hspec
  have htask : spec'.taskId = spec.taskId :=
    (taskId_of_selectSpec hspec').trans (taskId_of_selectSpec hspec).symm
  exact ⟨spec', hspec', hshows.keeps hkeeps htask⟩

/-- What a request shows stands in its fixed columns. -/
theorem Minted.fixed {t : SpecRows} {mail mail' : DeliveredMail} (h : Minted t mail)
    (hfixed : mail'.fixed = mail.fixed) : Minted t mail' := by
  intro taskId hrequests
  have hsame : RequestsLock taskId mail := by
    change RequestsLock taskId mail.fixed
    rw [← hfixed]
    exact hrequests
  obtain ⟨spec, hspec, hshows⟩ := h taskId hsame
  refine ⟨spec, hspec, ?_⟩
  change Shows spec mail'.fixed
  rw [hfixed]
  exact hshows

/-- Every request of a lock in the inbox shows the spec of its task. -/
def AllMinted (s : SpecDesk) : Prop := ∀ mail ∈ s.db.mail.inbox, Minted s.specs.tables mail

theorem AllMinted.later {db : Db} {s s' : SpecLog} (h : AllMinted { db, specs := s })
    (hlater : Later s s') : AllMinted { db, specs := s' } :=
  fun mail hmail => (h mail hmail).later hlater

theorem AllMinted.emits {R : EventClass} {db db' : Db} {s : SpecLog} {E : MailEnvelope → Prop}
    (h : AllMinted { db, specs := s }) (hemits : Emits (Mail.Writes E R) db db')
    (hE : ∀ envelope seq ts, E envelope → Minted s.tables (deliveredRow envelope seq ts)) :
    AllMinted { db := db', specs := s } := by
  intro mail hmail
  rcases row_of_emits hemits mail hmail with ⟨old, hold, hfixed⟩ | ⟨envelope, henv, seq, ts, hfixed⟩
  · exact (h old hold).fixed hfixed
  · exact (hE envelope seq ts henv).fixed hfixed

/-! ## Locks -/

/-- A step that locks the spec of a task is a lock of that task. -/
theorem locked_of_record {verb : String} {event : SpecEvent} {s : SpecLog} {taskId : String}
    {spec : StoredSpec}
    (hbefore : ∀ old, selectSpec s.tables taskId = some old → old.state ≠ .locked)
    (hspec : selectSpec ((SpecStore.record verb event).exec s).tables taskId = some spec)
    (hlocked : spec.state = .locked) : ∃ lockedBy, event = .locked { taskId, lockedBy } := by
  rcases SpecStore.record_exec verb event s with hsame | ⟨hnone, hrecord⟩
  · rw [hsame] at hspec
    exact absurd hlocked (hbefore spec hspec)
  · obtain ⟨-, new, hturns, hselect⟩ := turns_of_record hnone hrecord
    rw [hselect taskId] at hspec
    by_cases htask : taskId = event.taskId
    · rw [if_pos htask] at hspec
      obtain rfl := Option.some.inj hspec
      generalize selectSpec s.tables event.taskId = old at hturns
      cases hturns with
      | draft hevent => cases hlocked
      | lock hevent hstate =>
        obtain rfl : event = _ := hevent
        exact ⟨_, by rw [htask]; rfl⟩
      | archive hevent hstate => cases hlocked
    · rw [if_neg htask] at hspec
      exact absurd hlocked (hbefore spec hspec)

/-- A sequence ends where its parts end, whether they throw or not. -/
theorem exec_then {σ ε α β : Type} {R : σ → σ → Prop} {p : Proc σ ε α} {f : α → Proc σ ε β} {s : σ}
    (hp : R s (p.exec s)) (hf : ∀ a, R s ((f a).exec (p.exec s))) : R s ((p >>= f).exec s) := by
  refine Proc.exec_bind (fun e s' h => ?_) fun a s' h => ?_
  · have hexec : p.exec s = s' := congrArg Prod.snd h
    rwa [← hexec]
  · have hexec : p.exec s = s' := congrArg Prod.snd h
    rw [← hexec]
    exact hf a

/-- The lock of a spec is refused, or it is recorded. -/
theorem lockSpec_cases (taskId lockedBy : String) (s : SpecLog) :
    (lockSpec taskId lockedBy).exec s = s ∨
      (lockSpec taskId lockedBy).exec s = (SpecStore.recordLock taskId lockedBy).exec s := by
  rw [lockSpec_exec]
  simp only [Run.after_cons, Run.after_nil, SpecCall.exec]
  cases lockChecks taskId (selectSpec s.tables taskId) with
  | error e => exact .inl (by simp)
  | ok u => exact .inr (by simp)

/-- What an answer does to the specs: nothing, or it locks the spec that the request names. -/
theorem applyApproval_exec (approval : DeliveredMail) (decision : ApprovalDecision) (s : SpecLog) :
    (applyApprovalLockSideEffect approval decision).exec s = s ∨
      ∃ taskId, decision = .approve ∧ RequestsLock taskId approval ∧
        (applyApprovalLockSideEffect approval decision).exec s =
          (SpecStore.recordLock taskId OPERATOR).exec s := by
  unfold applyApprovalLockSideEffect
  split
  · exact .inl rfl
  · next htype =>
    cases hname : taskIdFromSpecLockApprovalKey approval.idempotencyKey with
    | none => exact .inl rfl
    | some taskId =>
      have hread : SpecStore.getSpec taskId s = (.ok (selectSpec s.tables taskId), s) := rfl
      simp only [Proc.exec]
      rw [Proc.bind_apply hread]
      cases hlocked : (selectSpec s.tables taskId).filter (·.state = .locked) with
      | some current => cases decision <;> exact .inl rfl
      | none =>
        cases decision with
        | decline => exact .inl rfl
        | approve =>
          have hrequests : RequestsLock taskId approval := ⟨not_not.1 htype, hname⟩
          have hexec : ((lockSpec taskId OPERATOR >>= fun spec => pure (some spec) :
              SpecProc (Option StoredSpec)).exec s) = (lockSpec taskId OPERATOR).exec s :=
            exec_then (R := fun _ s' => s' = (lockSpec taskId OPERATOR).exec s) rfl fun _ => rfl
          exact (lockSpec_cases taskId OPERATOR s).imp hexec.trans fun hlock =>
            ⟨taskId, rfl, hrequests, hexec.trans hlock⟩

/-! ## The desk -/

/-- A call on the desk. -/
inductive DeskCall where
  | send (delivery : Delivery) (agent : String) (specsWired : Bool) (input : MailSendCall)
  | approve (delivery : Delivery) (approvalSeq : ℕ) (decision : ApprovalDecision)
    (subject body : String)
  | markRead (delivery : Delivery) (recipient : String) (seq : ℕ)
  | retract (delivery : Delivery) (sender : String) (seq : ℕ)
  | draft (agent : String) (rec : SpecDrafted)
  | lock (taskId : String)
  | archive (taskId : String)

namespace DeskCall

def exec : DeskCall → SpecDesk → SpecDesk
  | send delivery agent specsWired input => (coMailSend delivery agent specsWired input).exec
  | approve delivery approvalSeq decision subject body =>
    (handleApprove delivery approvalSeq decision subject body).exec
  | markRead delivery recipient seq =>
    (onMail (Mail.MailStore.markRead delivery recipient seq)).exec
  | retract delivery sender seq => (onMail (Mail.MailStore.retract delivery sender seq)).exec
  | draft agent rec => (onSpecs (specDraftTool agent rec)).exec
  | lock taskId => (onSpecs (lockSpec taskId OPERATOR)).exec
  | archive taskId => (onSpecs (specArchiveTool taskId)).exec

/-- The call answers the operator's own mail with an approval under a reserved key. -/
def Forges : DeskCall → SpecDesk → Prop
  | send _ agent _ input, s => ∃ seq, input.inReplyTo = some seq ∧ input.type = .approval ∧
    isSpecLockApprovalKey input.idempotencyKey = true ∧
    ∃ answered ∈ (Mail.inboxForRecipient s.db.mail agent).find? (·.seq == seq),
      answered.sender = OPERATOR
  | _, _ => False

/-- The call approves the request as the operator. -/
def Approves : DeskCall → DeliveredMail → Prop
  | send _ agent _ input, request => agent = request.recipient ∧
    input.inReplyTo = some request.seq ∧ input.decision = some .approve
  | approve _ approvalSeq decision _ _, request =>
    OPERATOR = request.recipient ∧ approvalSeq = request.seq ∧ decision = .approve
  | _, _ => False

/-- The operator locks the spec by name, or by approving a request that names it. -/
def Blesses (call : DeskCall) (s : SpecDesk) (taskId : String) : Prop :=
  call = .lock taskId ∨
    ∃ request ∈ s.db.mail.inbox, RequestsLock taskId request ∧ call.Approves request

end DeskCall

/-- What became of the specs: nothing, or a step that the call may take. -/
def Takes (call : DeskCall) (s : SpecDesk) (specs : SpecLog) : Prop :=
  specs = s.specs ∨ ∃ verb event, specs = (SpecStore.record verb event).exec s.specs ∧
    ∀ taskId lockedBy, event = .locked { taskId, lockedBy } → call.Blesses s taskId

/-- What a call did. -/
structure Handles (call : DeskCall) (s s' : SpecDesk) : Prop where
  takes : Takes call s s'.specs
  minted : AllMinted s → AllMinted s'

section

variable {call : DeskCall} {s : SpecDesk}

theorem Takes.later {specs : SpecLog} (h : Takes call s specs) : Later s.specs specs := by
  rcases h with rfl | ⟨verb, event, rfl, -⟩
  · exact .refl _
  · exact later_exec verb event s.specs

theorem Handles.refl : Handles call s s := ⟨.inl rfl, id⟩

theorem Handles.specs {specs : SpecLog} (h : Takes call s specs) :
    Handles call s { s with specs } := ⟨h, fun hs => hs.later h.later⟩

/-- What is mailed after the specs moved keeps the requests minted, if no forged one is mailed. -/
theorem Handles.mail {specs : SpecLog} {db' : Db} {E : MailEnvelope → Prop} {R : EventClass}
    (h : Takes call s specs) (hemits : Emits (Mail.Writes E R) s.db db')
    (hE : ∀ envelope seq ts, E envelope → Minted specs.tables (deliveredRow envelope seq ts)) :
    Handles call s { db := db', specs } :=
  ⟨h, fun hs => AllMinted.emits (AllMinted.later hs h.later) hemits hE⟩

/-- A mail that requests no lock. -/
def Plain (envelope : MailEnvelope) : Prop :=
  envelope.type = .approval → taskIdFromSpecLockApprovalKey envelope.idempotencyKey = none

theorem Plain.minted {t : SpecRows} {envelope : MailEnvelope} {seq ts : ℕ} (h : Plain envelope) :
    Minted t (deliveredRow envelope seq ts) := by
  rintro taskId ⟨htype, hname⟩
  exact absurd ((h htype).symm.trans hname) (by simp)

end

/-! ## What a call does -/

theorem readDesk_bind {α : Type} {f : SpecDesk → DeskProc α} {s : SpecDesk} :
    (readDesk >>= f).exec s = (f s).exec s := rfl

theorem onMail_exec {α : Type} (p : StoreProc α) (s : SpecDesk) :
    (onMail p).exec s = { s with db := p.exec s.db } := rfl

theorem onSpecs_exec {α : Type} (p : SpecProc α) (s : SpecDesk) :
    (onSpecs p).exec s = { s with specs := p.exec s.specs } := rfl

/-- An approval goes to the operator. -/
theorem toOperator_of_validate {envelope : MailEnvelope} {payload : Mail.MailPayload}
    (h : Mail.validateEnvelope envelope = .ok payload) (htype : envelope.type = .approval) :
    envelope.to = OPERATOR := by
  simp only [Mail.validateEnvelope, bind_eq_ok] at h
  obtain ⟨-, -, -, -, h⟩ := h
  split at h
  · exact (throw_eq_ok.1 h).elim
  · next hnot => exact not_not.1 fun hto => hnot ⟨htype, hto⟩

/-- A reply requests no lock, unless it is an approval under a reserved key that answers the
operator. -/
theorem reply_emits {R : EventClass} {delivery : Delivery} {toMail : DeliveredMail}
    {draft : ReplyDraft} {db : Db}
    (h : ∀ current ∈ db.mail.inbox, current.seq = toMail.seq → draft.type = .approval →
      isSpecLockApprovalKey draft.idempotencyKey = true → current.sender ≠ OPERATOR) :
    Emits (Mail.Writes Plain R) db ((Mail.MailStore.reply delivery toMail draft).exec db) := by
  unfold Mail.MailStore.reply
  rw [Mail.exec_reading_bind]
  refine Proc.exec_liftM_bind .refl fun current hcurrent => ?_
  obtain ⟨hmem, hseq⟩ := Mail.selectMailBySeq_eq_some.1 (orThrow_eq_ok.1 hcurrent)
  refine Proc.exec_liftM_bind .refl fun _ _ => Proc.exec_liftM_bind .refl fun _ _ => ?_
  refine Proc.exec_liftM_bind .refl fun envelope henvelope => ?_
  refine Mail.send_emits fun htype => ?_
  simp only [Mail.buildReplyEnvelope, bind_eq_ok, pure_eq_ok] at henvelope
  obtain ⟨payload, hvalid, rfl⟩ := henvelope
  by_cases hreserved : isSpecLockApprovalKey draft.idempotencyKey = true
  · exact absurd (toOperator_of_validate hvalid htype) (h current hmem hseq htype hreserved)
  · exact taskIdFrom_of_notReserved (Bool.eq_false_iff.2 hreserved)

/-- A decision takes a step that the call may take, where the call approves the request. -/
theorem takes_of_decision {call : DeskCall} {s : SpecDesk} {request : DeliveredMail}
    {decision : ApprovalDecision} (hmem : request ∈ s.db.mail.inbox)
    (happroves : decision = .approve → call.Approves request) :
    Takes call s ((applyApprovalLockSideEffect request decision).exec s.specs) := by
  rcases applyApproval_exec request decision s.specs with hsame | ⟨taskId, hdecision, hnames, hlock⟩
  · exact .inl hsame
  · refine .inr ⟨_, _, hlock, fun taskId' lockedBy hevent => ?_⟩
    obtain ⟨rfl, -⟩ := SpecLocked.mk.inj (SpecEvent.locked.inj hevent)
    exact .inr ⟨request, hmem, hnames, happroves hdecision⟩

theorem mem_of_find {t : Mail.MailTables} {recipient : String} {seq : ℕ} {mail : DeliveredMail}
    (h : (Mail.inboxForRecipient t recipient).find? (·.seq == seq) = some mail) :
    mail ∈ t.inbox ∧ mail.recipient = recipient ∧ mail.seq = seq := by
  have hmem := List.mem_of_find?_eq_some h
  have hseq := List.find?_some h
  simp only [Mail.inboxForRecipient, List.mem_filter, Bool.and_eq_true, beq_iff_eq] at hmem
  exact ⟨hmem.1, hmem.2.1, beq_iff_eq.1 hseq⟩

/-- The specs after the decision of a reply. -/
theorem replySideEffect_exec (input : MailSendInput) (answered : DeliveredMail) (s : SpecDesk) :
    (replySideEffect input answered).exec s = s ∨
      ∃ decision, input.decision = some decision ∧ (replySideEffect input answered).exec s =
        { s with specs := (applyApprovalLockSideEffect answered decision).exec s.specs } := by
  rw [replySideEffect]
  cases hdecision : input.decision with
  | none => exact .inl rfl
  | some decision =>
    split
    · next found heq =>
      obtain rfl := Option.some.inj heq
      split
      · refine .inr ⟨decision, rfl, ?_⟩
        rw [← onSpecs_exec]
        exact exec_then (R := fun s s' => s' = (onSpecs
          (applyApprovalLockSideEffect answered decision)).exec s) rfl fun _ => rfl
      · exact .inl rfl
    · next heq => exact nomatch heq

variable {s : SpecDesk}

theorem handles_reply {delivery : Delivery} {agent : String} {specsWired : Bool}
    {input : MailSendCall} {seq : ℕ} (hreply : input.inReplyTo = some seq)
    (hforged : ¬ (DeskCall.send delivery agent specsWired input).Forges s) :
    Handles (.send delivery agent specsWired input) s
      ((mailReplyTool delivery agent specsWired seq input.toMailSendInput).exec s) := by
  unfold mailReplyTool
  rw [readDesk_bind]
  refine Proc.exec_liftM_bind .refl fun answered hanswered => ?_
  have hfound := orThrow_eq_ok.1 hanswered
  obtain ⟨hmem, hrecipient, hseq⟩ := mem_of_find hfound
  refine Proc.exec_liftM_bind .refl fun _ _ => ?_
  obtain ⟨specs, hexec, htakes⟩ : ∃ specs,
      (replySideEffect input.toMailSendInput answered).exec s = { s with specs } ∧
        Takes (.send delivery agent specsWired input) s specs := by
    rcases replySideEffect_exec input.toMailSendInput answered s with
      hsame | ⟨decision, hdecision, hexec⟩
    · exact ⟨s.specs, hsame, .inl rfl⟩
    · refine ⟨_, hexec, takes_of_decision hmem fun happrove => ?_⟩
      exact ⟨hrecipient.symm, by rw [hseq, hreply], by rw [hdecision, happrove]⟩
  refine exec_then ?_ fun _ => ?_
  · rw [hexec]
    exact .specs htakes
  · rw [hexec, onMail_exec]
    refine .mail htakes (@reply_emits AnyEvent delivery answered _ s.db ?_)
      fun _ _ _ hplain => hplain.minted
    intro current hcurrent hsame htype hreserved hsender
    obtain rfl := Mail.DeliveredMail.eq_of_seq_eq hcurrent hmem hsame
    exact hforged ⟨seq, hreply, htype, hreserved, current, hfound, hsender⟩

/-- The mail that asks for the lock of a spec shows the spec. -/
theorem minted_request {t : SpecRows} {agent taskId : String} {spec : StoredSpec} {seq ts : ℕ}
    (hspec : selectSpec t taskId = some spec) :
    Minted t (deliveredRow (buildSpecLockApprovalEnvelope agent taskId spec.shown) seq ts) := by
  rintro taskId' ⟨-, hname⟩
  obtain ⟨-, hkey⟩ := taskIdFrom_eq_some.1 hname
  have hsame : taskId = taskId' := by
    have happended : "spec-lock:" ++ taskId = "spec-lock:" ++ taskId' := Option.some.inj hkey
    exact (String.append_right_inj _).1 happended
  subst hsame
  refine ⟨spec, hspec, rfl, ?_⟩
  rw [taskId_of_selectSpec hspec]
  rfl

theorem handles_request {delivery : Delivery} {agent : String} {specsWired : Bool}
    {input : MailSendCall} (hnew : input.inReplyTo = none) :
    Handles (.send delivery agent specsWired input) s
      ((coMailSend delivery agent specsWired input).exec s) := by
  have hemits : ∀ specs : Option SpecTables,
      (∀ tables ∈ specs, tables = shownSpecs s.specs.tables) →
      Emits (Mail.Writes (fun envelope => ∀ seq ts,
        Minted s.specs.tables (deliveredRow envelope seq ts)) AnyEvent) s.db
        ((mailSendTool delivery agent specs input.toMailSendInput).exec s.db) := by
    intro specs hspecs
    rw [mailSendTool]
    cases hlock : input.lockTaskId with
    | none =>
      refine Proc.exec_liftM_bind .refl fun _ hreserved => ?_
      refine Proc.exec_liftM_bind .refl fun recipient _ => ?_
      refine Mail.send_emits fun seq ts => Plain.minted fun _ => ?_
      exact taskIdFrom_of_notReserved (Bool.eq_false_iff.2 (refuse_eq_ok.1 hreserved))
    | some taskId =>
      refine Proc.exec_liftM_bind .refl fun _ _ => ?_
      refine Proc.exec_liftM_bind .refl fun tables htables => ?_
      obtain rfl := hspecs tables (orThrow_eq_ok.1 htables)
      refine Proc.exec_liftM_bind .refl fun shown hshown => ?_
      have hfound := orThrow_eq_ok.1 hshown
      rw [find?_shownSpecs] at hfound
      obtain ⟨spec, hspec, rfl⟩ := Option.map_eq_some_iff.1 hfound
      exact Mail.send_emits fun seq ts => minted_request hspec
  unfold coMailSend
  rw [hnew]
  refine Handles.mail (.inl rfl) (hemits _ fun tables htables => ?_) fun _ _ _ h => h _ _
  cases specsWired with
  | true => exact (Option.some.inj htables).symm
  | false => cases htables

theorem handles_approve {delivery : Delivery} {approvalSeq : ℕ} {decision : ApprovalDecision}
    {subject body : String} : Handles (.approve delivery approvalSeq decision subject body) s
      ((handleApprove delivery approvalSeq decision subject body).exec s) := by
  unfold handleApprove
  rw [readDesk_bind]
  refine Proc.exec_liftM_bind .refl fun found hfound => ?_
  obtain ⟨hmem, hrecipient, hseq⟩ := mem_of_find (orThrow_eq_ok.1 hfound)
  refine Proc.exec_liftM_bind .refl fun _ _ => Proc.exec_liftM_bind .refl fun _ _ => ?_
  have htakes : Takes (.approve delivery approvalSeq decision subject body) s
      ((applyApprovalLockSideEffect found decision).exec s.specs) :=
    takes_of_decision hmem fun happrove => ⟨hrecipient.symm, hseq.symm, happrove⟩
  refine exec_then ?_ fun _ => ?_
  · rw [onSpecs_exec]
    exact .specs htakes
  · rw [onSpecs_exec, onMail_exec]
    exact .mail htakes (@reply_emits AnyEvent delivery found _ s.db
      fun _ _ _ htype => nomatch htype) fun _ _ _ hplain => hplain.minted

/-- Nothing happened, or the event was recorded. -/
def Recorded (verb : String) (event : SpecEvent) (s s' : SpecLog) : Prop :=
  s' = s ∨ s' = (SpecStore.record verb event).exec s

/-- A step of the specs alone. -/
theorem handles_step (verb : String) (event : SpecEvent) {call : DeskCall}
    {p : SpecProc StoredSpec}
    (hexec : Recorded verb event s.specs (p.exec s.specs))
    (hbless : ∀ taskId lockedBy, event = .locked { taskId, lockedBy } → call.Blesses s taskId) :
    Handles call s ((onSpecs p).exec s) := by
  rw [onSpecs_exec]
  exact .specs (hexec.imp id fun hrecord => ⟨verb, event, hrecord, hbless⟩)

/-- What a call does, unless it forges a request. -/
theorem DeskCall.handles {call : DeskCall} (hforged : ¬ call.Forges s) :
    Handles call s (call.exec s) := by
  cases call with
  | send delivery agent specsWired input =>
    cases hreply : input.inReplyTo with
    | none => exact handles_request hreply
    | some seq =>
      have hexec : (coMailSend delivery agent specsWired input).exec s =
          (mailReplyTool delivery agent specsWired seq input.toMailSendInput).exec s := by
        rw [coMailSend, hreply]
      rw [DeskCall.exec, hexec]
      exact handles_reply hreply hforged
  | approve delivery approvalSeq decision subject body => exact handles_approve
  | markRead delivery recipient seq =>
    rw [DeskCall.exec, onMail_exec]
    exact @Handles.mail _ s _ _ Plain AnyEvent (.inl rfl) Mail.markRead_emits
      fun _ _ _ hplain => hplain.minted
  | retract delivery sender seq =>
    rw [DeskCall.exec, onMail_exec]
    exact @Handles.mail _ s _ _ Plain AnyEvent (.inl rfl) Mail.retract_emits
      fun _ _ _ hplain => hplain.minted
  | draft agent rec =>
    refine handles_step "recordDraft" (.drafted rec agent) ?_
      (by intro _ _ hevent; cases hevent)
    exact Proc.exec_liftM_bind (R := Recorded _ _) (.inl rfl) fun _ _ => .inr rfl
  | lock taskId =>
    refine handles_step _ _ (lockSpec_cases taskId OPERATOR s.specs) fun _ _ hevent => ?_
    obtain ⟨rfl, -⟩ := SpecLocked.mk.inj (SpecEvent.locked.inj hevent)
    exact .inl rfl
  | archive taskId =>
    refine handles_step "recordArchive" (.archived { taskId }) ?_
      (by intro _ _ hevent; cases hevent)
    refine exec_then (R := Recorded _ _) (.inl rfl) fun _ => ?_
    exact Proc.exec_liftM_bind (R := Recorded _ _) (.inl rfl) fun _ _ => .inr rfl

/-! ## Every run -/

abbrev deskRun (calls : List DeskCall) (s : SpecDesk) : SpecDesk := Run.after DeskCall.exec calls s

/-- A project that nobody has worked on. -/
def SpecDesk.start (clock : ℕ → ℕ) : SpecDesk where
  db := { Db.atRest with clock }
  specs := Specs.specs.start clock

/-- In every run in which nobody forges a request, every request of a lock shows the criteria of
its spec, and a spec is locked by the operator alone: by naming it, or by approving a request that
shows the criteria that are locked. -/
theorem approved_is_locked (clock : ℕ → ℕ) (calls : List DeskCall)
    (hcalls : Run.Guarded DeskCall.exec (fun call s => ¬ call.Forges s) calls (.start clock)) :
    let s := deskRun calls (.start clock)
    AllMinted s ∧ ∀ (call : DeskCall) (taskId : String) (spec : StoredSpec), ¬ call.Forges s →
      (∀ old, selectSpec s.specs.tables taskId = some old → old.state ≠ .locked) →
      selectSpec (call.exec s).specs.tables taskId = some spec → spec.state = .locked →
      call = .lock taskId ∨ ∃ request ∈ s.db.mail.inbox,
        RequestsLock taskId request ∧ call.Approves request ∧ Shows spec request := by
  intro s
  have hminted : AllMinted s :=
    Run.invariant AllMinted (fun call s hforged => (DeskCall.handles hforged).minted) hcalls
      fun _ hmail => absurd hmail List.not_mem_nil
  refine ⟨hminted, fun call taskId spec hforged hbefore hspec hlocked => ?_⟩
  obtain ⟨htakes, -⟩ := DeskCall.handles hforged
  have hlater := htakes.later
  rcases htakes with hsame | ⟨verb, event, hrecord, hbless⟩
  · rw [hsame] at hspec
    exact absurd hlocked (hbefore spec hspec)
  · rw [hrecord] at hspec
    obtain ⟨lockedBy, hevent⟩ := locked_of_record hbefore hspec hlocked
    refine (hbless taskId lockedBy hevent).imp id fun ⟨request, hmem, hnames, happroves⟩ => ?_
    obtain ⟨shown, hshown, hshows⟩ := (hminted request hmem).later hlater taskId hnames
    rw [hrecord] at hshown
    obtain rfl := Option.some.inj (hshown.symm.trans hspec)
    exact ⟨request, hmem, hnames, happroves, hshows⟩

/-- A lead drafts a spec and asks for its lock. -/
def lockRequested : List DeskCall :=
  [.draft "lead" {
      taskId := "parser"
      title := "Parser"
      goal := "Read the command line"
      criteria := [⟨"rejects an unclosed quote", some "pnpm vitest run parser"⟩]
      body := "" },
    .send .inProcess "lead" true {
      type := .approval
      subject := ""
      body := ""
      lockTaskId := some "parser" }]

/-- The operator approves the request, and the criteria that it shows are locked. -/
theorem approved_is_locked_once :
    let s := deskRun lockRequested (.start fun _ => 0)
    ∃ spec, selectSpec ((DeskCall.approve .inProcess 1 .approve "Lock" "ok").exec s).specs.tables
        "parser" = some spec ∧ spec.state = .locked ∧
      ∃ request ∈ s.db.mail.inbox, RequestsLock "parser" request ∧ Shows spec request := by
  intro s
  obtain ⟨spec, hspec, hlocked⟩ : ∃ spec, selectSpec ((DeskCall.approve .inProcess 1 .approve
      "Lock" "ok").exec s).specs.tables "parser" = some spec ∧ spec.state = .locked := by
    have hstate : (selectSpec ((DeskCall.approve .inProcess 1 .approve
        "Lock" "ok").exec s).specs.tables "parser").map (·.state) = some .locked := by
      decide +kernel
    exact Option.map_eq_some_iff.1 hstate
  have hbefore : ∀ old, selectSpec s.specs.tables "parser" = some old → old.state ≠ .locked := by
    have hdraft : (selectSpec s.specs.tables "parser").map (·.state) = some .draft := by
      decide +kernel
    intro old hold hstate
    rw [hold, Option.map_some, hstate] at hdraft
    exact absurd hdraft (by decide)
  obtain ⟨-, happroved⟩ := approved_is_locked (fun _ => 0) lockRequested
    ⟨id, fun ⟨_, hreply, _⟩ => (nomatch hreply), trivial⟩
  refine ⟨spec, hspec, hlocked, ?_⟩
  rcases happroved (.approve .inProcess 1 .approve "Lock" "ok") "parser" spec id hbefore hspec
    hlocked with hlock | ⟨request, hmem, hnames, -, hshows⟩
  · cases hlock
  · exact ⟨request, hmem, hnames, hshows⟩

/-- A reply to the operator's own mail is not refused the reserved key: the operator approves a
text that shows nothing, and the criteria are locked. -/
example :
    let calls := lockRequested.take 1 ++ [
      .send .inProcess OPERATOR true {
        «to» := some "lead", type := .operatorMessage, subject := "", body := "How is it going?" },
      .send .inProcess "lead" true {
        inReplyTo := some 1
        type := .approval
        subject := "Fine"
        body := "All tests pass."
        idempotencyKey := some (specLockApprovalKey "parser") },
      .approve .inProcess 2 .approve "Fine" "ok"]
    (selectSpec (deskRun calls (.start fun _ => 0)).specs.tables "parser").map (·.state) =
      some .locked := by
  decide +kernel

end Orchestration.Specs
