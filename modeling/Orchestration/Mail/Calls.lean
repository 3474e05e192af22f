import Orchestration.Library.Run
import Orchestration.Mail.Escalation
import Orchestration.Mail.ReviewAppends

/-!
# Calls of the mail store

Every call appends events of one class, each with what its transaction had
checked about the state it was appended to. The invariants of the inbox are
proved for the class, and so hold in every run of calls by any number of
handles.
-/

namespace Orchestration.Mail

open Fallible Transaction
open Orchestration.Review (ReviewRequested ReviewVerdictRecorded)

/-- What the mail store appends outside the clean-ups: the mails of the envelopes `E`, receipts,
and events of other domains that belong to `R`. -/
inductive Appends (E : MailEnvelope → Prop) (R : EventClass) (db : Db) : NewEvent Payload → Prop where
  | mail {envelope : MailEnvelope} {e : NewEvent MailEvent} (hE : E envelope)
      (he : makeMailEvent envelope = .ok e)
      (hfresh : existingForKey db.mail envelope = none) : Appends E R db (toProject e)
  | read {recipient : String} {seq : ℕ} {e : NewEvent MailEvent}
      (he : makeMailReadEvent recipient seq = .ok e) : Appends E R db (toProject e)
  | forwarded {item forwarded : DeliveredMail} {e : NewEvent MailEvent}
      (he : makeMailForwardEvent item.recipient item.seq forwarded.recipient = .ok e)
      (hitem : item ∈ db.mail.inbox) (hforwarded : forwarded ∈ db.mail.inbox)
      (hnewest : ∀ mail ∈ db.mail.inbox, mail.seq ≤ forwarded.seq)
      (hlt : item.seq < forwarded.seq) (hvisible : forwarded.retracted = false)
      (htype : forwarded.type = .escalation) (hsender : forwarded.sender = item.recipient)
      (hcause : forwarded.causationId = some (toString item.seq))
      (hthread : forwarded.correlationId = some item.threadId) : Appends E R db (toProject e)
  | retracted {sender : String} {seq : ℕ} {e : NewEvent MailEvent}
      (he : makeMailRetractEvent sender seq = .ok e)
      (hheld : (forwardedMailForHeld db.mail seq).isSome = false) : Appends E R db (toProject e)
  | liveEffect {effect : MailLiveEffect} {e : NewEvent MailEvent}
      (he : makeMailLiveEffectEvent effect = .ok e) : Appends E R db (toProject e)
  | other {event : NewEvent Payload} (hother : ∀ payload, event.payload ≠ .mail payload)
      (hR : R db event) : Appends E R db event

/-- The clean-up receipts. -/
inductive Clears (db : Db) : NewEvent Payload → Prop where
  | recipient {recipient : String} {e : NewEvent MailEvent}
      (he : makeMailRecipientClearedEvent recipient = .ok e) : Clears db (toProject e)
  | sender {sender recipient : String} {e : NewEvent MailEvent}
      (he : makeMailRecipientSenderClearedEvent recipient sender = .ok e) :
      Clears db (toProject e)

/-- A call of the mail store; the writes that a live delivery makes after a commit are calls of
their own. -/
inductive MailCall where
  | send (envelope : MailEnvelope)
  | reply (toMail : DeliveredMail) (draft : ReplyDraft)
  | requestHumanReview (envelope : MailEnvelope) (request : ReviewRequested)
  | replyWithReviewVerdict (toMail : DeliveredMail) (draft : ReplyDraft)
      (verdict : ReviewVerdictRecorded)
  | forward (held : DeliveredMail) (envelope : MailEnvelope)
  | resolve (held : DeliveredMail) (envelope : MailEnvelope) (relays : List MailEnvelope)
  | markRead (recipient : String) (seq : ℕ)
  | retract (sender : String) (seq : ℕ)
  | clearOutstanding (recipient : String)
  | clearOutstandingFromSenderToRecipient (sender recipient : String)
  | persistEffect (effect : MailLiveEffect)
deriving DecidableEq, Repr

namespace MailCall

/-- The database after a call through a handle with the given delivery. -/
def exec (delivery : Delivery) : MailCall → Db → Db
  | send envelope => (MailStore.send delivery envelope).exec
  | reply toMail draft => (MailStore.reply delivery toMail draft).exec
  | requestHumanReview envelope request => (MailStore.requestHumanReview envelope request).exec
  | replyWithReviewVerdict toMail draft verdict =>
    (MailStore.replyWithReviewVerdict toMail draft verdict).exec
  | forward held envelope => (MailStore.forward delivery held envelope).exec
  | resolve held envelope relays => (MailStore.resolve delivery held envelope relays).exec
  | markRead recipient seq => (MailStore.markRead delivery recipient seq).exec
  | retract sender seq => (MailStore.retract delivery sender seq).exec
  | clearOutstanding recipient => (MailStore.clearOutstanding delivery recipient).exec
  | clearOutstandingFromSenderToRecipient sender recipient =>
    (MailStore.clearOutstandingFromSenderToRecipient delivery sender recipient).exec
  | persistEffect effect => (transaction (LiveDelivery.persistEffect effect)).exec

/-- A bulk clean-up. -/
def clears : MailCall → Bool
  | clearOutstanding _ | clearOutstandingFromSenderToRecipient _ _ => true
  | _ => false

/-- An acknowledgement of a live effect. -/
def acknowledges : MailCall → Bool
  | persistEffect _ => true
  | _ => false

/-- A human-review operation, which commits review events with its mail. -/
def reviews : MailCall → Bool
  | requestHumanReview _ _ | replyWithReviewVerdict _ _ _ => true
  | _ => false

/-- The envelopes whose threading a call chooses freely; the others answer a persisted mail. -/
def freeEnvelopes : MailCall → List MailEnvelope
  | send envelope | requestHumanReview envelope _ => [envelope]
  | resolve _ _ relays => relays
  | _ => []

end MailCall

/-- The envelope answers a persisted mail in its thread. -/
def Threaded (t : MailTables) (envelope : MailEnvelope) : Prop :=
  ∃ item ∈ t.inbox, envelope.causationId = some (toString item.seq) ∧
    envelope.correlationId = some item.threadId

/-! ## Recovery writes nothing -/

theorem exec_reading_bind {α β : Type} {read : MailTables → α} {f : α → StoreProc β} {db : Db} :
    ((transaction (reading read) : StoreProc α) >>= f).exec db = (f (read db.mail)).exec db := rfl

theorem forwardOrRecover_exec {held : DeliveredMail} {envelope : MailEnvelope} {db : Db} :
    (LiveDelivery.forwardOrRecover held envelope).exec db =
      (transaction (InProcessDelivery.forward held envelope)).exec db := by
  refine Proc.exec_tryCatch fun e db' _ => ?_
  rw [exec_reading_bind]
  split <;> rfl

theorem forward_exec {delivery : Delivery} {held : DeliveredMail} {envelope : MailEnvelope}
    {db : Db} : (delivery.forward held envelope).exec db =
      (transaction (InProcessDelivery.forward held envelope)).exec db := by
  cases delivery with
  | inProcess => rfl
  | live => exact forwardOrRecover_exec

theorem recoverResolution_eq_ok {held : DeliveredMail} {envelope : MailEnvelope}
    {relays : List MailEnvelope} {result : Option (DeliveredMail × List DeliveredMail)}
    {db db' : Db}
    (h : LiveDelivery.recoverResolution held envelope relays db = .ok (result, db')) :
    db = db' := by
  simp only [LiveDelivery.recoverResolution, reading_bind] at h
  cases hheld : (selectMailBySeq db.mail held.seq).filter fun currentHeld =>
      currentHeld.recipient == held.recipient && currentHeld.type == .escalation &&
        currentHeld.kind == .actionable && currentHeld.resolved && !currentHeld.retracted with
  | none =>
    simp only [hheld, Tx.pure_eq_ok] at h
    exact h.2
  | some currentHeld =>
    simp only [hheld, Tx.liftM_bind_eq_ok] at h
    obtain ⟨-, -, h⟩ := h
    obtain ⟨_, rfl⟩ := Prod.mk.inj (Except.ok.inj h)
    rfl

theorem resolveOrRecover_exec {held : DeliveredMail} {envelope : MailEnvelope}
    {relays : List MailEnvelope} {db : Db} :
    (LiveDelivery.resolveOrRecover held envelope relays).exec db =
      (transaction (InProcessDelivery.resolveWithRelays held envelope relays)).exec db := by
  refine Proc.exec_tryCatch fun e db' _ => ?_
  refine Proc.exec_bind (R := Eq) ?_ ?_
  · intro _ s' h
    exact (transaction_error h).symm
  · intro recovered s' h
    obtain rfl := recoverResolution_eq_ok (transaction_eq_ok.1 h)
    cases recovered <;> rfl

theorem resolve_exec {delivery : Delivery} {held : DeliveredMail} {envelope : MailEnvelope}
    {relays : List MailEnvelope} {db : Db} : (delivery.resolve held envelope relays).exec db =
      (transaction (InProcessDelivery.resolveWithRelays held envelope relays)).exec db := by
  have hfst : ∀ p : StoreProc (DeliveredMail × List DeliveredMail),
      (p >>= fun result => pure result.1).exec db = p.exec db := by
    intro p
    refine Proc.exec_bind (R := fun _ s => s = p.exec db) ?_ ?_ <;>
      · intro _ s' h
        simp [Proc.exec, h]
  cases delivery with
  | inProcess => exact hfst _
  | live => exact (hfst _).trans resolveOrRecover_exec

/-! ## What a call appends -/

/-- An event that acknowledges no live effect. -/
def Unacknowledging (event : NewEvent Payload) : Prop :=
  ∀ effect, event.payload ≠ .mail (.liveEffect effect)

/-- What the calls append that do not acknowledge a live effect. -/
def Writes (E : MailEnvelope → Prop) (R : EventClass) : EventClass :=
  fun db event => Appends E R db event ∧ Unacknowledging event

theorem unacknowledging_of_mail {envelope : MailEnvelope} {e : NewEvent MailEvent}
    (he : makeMailEvent envelope = .ok e) : Unacknowledging (toProject e) := by
  simp only [makeMailEvent, bind_eq_ok, pure_eq_ok] at he
  obtain ⟨_, -, rfl⟩ := he
  simp [Unacknowledging, toProject, NewEvent.withPayload]

theorem unacknowledging_of_read {recipient : String} {seq : ℕ} {e : NewEvent MailEvent}
    (he : makeMailReadEvent recipient seq = .ok e) : Unacknowledging (toProject e) := by
  simp only [makeMailReadEvent, bind_eq_ok, pure_eq_ok] at he
  obtain ⟨-, -, rfl⟩ := he
  simp [Unacknowledging, toProject, NewEvent.withPayload]

theorem unacknowledging_of_retract {sender : String} {seq : ℕ} {e : NewEvent MailEvent}
    (he : makeMailRetractEvent sender seq = .ok e) : Unacknowledging (toProject e) := by
  simp only [makeMailRetractEvent, bind_eq_ok, pure_eq_ok] at he
  obtain ⟨-, -, rfl⟩ := he
  simp [Unacknowledging, toProject, NewEvent.withPayload]

theorem unacknowledging_of_forward {holder forwardedTo : String} {seq : ℕ} {e : NewEvent MailEvent}
    (he : makeMailForwardEvent holder seq forwardedTo = .ok e) : Unacknowledging (toProject e) := by
  simp only [makeMailForwardEvent, bind_eq_ok, pure_eq_ok] at he
  obtain ⟨-, -, -, -, payload, hmake, rfl⟩ := he
  obtain rfl := mailSchemas_receipt (by simp) hmake
  simp [Unacknowledging, toProject, NewEvent.withPayload]

theorem unacknowledging_of_other {event : NewEvent Payload}
    (hother : ∀ payload, event.payload ≠ .mail payload) : Unacknowledging event :=
  fun _ => hother _

theorem Clears.unacknowledging {db : Db} {event : NewEvent Payload} (h : Clears db event) :
    Unacknowledging event := by
  cases h with
  | recipient he =>
    simp only [makeMailRecipientClearedEvent, bind_eq_ok, pure_eq_ok] at he
    obtain ⟨-, -, rfl⟩ := he
    simp [Unacknowledging, toProject, NewEvent.withPayload]
  | sender he =>
    simp only [makeMailRecipientSenderClearedEvent, bind_eq_ok, pure_eq_ok] at he
    obtain ⟨-, -, -, -, rfl⟩ := he
    simp [Unacknowledging, toProject, NewEvent.withPayload]

theorem Writes.mail {E : MailEnvelope → Prop} {R : EventClass} {db : Db} {envelope : MailEnvelope}
    {e : NewEvent MailEvent} (hE : E envelope) (he : makeMailEvent envelope = .ok e)
    (hfresh : existingForKey db.mail envelope = none) : Writes E R db (toProject e) :=
  ⟨.mail hE he hfresh, unacknowledging_of_mail he⟩

theorem InProcessDelivery.Delivers.emits {E : MailEnvelope → Prop} {R : EventClass} {envelopes : List MailEnvelope}
    {db db' : Db} (h : InProcessDelivery.Delivers envelopes db db')
    (hE : ∀ envelope ∈ envelopes, E envelope) : Emits (Writes E R) db db' := by
  induction h with
  | nil db => exact .refl
  | cons he hfresh hcommit _ ih =>
    exact .head ⟨_, Writes.mail (hE _ List.mem_cons_self) he hfresh, hcommit⟩
      (ih fun envelope henvelope => hE envelope (List.mem_cons_of_mem _ henvelope))

/-- Events of other domains. -/
theorem emits_of_reviews {E : MailEnvelope → Prop} {R : EventClass} {db db' : Db}
    {events : List (NewEvent Payload)}
    (hR : ∀ s event, (∃ payload, event.payload = .review payload) → R s event)
    (hother : ∀ event ∈ events, ∃ payload, event.payload = .review payload)
    (h : db.commitAll events = .ok db') : Emits (Writes E R) db db' := by
  refine Emits.of_commitAll (fun event hevent s => ?_) h
  have hmail : ∀ payload, event.payload ≠ .mail payload := by
    intro payload hmail
    obtain ⟨payload', hpayload⟩ := hother event hevent
    rw [hpayload] at hmail
    cases hmail
  exact ⟨.other hmail (hR s event (hother event hevent)), unacknowledging_of_other hmail⟩

theorem TakesSlot.review {db : Db} {target branch : String} {slot : List (NewEvent Payload)}
    (h : TakesSlot db target branch slot) :
    ∀ event ∈ slot, ∃ payload, event.payload = .review payload := by
  cases h with
  | free _ hslot =>
    intro event hevent
    rw [List.mem_singleton.1 hevent]
    exact ⟨_, hslot.payload_eq⟩
  | held => simp

theorem ReleasesSlot.review {db : Db} {v : ReviewVerdictRecorded}
    {release : List (NewEvent Payload)} (h : ReleasesSlot db v release) :
    ∀ event ∈ release, ∃ payload, event.payload = .review payload := by
  cases h with
  | issues _ _ hrelease =>
    intro event hevent
    rw [List.mem_singleton.1 hevent]
    exact ⟨_, hrelease.payload_eq⟩
  | free => simp
  | pass => simp

/-- Events of other domains leave the mail tables alone. -/
theorem mail_of_commitAll {db db' : Db} {events : List (NewEvent Payload)}
    (hother : ∀ event ∈ events, ∃ payload, event.payload = .review payload)
    (h : db.commitAll events = .ok db') : db'.mail = db.mail := by
  induction events generalizing db with
  | nil => cases h; rfl
  | cons event events ih =>
    obtain ⟨mid, hmid, hrest⟩ := Db.commitAll_cons.1 h
    obtain ⟨payload, hpayload⟩ := hother event List.mem_cons_self
    rw [ih (fun e he => hother e (List.mem_cons_of_mem _ he)) hrest]
    exact mail_of_commit (by simp [hpayload]) hmid

/-- A batch that ends in a fresh mail. -/
theorem emits_of_reviews_mail {E : MailEnvelope → Prop} {R : EventClass} {db db' : Db}
    (hR : ∀ s event, (∃ payload, event.payload = .review payload) → R s event)
    (events : List (NewEvent Payload)) {envelope : MailEnvelope} {mail : NewEvent MailEvent}
    (hother : ∀ event ∈ events, ∃ payload, event.payload = .review payload) (hE : E envelope)
    (hmail : makeMailEvent envelope = .ok mail) (hfresh : existingForKey db.mail envelope = none)
    (h : db.commitAll (events ++ [toProject mail]) = .ok db') : Emits (Writes E R) db db' := by
  obtain ⟨mid, hevents, hlast⟩ := Db.commitAll_append.1 h
  obtain ⟨last, hcommit, hnil⟩ := Db.commitAll_cons.1 hlast
  obtain rfl := Except.ok.inj hnil
  refine (emits_of_reviews hR hother hevents).trans (Emits.single (Writes.mail hE hmail ?_) hcommit)
  rwa [mail_of_commitAll hother hevents]

section

variable {E : MailEnvelope → Prop} {R : EventClass} {delivery : Delivery} {db : Db}

theorem InProcessDelivery.deliverWithStatus_emits {envelope : MailEnvelope} {db' : Db}
    {result : DeliveryResult} (hE : E envelope)
    (h : InProcessDelivery.deliverWithStatus envelope db = .ok (result, db')) :
    Emits (Writes E R) db db' := by
  rcases InProcessDelivery.deliverWithStatus_eq_ok h with ⟨rfl, -⟩ | ⟨hfresh, -, e, he, hcommit⟩
  · exact .refl
  · exact .single (Writes.mail hE he hfresh) hcommit

theorem send_emits {envelope : MailEnvelope} (hE : E envelope) :
    Emits (Writes E R) db ((MailStore.send delivery envelope).exec db) := by
  refine Proc.exec_liftM_bind .refl fun _ _ => Proc.exec_liftM_bind .refl fun _ _ => ?_
  refine Proc.exec_transaction .refl fun mail db' h => ?_
  obtain ⟨result, last, hdeliver, h⟩ := Tx.bind_eq_ok.1 h
  obtain ⟨-, rfl⟩ := Tx.pure_eq_ok.1 h
  exact InProcessDelivery.deliverWithStatus_emits hE hdeliver

theorem buildReplyEnvelope_threaded {item : DeliveredMail} {draft : ReplyDraft}
    {envelope : MailEnvelope} (h : buildReplyEnvelope item draft = .ok envelope)
    (hitem : item ∈ db.mail.inbox) : Threaded db.mail envelope := by
  simp only [buildReplyEnvelope, bind_eq_ok, pure_eq_ok] at h
  obtain ⟨-, -, rfl⟩ := h
  exact ⟨item, hitem, rfl, rfl⟩

theorem reply_emits {toMail : DeliveredMail} {draft : ReplyDraft}
    (hE : ∀ envelope, Threaded db.mail envelope → E envelope) :
    Emits (Writes E R) db ((MailStore.reply delivery toMail draft).exec db) := by
  unfold MailStore.reply
  rw [exec_reading_bind]
  refine Proc.exec_liftM_bind .refl fun current hcurrent => ?_
  obtain ⟨hmem, -⟩ := selectMailBySeq_eq_some.1 (orThrow_eq_ok.1 hcurrent)
  refine Proc.exec_liftM_bind .refl fun _ _ => Proc.exec_liftM_bind .refl fun _ _ => ?_
  refine Proc.exec_liftM_bind .refl fun envelope henvelope => ?_
  exact send_emits (hE envelope (buildReplyEnvelope_threaded henvelope hmem))

theorem InProcessDelivery.forward_emits (hdb : Consistent db) {held mail : DeliveredMail}
    {envelope : MailEnvelope} {db' : Db} (hE : ∀ envelope, Threaded db.mail envelope → E envelope)
    (h : InProcessDelivery.forward held envelope db = .ok (mail, db')) :
    Emits (Writes E R) db db' := by
  obtain ⟨item, hitem, -, -, -, hassert, hfresh, e, receipt, mid, he, hcommit, hreceipt, hcommit'⟩ :=
    InProcessDelivery.forward_eq_ok hdb h
  obtain ⟨-, htype, hfrom, hcause, hthread⟩ := assertForwardEnvelope_eq_ok.1 hassert
  have hadded := added_of_fresh he hfresh hcommit
  have hfixed := fixed_answered (nextRow db envelope) item
  have hfields : answered (nextRow db envelope) item ∈ mid.mail.inbox ∧
      (answered (nextRow db envelope) item).seq = item.seq ∧
      (answered (nextRow db envelope) item).recipient = item.recipient ∧
      (answered (nextRow db envelope) item).threadId = item.threadId := by
    refine ⟨(hadded.mem _).2 (.inr ⟨item, hitem, rfl⟩), ?_, ?_, ?_⟩ <;>
      · unfold answered
        split <;> rfl
  obtain ⟨hmem, hseq, hrecipient, hthreadId⟩ := hfields
  have hbelow : ∀ old ∈ db.mail.inbox, old.seq < db.nextSeq := fun old hold =>
    (row_of_log hdb hold).2
  refine .head ⟨_, Writes.mail (hE _ ⟨item, hitem, hcause, hthread⟩) he hfresh, hcommit⟩
    (Emits.single ?_ hcommit')
  refine ⟨Appends.forwarded ?_ hmem ((hadded.mem _).2 (.inl rfl)) ?_ ?_ rfl htype ?_ ?_ ?_,
    unacknowledging_of_forward hreceipt⟩
  · rw [hrecipient, hseq]
    exact hreceipt
  · intro row hrow
    rcases (hadded.mem row).1 hrow with rfl | ⟨old, hold, rfl⟩
    · exact le_rfl
    · rw [seq_of_fixed (fixed_answered _ old)]
      exact (hbelow old hold).le
  · rw [hseq]
    exact hbelow item hitem
  · rw [hrecipient]
    exact hfrom
  · rw [hseq]
    exact hcause
  · rw [hthreadId]
    exact hthread

theorem forward_emits (hdb : Consistent db) {held : DeliveredMail} {envelope : MailEnvelope}
    (hE : ∀ envelope, Threaded db.mail envelope → E envelope) :
    Emits (Writes E R) db ((MailStore.forward delivery held envelope).exec db) := by
  refine Proc.exec_liftM_bind .refl fun _ _ => ?_
  rw [forward_exec]
  exact Proc.exec_transaction .refl fun mail db' h => InProcessDelivery.forward_emits hdb hE h

theorem InProcessDelivery.resolveWithRelays_emits (hdb : Consistent db) {held : DeliveredMail}
    {envelope : MailEnvelope} {relays : List MailEnvelope} {db' : Db}
    {result : DeliveredMail × List DeliveredMail}
    (hE : ∀ envelope, Threaded db.mail envelope → E envelope) (hrelays : ∀ relay ∈ relays, E relay)
    (h : InProcessDelivery.resolveWithRelays held envelope relays db = .ok (result, db')) :
    Emits (Writes E R) db db' := by
  obtain ⟨item, hitem, -, -, -, hassert, hdelivers⟩ :=
    InProcessDelivery.resolveWithRelays_eq_ok hdb h
  obtain ⟨-, -, -, -, hcause, hthread⟩ := assertResolutionEnvelope_eq_ok.1 hassert
  refine hdelivers.emits fun e he => ?_
  rcases List.mem_cons.1 he with rfl | he
  · exact hE e ⟨item, hitem, hcause, hthread⟩
  · exact hrelays e he

theorem resolve_emits (hdb : Consistent db) {held : DeliveredMail} {envelope : MailEnvelope}
    {relays : List MailEnvelope} (hE : ∀ envelope, Threaded db.mail envelope → E envelope)
    (hrelays : ∀ relay ∈ relays, E relay) :
    Emits (Writes E R) db ((MailStore.resolve delivery held envelope relays).exec db) := by
  have hchecks : ((envelope :: relays).forM fun envelope => (do
      let _ ← validateEnvelope envelope
      assertNotReviewMail envelope "mail resolve" : StoreProc PUnit)).exec db = db := by
    refine Proc.exec_forM fun relay s => ?_
    exact Proc.exec_liftM_bind (R := fun s s' => s' = s) rfl fun _ _ => rfl
  refine Proc.exec_bind (fun e s hs => ?_) fun _ s hs => ?_ <;>
    obtain rfl : s = db := by simpa [Proc.exec, hs] using hchecks
  · exact .refl
  rw [resolve_exec]
  exact Proc.exec_transaction .refl fun result db' h =>
    InProcessDelivery.resolveWithRelays_emits hdb hE hrelays h

theorem markRead_emits {recipient : String} {seq : ℕ} :
    Emits (Writes E R) db ((MailStore.markRead delivery recipient seq).exec db) := by
  refine Proc.exec_transaction .refl fun updated db' h => ?_
  obtain ⟨e, he, hcommit⟩ := InProcessDelivery.markRead_eq_ok h
  exact Emits.single ⟨.read he, unacknowledging_of_read he⟩ hcommit

theorem retract_emits {sender : String} {seq : ℕ} :
    Emits (Writes E R) db ((MailStore.retract delivery sender seq).exec db) := by
  refine Proc.exec_transaction .refl fun updated db' h => ?_
  obtain ⟨hheld, e, he, hcommit⟩ := InProcessDelivery.retract_eq_ok h
  exact Emits.single ⟨.retracted he hheld, unacknowledging_of_retract he⟩ hcommit

theorem persistEffect_emits {effect : MailLiveEffect} :
    Emits (Appends E R) db ((transaction (LiveDelivery.persistEffect effect)).exec db) := by
  refine Proc.exec_transaction .refl fun row db' h => ?_
  obtain ⟨e, he, hcommit⟩ := LiveDelivery.persistEffect_eq_ok h
  exact Emits.single (.liveEffect he) hcommit

theorem clearOutstanding_emits {recipient : String} :
    Emits Clears db ((MailStore.clearOutstanding delivery recipient).exec db) := by
  refine Proc.exec_transaction .refl fun count db' h => ?_
  rcases (InProcessDelivery.clearOutstanding_eq_ok h).2 with ⟨-, rfl⟩ | ⟨e, he, hcommit⟩
  · exact .refl
  · exact Emits.single (.recipient he) hcommit

theorem clearOutstandingFromSenderToRecipient_emits {sender recipient : String} :
    Emits Clears db
      ((MailStore.clearOutstandingFromSenderToRecipient delivery sender recipient).exec db) := by
  refine Proc.exec_transaction .refl fun count db' h => ?_
  rcases (InProcessDelivery.clearOutstandingFromSenderToRecipient_eq_ok h).2 with
    ⟨-, rfl⟩ | ⟨e, he, hcommit⟩
  · exact .refl
  · exact Emits.single (.sender he) hcommit

theorem requestHumanReview_emits (hdb : Consistent db) {envelope : MailEnvelope}
    {request : ReviewRequested}
    (hR : ∀ s event, (∃ payload, event.payload = .review payload) → R s event) (hE : E envelope) :
    Emits (Writes E R) db ((MailStore.requestHumanReview envelope request).exec db) := by
  refine (requestHumanReview_atomic envelope request).exec .refl fun result db' h => ?_
  obtain ⟨-, -, -, -, slot, hslot, ⟨-, hcommit⟩ |
    ⟨hfresh, requested, mail, hrequested, hmail, hcommit⟩⟩ := requestHumanReview_spec hdb h
  · exact emits_of_reviews hR hslot.review hcommit
  · refine emits_of_reviews_mail hR (slot ++ [requested]) ?_ hE hmail hfresh
      (by simpa using hcommit)
    intro event hevent
    rcases List.mem_append.1 hevent with hevent | hevent
    · exact hslot.review event hevent
    · rw [List.mem_singleton.1 hevent]
      exact ⟨_, hrequested.payload_eq⟩

theorem replyWithReviewVerdict_emits (hdb : Consistent db) {toMail : DeliveredMail}
    {draft : ReplyDraft} {verdict : ReviewVerdictRecorded}
    (hR : ∀ s event, (∃ payload, event.payload = .review payload) → R s event)
    (hE : ∀ envelope, Threaded db.mail envelope → E envelope) :
    Emits (Writes E R) db ((MailStore.replyWithReviewVerdict toMail draft verdict).exec db) := by
  refine (replyWithReviewVerdict_atomic toMail draft verdict).exec .refl fun delivered db' h => ?_
  obtain ⟨current, envelope, hcurrent, -, henvelope, -, ⟨-, -, rfl⟩ |
    ⟨hfresh, -, -, scope, verdictEvent, release, mail, hverdict, hrelease, hmail, hcommit⟩⟩ :=
      replyWithReviewVerdict_spec hdb h
  · exact .refl
  · obtain ⟨hmem, -⟩ := selectMailBySeq_eq_some.1 hcurrent
    refine emits_of_reviews_mail hR (verdictEvent :: release) ?_
      (hE envelope (buildReplyEnvelope_threaded henvelope hmem)) hmail hfresh hcommit
    intro event hevent
    rcases List.mem_cons.1 hevent with rfl | hevent
    · exact ⟨_, hverdict.payload_eq⟩
    · exact hrelease.review event hevent

/-- Every call but a clean-up and an acknowledgement writes events of one class. -/
theorem MailCall.exec_writes_quietly (hdb : Consistent db) {call : MailCall}
    (hclears : call.clears = false) (hacknowledges : call.acknowledges = false)
    (hR : call.reviews = true → ∀ s event, (∃ payload, event.payload = .review payload) → R s event)
    (hE : ∀ envelope, Threaded db.mail envelope → E envelope)
    (hfree : ∀ envelope ∈ call.freeEnvelopes, E envelope) :
    Emits (Writes E R) db (call.exec delivery db) := by
  cases call with
  | send envelope => exact send_emits (hfree _ (List.mem_singleton.2 rfl))
  | reply toMail draft => exact reply_emits hE
  | requestHumanReview envelope request =>
    exact requestHumanReview_emits hdb (hR rfl) (hfree _ (List.mem_singleton.2 rfl))
  | replyWithReviewVerdict toMail draft verdict => exact replyWithReviewVerdict_emits hdb (hR rfl) hE
  | forward held envelope => exact forward_emits hdb hE
  | resolve held envelope relays => exact resolve_emits hdb hE hfree
  | markRead recipient seq => exact markRead_emits
  | retract sender seq => exact retract_emits
  | persistEffect effect => simp [MailCall.acknowledges] at hacknowledges
  | clearOutstanding recipient => simp [MailCall.clears] at hclears
  | clearOutstandingFromSenderToRecipient sender recipient => simp [MailCall.clears] at hclears

/-- Every call but a clean-up appends events of one class. -/
theorem MailCall.exec_emits (hdb : Consistent db) {call : MailCall}
    (hclears : call.clears = false)
    (hR : call.reviews = true → ∀ s event, (∃ payload, event.payload = .review payload) → R s event)
    (hE : ∀ envelope, Threaded db.mail envelope → E envelope)
    (hfree : ∀ envelope ∈ call.freeEnvelopes, E envelope) :
    Emits (Appends E R) db (call.exec delivery db) := by
  cases hacknowledges : call.acknowledges with
  | false =>
    exact (exec_writes_quietly hdb hclears hacknowledges hR hE hfree).mono fun _ _ h => h.1
  | true =>
    cases call with
    | persistEffect effect => exact persistEffect_emits
    | _ => simp [MailCall.acknowledges] at hacknowledges

theorem MailCall.exec_clears {call : MailCall} (hclears : call.clears = true) :
    Emits Clears db (call.exec delivery db) := by
  cases call with
  | clearOutstanding recipient => exact clearOutstanding_emits
  | clearOutstandingFromSenderToRecipient sender recipient =>
    exact clearOutstandingFromSenderToRecipient_emits
  | _ => simp [MailCall.clears] at hclears

/-- Only an acknowledgement acknowledges. -/
theorem MailCall.exec_unacknowledging (hdb : Consistent db) {call : MailCall}
    (hacknowledges : call.acknowledges = false) :
    Emits (fun _ event => Unacknowledging event) db (call.exec delivery db) := by
  cases hclears : call.clears with
  | false =>
    have hemits : Emits (Writes (fun _ => True) AnyEvent) db (call.exec delivery db) :=
      exec_writes_quietly hdb hclears hacknowledges (fun _ _ _ _ => trivial) (fun _ _ => trivial)
        fun _ _ => trivial
    exact hemits.mono fun _ _ h => h.2
  | true => exact (exec_clears hclears).mono fun _ _ h => h.unacknowledging

theorem MailCall.exec_any (hdb : Consistent db) {call : MailCall} :
    Emits AnyEvent db (call.exec delivery db) := by
  cases hclears : call.clears with
  | false =>
    have hemits : Emits (Appends (fun _ => True) AnyEvent) db (call.exec delivery db) :=
      exec_emits hdb hclears (fun _ _ _ _ => trivial) (fun _ _ => trivial) fun _ _ => trivial
    exact hemits.mono fun _ _ _ => trivial
  | true => exact (exec_clears hclears).mono fun _ _ _ => trivial

theorem MailCall.exec_consistent (hdb : Consistent db) {call : MailCall} :
    Consistent (call.exec delivery db) := hdb.emits (exec_any hdb)

/-- The mail store appends mail and review events. -/
theorem MailCall.exec_writes (hdb : Consistent db) {call : MailCall} :
    Emits (fun _ event => (∃ payload, event.payload = .mail payload) ∨
      ∃ payload, event.payload = .review payload) db (call.exec delivery db) := by
  cases hclears : call.clears with
  | true =>
    refine (exec_clears hclears).mono fun s event h => ?_
    cases h <;> exact .inl ⟨_, rfl⟩
  | false =>
    have hemits : Emits (Appends (fun _ => True) fun _ event =>
        ∃ payload, event.payload = .review payload) db (call.exec delivery db) :=
      exec_emits hdb hclears (fun _ _ _ h => h) (fun _ _ => trivial) fun _ _ => trivial
    refine hemits.mono fun s event h => ?_
    cases h with
    | other _ hR => exact .inr hR
    | _ => exact .inl ⟨_, rfl⟩

/-- Apart from the human-review operations the mail store appends nothing but mail events. -/
def MailEvents : EventClass := fun _ event => ∃ payload, event.payload = .mail payload

theorem MailCall.exec_mails (hdb : Consistent db) {call : MailCall}
    (hreviews : call.reviews = false) : Emits MailEvents db (call.exec delivery db) := by
  cases hclears : call.clears with
  | true =>
    refine (exec_clears hclears).mono fun s event h => ?_
    cases h <;> exact ⟨_, rfl⟩
  | false =>
    have hemits : Emits (Appends (fun _ => True) fun _ _ => False) db (call.exec delivery db) :=
      exec_emits hdb hclears (by simp [hreviews]) (fun _ _ => trivial) fun _ _ => trivial
    refine hemits.mono fun s event h => ?_
    cases h with
    | other _ hR => exact hR.elim
    | _ => exact ⟨_, rfl⟩

end

end Orchestration.Mail
