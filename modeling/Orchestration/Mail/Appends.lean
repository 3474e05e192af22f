import Orchestration.Mail.Delivery
import Orchestration.Mail.Fold

/-!
# What the delivery appends

For every transaction of the delivery, read backwards from its success: what it
had checked, and which events it committed.
-/

namespace Orchestration.Mail

open Fallible Transaction

/-- The row that the mail of an envelope becomes. -/
def deliveredRow (envelope : MailEnvelope) (seq ts : ℕ) : DeliveredMail where
  seq
  recipient := envelope.to
  sender := envelope.from
  type := envelope.type
  subject := envelope.subject
  body := envelope.body
  correlationId := envelope.correlationId
  causationId := envelope.causationId
  idempotencyKey := envelope.idempotencyKey
  ts
  decision := if envelope.type = .approvalResponse then envelope.decision else none
  reviewVerdict := if envelope.type = .reviewResponse then envelope.reviewVerdict else none

theorem mailSchema_idem {type : MailType} {candidate payload : MailPayload}
    (h : mailSchema type candidate = .ok payload) : mailSchema type payload = .ok payload := by
  unfold mailSchema at h ⊢
  cases type <;> grind [pure_eq_ok, throw_eq_ok]

theorem mailSchema_row {envelope : MailEnvelope} {payload : MailPayload}
    (h : mailSchema envelope.type
      { subject := envelope.subject, body := envelope.body, decision := envelope.decision,
        reviewVerdict := envelope.reviewVerdict } = .ok payload) :
    payload.subject = envelope.subject ∧ payload.body = envelope.body ∧
      (envelope.type = .approvalResponse → payload.decision = envelope.decision) ∧
      (envelope.type = .reviewResponse → payload.reviewVerdict = envelope.reviewVerdict) := by
  unfold mailSchema at h
  cases htype : envelope.type <;> rw [htype] at h <;> grind [pure_eq_ok, throw_eq_ok]

theorem validateEnvelope_eq_ok {envelope : MailEnvelope} {payload : MailPayload}
    (h : validateEnvelope envelope = .ok payload) :
    envelope.to ≠ "" ∧ envelope.from ≠ "" ∧
      mailSchema envelope.type
        { subject := envelope.subject, body := envelope.body, decision := envelope.decision,
          reviewVerdict := envelope.reviewVerdict } = .ok payload := by
  simp only [validateEnvelope, bind_eq_ok, assertAddress_eq_ok] at h
  obtain ⟨-, hto, -, hfrom, h⟩ := h
  split at h
  · exact absurd h (by simp)
  · split at h
    · exact absurd h (by simp)
    · exact ⟨hto, hfrom, h⟩

/-- A committed mail event is folded by the mail projector. -/
theorem apply_of_commit {db db' : Db} {event : NewEvent Payload} {payload : MailEvent}
    (hpayload : event.payload = .mail payload) (h : db.commit event = .ok db') :
    ∃ payload', mailSchemas payload = .ok payload' ∧
      MailProjector.apply db.mail ((db.stored event).withPayload payload') = .ok db'.mail := by
  obtain ⟨-, t, ht, rfl⟩ := commit_eq_ok.1 h
  rcases foldEvent_mail ht with ⟨payload₀, payload', hstored, hschema, happly⟩ | ⟨hother, -⟩
  · obtain rfl : payload = payload₀ := by
      rw [← Payload.mail.injEq, ← hpayload]
      exact hstored
    exact ⟨payload', hschema, happly⟩
  · exact absurd hpayload (hother payload)

/-- A committed mail event was folded by the mail projector, and nothing else changed. -/
theorem applied_of_commit {db db' : Db} {event : NewEvent Payload} {payload : MailEvent}
    (hpayload : event.payload = .mail payload) (h : db.commit event = .ok db') :
    ∃ payload', mailSchemas payload = .ok payload' ∧
      Applied db.mail ((db.stored event).withPayload payload') db'.mail ∧
      db'.review = db.review ∧ db'.worktrees = db.worktrees := by
  have hstored : (db.stored event).payload = .mail payload := hpayload
  obtain ⟨hfolded, -⟩ := folded_of_commit h
  generalize db'.toProjections = t at hfolded ⊢
  cases hfolded with
  | mail hpayload' hschema happly =>
    rw [hstored] at hpayload'
    cases hpayload'
    exact ⟨_, hschema, applied_of_apply happly, rfl, rfl⟩
  | review hpayload' | worktree hpayload' | usage hpayload' | cost hpayload' | placement hpayload'
  | toolUsage hpayload' | plan hpayload' | roles hpayload' | session hpayload'
  | archive hpayload' =>
    rw [hstored] at hpayload'
    cases hpayload'

/-- An event of another domain leaves the mail tables alone. -/
theorem mail_of_commit {db db' : Db} {event : NewEvent Payload}
    (hpayload : ∀ payload, event.payload ≠ .mail payload) (h : db.commit event = .ok db') :
    db'.mail = db.mail := by
  obtain ⟨-, t, ht, rfl⟩ := commit_eq_ok.1 h
  rcases foldEvent_mail ht with ⟨payload, _, hmail, -⟩ | ⟨-, hsame⟩
  · exact absurd hmail (hpayload payload)
  · exact hsame

/-- The schema of a receipt checks it and changes nothing. -/
theorem mailSchemas_receipt {payload payload' : MailEvent}
    (hreceipt : ∀ type p, payload ≠ .mail type p) (h : mailSchemas payload = .ok payload') :
    payload' = payload := by
  cases payload with
  | mail type p => exact absurd rfl (hreceipt type p)
  | forwarded seq forwardedTo =>
    simp only [mailSchemas, bind_eq_ok, pure_eq_ok] at h
    obtain ⟨-, -, rfl⟩ := h
    rfl
  | recipientSenderCleared sender =>
    simp only [mailSchemas, bind_eq_ok, pure_eq_ok] at h
    obtain ⟨-, -, rfl⟩ := h
    rfl
  | liveEffect effect =>
    simp only [mailSchemas] at h
    by_cases hsome : effect.wakeSucceeded = true ∨ effect.injectSucceeded = true
    · rw [if_pos hsome] at h
      exact (pure_eq_ok.1 h).symm
    · simp [if_neg hsome] at h
  | _ => exact (pure_eq_ok.1 h).symm

/-- The row that the next mail of an envelope becomes. -/
def nextRow (db : Db) (envelope : MailEnvelope) : DeliveredMail :=
  deliveredRow envelope db.nextSeq (db.clock db.nextSeq)

/-- Committing the mail of an envelope adds its row, unless its key is taken. -/
theorem commit_mail {db db' : Db} {envelope : MailEnvelope} {e : NewEvent MailEvent}
    (he : makeMailEvent envelope = .ok e) (h : db.commit (toProject e) = .ok db') :
    (db'.mail = db.mail ∧ ∃ old ∈ db.mail.inbox, old.sameKey (nextRow db envelope) = true) ∨
      Added db.mail (nextRow db envelope) db'.mail := by
  simp only [makeMailEvent, bind_eq_ok, pure_eq_ok] at he
  obtain ⟨payload, hvalid, rfl⟩ := he
  obtain ⟨hto, -, hschema⟩ := validateEnvelope_eq_ok hvalid
  obtain ⟨payload', hschema', happlied, -, -⟩ := applied_of_commit rfl h
  obtain rfl : payload' = .mail envelope.type payload := by
    simp only [mailSchemas, bind_eq_ok, pure_eq_ok] at hschema'
    obtain ⟨p, hp, rfl⟩ := hschema'
    rw [mailSchema_idem hschema] at hp
    cases hp
    rfl
  obtain ⟨hsubject, hbody, hdecision, hverdict⟩ := mailSchema_row hschema
  have hrecipient := mailRecipientForScope_mailScope hto
  generalize hevent : (db.stored _).withPayload _ = event at happlied
  have hrow : mailRow event envelope.to envelope.from envelope.type payload =
      nextRow db envelope := by
    subst hevent
    simp only [mailRow, nextRow, deliveredRow, hsubject, hbody, DeliveredMail.mk.injEq, true_and,
      Db.stored, toProject, NewEvent.withPayload, StoredEvent.withPayload]
    refine ⟨?_, ?_⟩
    · split
      · next htype => exact hdecision htype
      · rfl
    · split
      · next htype => exact hverdict htype
      · rfl
  have hfields : event.payload = .mail envelope.type payload ∧
      event.scope = mailScope envelope.to ∧ event.actor = some envelope.from := by
    subst hevent
    exact ⟨rfl, rfl, rfl⟩
  generalize db'.mail = t' at happlied ⊢
  cases happlied with
  | collapsed hpayload hscope hactor hold hkey =>
    rw [hfields.1] at hpayload
    rw [hfields.2.1, hrecipient] at hscope
    rw [hfields.2.2] at hactor
    cases hpayload; cases hscope; cases hactor
    exact .inl ⟨rfl, _, hold, hrow ▸ hkey⟩
  | added hpayload hscope hactor hadded =>
    rw [hfields.1] at hpayload
    rw [hfields.2.1, hrecipient] at hscope
    rw [hfields.2.2] at hactor
    cases hpayload; cases hscope; cases hactor
    exact .inr (hrow ▸ hadded)
  | read hpayload => simp [hfields.1] at hpayload
  | retracted hpayload _ _ => simp [hfields.1] at hpayload
  | cleared hpayload _ => simp [hfields.1] at hpayload
  | forwarded hpayload _ _ _ _ _ _ _ => simp [hfields.1] at hpayload
  | liveEffect hpayload _ _ => simp [hfields.1] at hpayload

/-! ## Rows and the log -/

theorem seq_of_fixed {a b : DeliveredMail} (h : a.fixed = b.fixed) : a.seq = b.seq := by
  simpa [DeliveredMail.fixed] using congrArg DeliveredMail.seq h

theorem recipient_of_fixed {a b : DeliveredMail} (h : a.fixed = b.fixed) :
    a.recipient = b.recipient := by
  simpa [DeliveredMail.fixed] using congrArg DeliveredMail.recipient h

/-- A row is numbered by an event of the log. -/
theorem row_of_log {db : Db} (h : Consistent db) {row : DeliveredMail} (hrow : row ∈ db.mail.inbox) :
    0 < row.seq ∧ row.seq < db.nextSeq := by
  have hlog : ∀ row ∈ db.mail.inbox, ∃ event ∈ db.events, row.seq = event.seq := by
    refine foldEvents_induction
      (fun events t => ∀ row ∈ t.mail.inbox, ∃ event ∈ events, row.seq = event.seq)
      (by simp) ?_ h.replayed
    intro events t event t' ht hfold row hrow
    rcases foldEvent_mail hfold with ⟨payload, payload', -, -, happly⟩ | ⟨-, hsame⟩
    · obtain ⟨f, added, hfixed, hadded, hmem⟩ := (applied_of_apply happly).rows
      rcases (hmem row).1 hrow with hrow | ⟨old, hold, rfl⟩
      · exact ⟨event, by simp, (hadded row hrow).1⟩
      · obtain ⟨e, he, hseq⟩ := ht old hold
        exact ⟨e, List.mem_append_left _ he, (seq_of_fixed (hfixed old)).trans hseq⟩
    · rw [hsame] at hrow
      obtain ⟨e, he, hseq⟩ := ht row hrow
      exact ⟨e, List.mem_append_left _ he, hseq⟩
  obtain ⟨event, hevent, hseq⟩ := hlog row hrow
  rw [hseq]
  exact h.seq_le hevent

/-- A row stays, whatever is committed. -/
theorem row_persists {db db' : Db} {event : NewEvent Payload} (h : db.commit event = .ok db')
    {row : DeliveredMail} (hrow : row ∈ db.mail.inbox) :
    ∃ row' ∈ db'.mail.inbox, row'.fixed = row.fixed := by
  obtain ⟨-, t, ht, rfl⟩ := commit_eq_ok.1 h
  rcases foldEvent_mail ht with ⟨payload, payload', -, -, happly⟩ | ⟨-, hsame⟩
  · obtain ⟨f, added, hfixed, hadded, hmem⟩ := (applied_of_apply happly).rows
    exact ⟨f row, (hmem _).2 (.inr ⟨row, hrow, rfl⟩), hfixed row⟩
  · exact ⟨row, hsame ▸ hrow, rfl⟩

/-- A row of the state after a commit was there before, or is numbered by the event. -/
theorem row_origin {db db' : Db} {event : NewEvent Payload} (h : db.commit event = .ok db')
    {row : DeliveredMail} (hrow : row ∈ db'.mail.inbox) :
    row.seq = db.nextSeq ∨ ∃ old ∈ db.mail.inbox, row.fixed = old.fixed := by
  obtain ⟨-, t, ht, rfl⟩ := commit_eq_ok.1 h
  rcases foldEvent_mail ht with ⟨payload, payload', -, -, happly⟩ | ⟨-, hsame⟩
  · obtain ⟨f, added, hfixed, hadded, hmem⟩ := (applied_of_apply happly).rows
    rcases (hmem row).1 hrow with hrow | ⟨old, hold, rfl⟩
    · exact .inl (hadded row hrow).1
    · exact .inr ⟨old, hold, hfixed old⟩
  · exact .inr ⟨row, hsame ▸ hrow, rfl⟩

/-- An event that is no mail adds no row. -/
theorem old_row_of_receipt {db db' : Db} {event : NewEvent Payload} (h : db.commit event = .ok db')
    (hreceipt : ∀ type p, event.payload ≠ .mail (.mail type p)) {row : DeliveredMail}
    (hrow : row ∈ db'.mail.inbox) : ∃ old ∈ db.mail.inbox, row.fixed = old.fixed := by
  obtain ⟨-, t, ht, rfl⟩ := commit_eq_ok.1 h
  rcases foldEvent_mail ht with ⟨payload, payload', hpayload, hschema, happly⟩ | ⟨-, hsame⟩
  · have hne : ∀ type p, payload ≠ .mail type p := by
      rintro type p rfl
      exact hreceipt type p hpayload
    obtain rfl := mailSchemas_receipt hne hschema
    obtain ⟨f, added, hfixed, hadded, hmem⟩ := (applied_of_apply happly).rows
    rcases (hmem row).1 hrow with hrow | ⟨old, hold, rfl⟩
    · obtain ⟨-, type, p, hmail⟩ := hadded row hrow
      exact absurd hmail (hne type p)
    · exact ⟨old, hold, hfixed old⟩
  · exact ⟨row, hsame ▸ hrow, rfl⟩

/-! ## The idempotency key -/

theorem sameKey_deliveredRow {old : DeliveredMail} {envelope : MailEnvelope} {seq ts : ℕ} :
    old.sameKey (deliveredRow envelope seq ts) = true ↔
      ∃ key, envelope.idempotencyKey = some key ∧ old.idempotencyKey = some key ∧
        old.recipient = envelope.to ∧ old.sender = envelope.from ∧ old.type = envelope.type := by
  simp only [DeliveredMail.sameKey, deliveredRow, Bool.and_eq_true, beq_iff_eq,
    Option.isSome_iff_exists]
  constructor
  · rintro ⟨⟨⟨⟨⟨key, hkey⟩, hsame⟩, hto⟩, hfrom⟩, htype⟩
    exact ⟨key, hsame ▸ hkey, hkey, hto, hfrom, htype⟩
  · rintro ⟨key, hkey, hold, hto, hfrom, htype⟩
    exact ⟨⟨⟨⟨⟨key, hold⟩, hold.trans hkey.symm⟩, hto⟩, hfrom⟩, htype⟩

theorem existingForKey_eq_some {t : MailTables} {envelope : MailEnvelope} {old : DeliveredMail}
    (h : existingForKey t envelope = some old) (seq ts : ℕ) :
    old ∈ t.inbox ∧ old.sameKey (deliveredRow envelope seq ts) = true := by
  obtain ⟨key, hkey, hfind⟩ := Option.bind_eq_some_iff.1 h
  have hp := List.find?_some hfind
  simp only [Bool.and_eq_true, beq_iff_eq] at hp
  exact ⟨List.mem_of_find?_eq_some hfind,
    sameKey_deliveredRow.2 ⟨key, hkey, hp.1.1.1, hp.1.1.2, hp.1.2, hp.2⟩⟩

theorem existingForKey_eq_none {t : MailTables} {envelope : MailEnvelope} (seq ts : ℕ) :
    existingForKey t envelope = none ↔
      ∀ old ∈ t.inbox, old.sameKey (deliveredRow envelope seq ts) = false := by
  constructor
  · intro h old hold
    rw [Bool.eq_false_iff]
    intro hsame
    obtain ⟨key, hkey, hold', hto, hfrom, htype⟩ := sameKey_deliveredRow.1 hsame
    rw [existingForKey, hkey] at h
    exact List.find?_eq_none.1 h old hold (by simp [hold', hto, hfrom, htype])
  · intro h
    cases hexisting : existingForKey t envelope with
    | none => rfl
    | some old =>
      obtain ⟨hold, hsame⟩ := existingForKey_eq_some hexisting seq ts
      simp [h old hold] at hsame

/-- A mail whose key is free is added. -/
theorem added_of_fresh {db db' : Db} {envelope : MailEnvelope} {e : NewEvent MailEvent}
    (he : makeMailEvent envelope = .ok e) (hfresh : existingForKey db.mail envelope = none)
    (h : db.commit (toProject e) = .ok db') : Added db.mail (nextRow db envelope) db'.mail := by
  rcases commit_mail he h with ⟨-, old, hold, hsame⟩ | hadded
  · have hfree : old.sameKey (nextRow db envelope) = false :=
      (existingForKey_eq_none _ _).1 hfresh old hold
    exact absurd hsame (by simp [hfree])
  · exact hadded

theorem Added.select {t t' : MailTables} {closer : DeliveredMail} (h : Added t closer t') :
    selectMailBySeq t' closer.seq = some closer :=
  selectMailBySeq_eq_some.2 ⟨(h.mem closer).2 (.inl rfl), rfl⟩

/-! ## Transactions -/

theorem recordMail_eq_ok {event : Except String (NewEvent MailEvent)} {db db' : Db}
    {s : StoredEvent Payload} : recordMail event db = .ok (s, db') ↔
      ∃ e, event = .ok e ∧ s = db.stored (toProject e) ∧ db.commit (toProject e) = .ok db' := by
  have howns : ∀ e : NewEvent MailEvent, Owns mailProjectors (toProject e).payload :=
    fun e => rfl
  simp only [recordMail, Tx.liftM_bind_eq_ok, record_eq_ok (howns _)]

theorem reading_bind {db : Db} {α β : Type} {read : MailTables → α} {f : α → StoreTx β} :
    (reading read >>= f) db = f (read db.mail) db := rfl

/-- A mail whose row is there after its commit had a free key. -/
theorem fresh_of_select {db db' : Db} (hdb : Consistent db) {envelope : MailEnvelope}
    {e : NewEvent MailEvent} (he : makeMailEvent envelope = .ok e)
    (h : db.commit (toProject e) = .ok db')
    (hrow : (selectMailBySeq db'.mail db.nextSeq).isSome = true) :
    existingForKey db.mail envelope = none := by
  rcases commit_mail he h with ⟨hsame, -⟩ | hadded
  · obtain ⟨row, hrow⟩ := Option.isSome_iff_exists.1 hrow
    rw [hsame, selectMailBySeq_eq_some] at hrow
    exact absurd hrow.2 (Nat.ne_of_lt (row_of_log hdb hrow.1).2)
  · exact (existingForKey_eq_none _ _).2 hadded.fresh

/-- A row that is there after a later commit was there before it. -/
theorem select_of_commit {db db' : Db} {event : NewEvent Payload} {seq : ℕ}
    (h : db.commit event = .ok db') (hne : seq ≠ db.nextSeq)
    (hrow : (selectMailBySeq db'.mail seq).isSome = true) :
    (selectMailBySeq db.mail seq).isSome = true := by
  obtain ⟨row, hrow⟩ := Option.isSome_iff_exists.1 hrow
  obtain ⟨hmem, rfl⟩ := selectMailBySeq_eq_some.1 hrow
  obtain ⟨old, hold, hfixed⟩ := (row_origin h hmem).resolve_left hne
  rw [selectMailBySeq_eq_some.2 ⟨hold, (seq_of_fixed hfixed).symm⟩]
  rfl

theorem assertForwardEnvelope_eq_ok {held : DeliveredMail} {envelope : MailEnvelope} {u : Unit} :
    assertForwardEnvelope held envelope = .ok u ↔
      (held.type = .escalation ∨ held.type = .clarifyRequest) ∧ envelope.type = .escalation ∧
        envelope.from = held.recipient ∧ envelope.causationId = some (toString held.seq) ∧
        envelope.correlationId = some held.threadId := by
  simp only [assertForwardEnvelope, bind_eq_ok, refuse_eq_ok, exists_const, not_and_or,
    Decidable.not_not]

theorem assertResolutionEnvelope_eq_ok {held : DeliveredMail} {envelope : MailEnvelope}
    {u : Unit} : assertResolutionEnvelope held envelope = .ok u ↔
      held.type = .escalation ∧ envelope.type ≠ .escalation ∧ envelope.from = held.recipient ∧
        envelope.to = held.sender ∧ envelope.causationId = some (toString held.seq) ∧
        envelope.correlationId = some held.threadId := by
  simp only [assertResolutionEnvelope, bind_eq_ok, refuse_eq_ok, exists_const,
    Decidable.not_not]

namespace InProcessDelivery

theorem deliverWithStatus_eq_ok {envelope : MailEnvelope} {db db' : Db} {result : DeliveryResult}
    (h : deliverWithStatus envelope db = .ok (result, db')) :
    (db = db' ∧ ∃ old, existingForKey db.mail envelope = some old ∧ result = ⟨old, false⟩) ∨
    (existingForKey db.mail envelope = none ∧ result = ⟨nextRow db envelope, true⟩ ∧
      ∃ e, makeMailEvent envelope = .ok e ∧ db.commit (toProject e) = .ok db') := by
  simp only [deliverWithStatus, reading_bind] at h
  cases hexisting : existingForKey db.mail envelope with
  | some old =>
    simp only [hexisting, Tx.pure_eq_ok] at h
    obtain ⟨rfl, rfl⟩ := h
    exact .inl ⟨rfl, old, rfl, rfl⟩
  | none =>
    simp only [hexisting, Tx.bind_eq_ok (x := recordMail _), recordMail_eq_ok] at h
    obtain ⟨_, mid, ⟨e, he, rfl, hcommit⟩, h⟩ := h
    have hselect := (added_of_fresh he hexisting hcommit).select
    rw [reading_bind] at h
    simp only [Db.stored, show (nextRow db envelope).seq = db.nextSeq from rfl] at hselect h
    simp only [hselect, Tx.pure_eq_ok] at h
    obtain ⟨rfl, rfl⟩ := h
    exact .inr ⟨rfl, rfl, e, he, hcommit⟩

/-- A forward commits the escalation and then its receipt, about the item that is held. -/
theorem forward_eq_ok {held delivered : DeliveredMail} {envelope : MailEnvelope} {db db' : Db}
    (hdb : Consistent db) (h : forward held envelope db = .ok (delivered, db')) :
    ∃ item ∈ db.mail.inbox, item.seq = held.seq ∧ item.resolved = false ∧
      item.retracted = false ∧ assertForwardEnvelope item envelope = .ok () ∧
      existingForKey db.mail envelope = none ∧
      ∃ e receipt mid, makeMailEvent envelope = .ok e ∧ db.commit (toProject e) = .ok mid ∧
        makeMailForwardEvent item.recipient item.seq envelope.to = .ok receipt ∧
        mid.commit (toProject receipt) = .ok db' := by
  simp only [forward, reading_bind, Tx.liftM_bind_eq_ok, orThrow_eq_ok, refuse_eq_ok, not_or,
    Decidable.not_not, Bool.not_eq_true] at h
  obtain ⟨item, hitem, _, ⟨hrecipient, -, hresolved, hretracted⟩, ⟨⟩, hassert, h⟩ := h
  obtain ⟨hmem, hseq⟩ := selectMailBySeq_eq_some.1 hitem
  obtain ⟨_, mid, hmail, h⟩ := Tx.bind_eq_ok.1 h
  obtain ⟨e, he, rfl, hcommit⟩ := recordMail_eq_ok.1 hmail
  obtain ⟨_, last, hrecord, h⟩ := Tx.bind_eq_ok.1 h
  obtain ⟨receipt, hreceipt, -, hcommit'⟩ := recordMail_eq_ok.1 hrecord
  rw [reading_bind, Tx.liftM_eq_ok, orThrow_eq_ok] at h
  obtain ⟨hrow, rfl⟩ := h
  have hsome : (selectMailBySeq db'.mail db.nextSeq).isSome = true :=
    Option.isSome_iff_exists.2 ⟨delivered, hrow⟩
  have hne : db.nextSeq ≠ mid.nextSeq := by rw [nextSeq_of_commit hcommit]; omega
  have hfresh := fresh_of_select hdb he hcommit (select_of_commit hcommit' hne hsome)
  rw [← hrecipient, ← hseq] at hreceipt
  exact ⟨item, hmem, hseq, hresolved, hretracted, hassert, hfresh, e, receipt, mid, he, hcommit,
    hreceipt, hcommit'⟩

/-- A batch of mails, each of them to a free key. -/
inductive Delivers : List MailEnvelope → Db → Db → Prop where
  | nil (db : Db) : Delivers [] db db
  | cons {envelope : MailEnvelope} {envelopes : List MailEnvelope} {e : NewEvent MailEvent}
      {db mid db' : Db} (he : makeMailEvent envelope = .ok e)
      (hfresh : existingForKey db.mail envelope = none)
      (hcommit : db.commit (toProject e) = .ok mid) (hrest : Delivers envelopes mid db') :
      Delivers (envelope :: envelopes) db db'

theorem deliverRelays_eq_ok {relays : List MailEnvelope} {rows : List DeliveredMail}
    {db db' : Db} (hdb : Consistent db) (h : relays.mapM deliverRelay db = .ok (rows, db')) :
    Delivers relays db db' ∧ ∀ seq, seq < db.nextSeq →
      (selectMailBySeq db'.mail seq).isSome = true → (selectMailBySeq db.mail seq).isSome = true := by
  induction relays generalizing db rows with
  | nil =>
    rw [List.mapM_nil, Tx.pure_eq_ok] at h
    obtain ⟨-, rfl⟩ := h
    exact ⟨.nil db, fun _ _ h => h⟩
  | cons relay relays ih =>
    rw [List.mapM_cons] at h
    obtain ⟨row, mid, hrelay, h⟩ := Tx.bind_eq_ok.1 h
    obtain ⟨rows', last, hrest, h⟩ := Tx.bind_eq_ok.1 h
    obtain ⟨-, rfl⟩ := Tx.pure_eq_ok.1 h
    obtain ⟨_, _, hmail, hrow⟩ := Tx.bind_eq_ok.1 hrelay
    obtain ⟨e, he, rfl, hcommit⟩ := recordMail_eq_ok.1 hmail
    rw [reading_bind, Tx.liftM_eq_ok, orThrow_eq_ok] at hrow
    obtain ⟨hrow, rfl⟩ := hrow
    have hnext := nextSeq_of_commit hcommit
    have hfresh := fresh_of_select hdb he hcommit (Option.isSome_iff_exists.2 ⟨row, hrow⟩)
    obtain ⟨hdelivers, hselect⟩ := ih (hdb.commit hcommit) hrest
    refine ⟨.cons he hfresh hcommit hdelivers, fun seq hlt hsome => ?_⟩
    exact select_of_commit hcommit (by omega) (hselect seq (by omega) hsome)

/-- A resolution commits the response and then the relays. -/
theorem resolveWithRelays_eq_ok {held : DeliveredMail} {envelope : MailEnvelope}
    {relays : List MailEnvelope} {result : DeliveredMail × List DeliveredMail} {db db' : Db}
    (hdb : Consistent db) (h : resolveWithRelays held envelope relays db = .ok (result, db')) :
    ∃ item ∈ db.mail.inbox, item.seq = held.seq ∧ item.resolved = false ∧
      item.retracted = false ∧ assertResolutionEnvelope item envelope = .ok () ∧
      Delivers (envelope :: relays) db db' := by
  simp only [resolveWithRelays, reading_bind, Tx.liftM_bind_eq_ok, orThrow_eq_ok, refuse_eq_ok,
    not_or, Decidable.not_not, Bool.not_eq_true] at h
  obtain ⟨item, hitem, _, ⟨-, -, -, hresolved, hretracted⟩, ⟨⟩, hassert, h⟩ := h
  obtain ⟨hmem, hseq⟩ := selectMailBySeq_eq_some.1 hitem
  obtain ⟨_, mid, hmail, h⟩ := Tx.bind_eq_ok.1 h
  obtain ⟨e, he, rfl, hcommit⟩ := recordMail_eq_ok.1 hmail
  obtain ⟨rows, last, hrelays, h⟩ := Tx.bind_eq_ok.1 h
  obtain ⟨hdelivers, hselect⟩ := deliverRelays_eq_ok (hdb.commit hcommit) hrelays
  simp only [reading_bind, Tx.liftM_bind_eq_ok, orThrow_eq_ok, Tx.pure_eq_ok] at h
  obtain ⟨response, hresponse, -, rfl⟩ := h
  have hnext := nextSeq_of_commit hcommit
  have hfresh := fresh_of_select hdb he hcommit
    (hselect db.nextSeq (by omega) (Option.isSome_iff_exists.2 ⟨response, hresponse⟩))
  exact ⟨item, hmem, hseq, hresolved, hretracted, hassert, .cons he hfresh hcommit hdelivers⟩

theorem markRead_eq_ok {recipient : String} {seq : ℕ} {updated : DeliveredMail} {db db' : Db}
    (h : markRead recipient seq db = .ok (updated, db')) :
    ∃ e, makeMailReadEvent recipient seq = .ok e ∧ db.commit (toProject e) = .ok db' := by
  simp only [markRead, reading_bind, Tx.liftM_bind_eq_ok, orThrow_eq_ok, refuse_eq_ok] at h
  obtain ⟨_, -, _, -, h⟩ := h
  obtain ⟨_, mid, hmail, h⟩ := Tx.bind_eq_ok.1 h
  obtain ⟨e, he, -, hcommit⟩ := recordMail_eq_ok.1 hmail
  rw [reading_bind, Tx.liftM_eq_ok] at h
  obtain ⟨-, rfl⟩ := h
  exact ⟨e, he, hcommit⟩

theorem forwardedMailForHeld_isSome {t : MailTables} {heldSeq : ℕ}
    (hlinks : ∀ link ∈ t.forwardLinks.rows, (selectMailBySeq t link.forwardedSeq).isSome = true) :
    (forwardedMailForHeld t heldSeq).isSome = t.isHeld heldSeq := by
  unfold forwardedMailForHeld MailTables.isHeld
  cases hfind : t.forwardLinks.rows.find? (·.heldSeq == heldSeq) with
  | none => simpa using hfind
  | some link =>
    have hmem := List.mem_of_find?_eq_some hfind
    have hp := List.find?_some hfind
    rw [Option.bind_some, hlinks link hmem, eq_comm, List.any_eq_true]
    exact ⟨link, hmem, hp⟩

/-- A retraction is of the sender's own mail, which did not go up. -/
theorem retract_eq_ok {sender : String} {seq : ℕ} {updated : DeliveredMail} {db db' : Db}
    (h : retract sender seq db = .ok (updated, db')) :
    (forwardedMailForHeld db.mail seq).isSome = false ∧
      ∃ e, makeMailRetractEvent sender seq = .ok e ∧ db.commit (toProject e) = .ok db' := by
  simp only [retract, reading_bind, Tx.liftM_bind_eq_ok, orThrow_eq_ok, refuse_eq_ok] at h
  obtain ⟨_, -, _, -, _, -, _, hforwarded, h⟩ := h
  obtain ⟨_, mid, hmail, h⟩ := Tx.bind_eq_ok.1 h
  obtain ⟨e, he, -, hcommit⟩ := recordMail_eq_ok.1 hmail
  rw [reading_bind, Tx.liftM_eq_ok] at h
  obtain ⟨-, rfl⟩ := h
  exact ⟨by simpa using hforwarded, e, he, hcommit⟩

theorem clearOutstanding_eq_ok {recipient : String} {count : ℕ} {db db' : Db}
    (h : clearOutstanding recipient db = .ok (count, db')) :
    (nonReviewActionableForRecipient db.mail recipient).length = count ∧
      (count = 0 ∧ db = db' ∨ ∃ e, makeMailRecipientClearedEvent recipient = .ok e ∧
        db.commit (toProject e) = .ok db') := by
  simp only [clearOutstanding, Tx.liftM_bind_eq_ok, reading_bind] at h
  obtain ⟨e, he, h⟩ := h
  by_cases hnone : (nonReviewActionableForRecipient db.mail recipient).length = 0
  · rw [if_pos hnone] at h
    obtain ⟨rfl, hsame⟩ := Tx.pure_eq_ok.1 h
    exact ⟨hnone, .inl ⟨rfl, hsame⟩⟩
  · rw [if_neg hnone] at h
    obtain ⟨_, mid, hmail, h⟩ := Tx.bind_eq_ok.1 h
    obtain ⟨hcount, rfl⟩ := Tx.pure_eq_ok.1 h
    obtain ⟨_, hpure, -, hcommit⟩ := recordMail_eq_ok.1 hmail
    obtain rfl := pure_eq_ok.1 hpure
    exact ⟨hcount, .inr ⟨e, he, hcommit⟩⟩

theorem clearOutstandingFromSenderToRecipient_eq_ok {sender recipient : String} {count : ℕ}
    {db db' : Db} (h : clearOutstandingFromSenderToRecipient sender recipient db = .ok (count, db')) :
    (nonReviewActionableForRecipientFromSender db.mail recipient sender).length = count ∧
      (count = 0 ∧ db = db' ∨ ∃ e, makeMailRecipientSenderClearedEvent recipient sender = .ok e ∧
        db.commit (toProject e) = .ok db') := by
  simp only [clearOutstandingFromSenderToRecipient, Tx.liftM_bind_eq_ok, reading_bind] at h
  obtain ⟨e, he, h⟩ := h
  by_cases hnone :
      (nonReviewActionableForRecipientFromSender db.mail recipient sender).length = 0
  · rw [if_pos hnone] at h
    obtain ⟨rfl, hsame⟩ := Tx.pure_eq_ok.1 h
    exact ⟨hnone, .inl ⟨rfl, hsame⟩⟩
  · rw [if_neg hnone] at h
    obtain ⟨_, mid, hmail, h⟩ := Tx.bind_eq_ok.1 h
    obtain ⟨hcount, rfl⟩ := Tx.pure_eq_ok.1 h
    obtain ⟨_, hpure, -, hcommit⟩ := recordMail_eq_ok.1 hmail
    obtain rfl := pure_eq_ok.1 hpure
    exact ⟨hcount, .inr ⟨e, he, hcommit⟩⟩

end InProcessDelivery

theorem LiveDelivery.persistEffect_eq_ok {effect : MailLiveEffect} {row : LiveEffectRow}
    {db db' : Db} (h : LiveDelivery.persistEffect effect db = .ok (row, db')) :
    ∃ e, makeMailLiveEffectEvent effect = .ok e ∧ db.commit (toProject e) = .ok db' := by
  obtain ⟨_, mid, hmail, h⟩ := Tx.bind_eq_ok.1 h
  obtain ⟨e, he, -, hcommit⟩ := recordMail_eq_ok.1 hmail
  rw [reading_bind, Tx.liftM_eq_ok] at h
  obtain ⟨-, rfl⟩ := h
  exact ⟨e, he, hcommit⟩

end Orchestration.Mail
