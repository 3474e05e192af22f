import Orchestration.Mail.Escalation
import Orchestration.Mail.Links

/-!
# Forwarding goes through

An open item whose holder has a parent can be forwarded in every state that a
log leads to: nothing that the writer or the fold checks stands in the way. What
is known of the inbox here holds of every log, whoever wrote it.
-/

namespace Orchestration.Mail

open Fallible Transaction

/-! ## What every log leads to -/

/-- Every mail has a recipient, and a link joins a discharged item to the escalation by which its
holder sent it up. -/
structure SoundInbox (t : MailTables) : Prop where
  addressed : ∀ row ∈ t.inbox, row.recipient ≠ ""
  joins : ∀ {a b : ℕ}, GoesUp t a b → ∃ item ∈ t.inbox, ∃ up ∈ t.inbox, item.seq = a ∧
    up.seq = b ∧ item.resolved = true ∧ up.type = .escalation ∧ up.sender = item.recipient ∧
    up.causationId = some (toString a)

theorem SoundInbox.resolved_of_isHeld {t : MailTables} (h : SoundInbox t) {item : DeliveredMail}
    (hitem : item ∈ t.inbox) (hheld : t.isHeld item.seq = true) : item.resolved = true := by
  obtain ⟨b, hup⟩ := isHeld_iff_goesUp.1 hheld
  obtain ⟨held, hmem, _, _, hseq, _, hresolved, _⟩ := h.joins hup
  rw [← DeliveredMail.eq_of_seq_eq hmem hitem hseq]
  exact hresolved

/-- A link that stays says the same of the rows that were kept. -/
theorem SoundInbox.joins_kept {t t' : MailTables} (h : SoundInbox t) (hrows : KeepsRows t t')
    {a b : ℕ} (hup : GoesUp t a b) (hheld : t'.isHeld a = true) :
    ∃ item ∈ t'.inbox, ∃ up ∈ t'.inbox, item.seq = a ∧ up.seq = b ∧ item.resolved = true ∧
      up.type = .escalation ∧ up.sender = item.recipient ∧ up.causationId = some (toString a) := by
  obtain ⟨item, hitem, up, hup', rfl, rfl, hresolved, htype, hsender, hcause⟩ := h.joins hup
  obtain ⟨item', hitem', hfixed, hkeeps⟩ := hrows item hitem
  obtain ⟨up', hup'', hfixed', -⟩ := hrows up hup'
  simp only [DeliveredMail.fixed, DeliveredMail.mk.injEq] at hfixed hfixed'
  obtain ⟨hseq, hrecipient, -⟩ := hfixed
  obtain ⟨hseq', -, hsender', htype', -, -, -, hcause', -⟩ := hfixed'
  refine ⟨item', hitem', up', hup'', hseq, hseq', hkeeps hheld hresolved, htype'.trans htype, ?_,
    hcause'.trans hcause⟩
  rw [hsender', hsender, hrecipient]

/-- A change that adds neither rows nor links keeps the inbox sound. -/
theorem SoundInbox.of_rows {t t' : MailTables} (h : SoundInbox t)
    (hlinks : ∀ {a b : ℕ}, GoesUp t' a b → GoesUp t a b) (hrows : KeepsRows t t')
    (hold : ∀ row' ∈ t'.inbox, ∃ row ∈ t.inbox, row'.fixed = row.fixed) : SoundInbox t' where
  addressed row' hrow' := by
    obtain ⟨row, hrow, hfixed⟩ := hold row' hrow'
    rw [recipient_of_fixed hfixed]
    exact h.addressed row hrow
  joins hup := h.joins_kept hrows (hlinks hup) (isHeld_iff_goesUp.2 ⟨_, hup⟩)

/-- An update of rows that unresolves none keeps the inbox sound. -/
theorem SoundInbox.updateWhere {t : MailTables} (h : SoundInbox t) (update : RowUpdate)
    (p : DeliveredMail → Bool)
    (hresolved : ∀ row, row.resolved = true → (update.run row).resolved = true) :
    SoundInbox (t.updateWhere update p) := by
  have hfixed : ∀ row, (if p row then update.run row else row).fixed = row.fixed := by
    intro row
    exact (update.onlyWhere p).fixed_run row
  refine h.of_rows (fun hup => hup) (fun row hrow => ?_) fun row' hrow' => ?_
  · refine ⟨_, MailTables.mem_updateWhere.2 ⟨row, hrow, rfl⟩, hfixed row, fun _ hres => ?_⟩
    split
    · exact hresolved row hres
    · exact hres
  · obtain ⟨row, hrow, rfl⟩ := MailTables.mem_updateWhere.1 hrow'
    exact ⟨row, hrow, hfixed row⟩

theorem mailRecipientForScope_ne {scope recipient : String}
    (h : mailRecipientForScope scope = .ok recipient) : recipient ≠ "" := by
  unfold mailRecipientForScope at h
  cases hscope : afterPrefix? MAIL_SCOPE_PREFIX scope with
  | none => simp [hscope] at h
  | some text =>
    rw [hscope] at h
    by_cases hempty : text = ""
    · simp [hempty] at h
    · simp only [if_neg hempty, pure_eq_ok] at h
      rw [← h]
      exact hempty

/-- Folding one mail event keeps the inbox sound. -/
theorem SoundInbox.step {t t' : MailTables} {event : StoredEvent MailEvent} (h : SoundInbox t)
    (happlied : Applied t event t') : SoundInbox t' := by
  cases happlied with
  | collapsed => exact h
  | added hpayload hscope hactor hadded =>
    have hrows : KeepsRows t t' := fun row hrow =>
      ⟨_, (hadded.mem _).2 (.inr ⟨row, hrow, rfl⟩), fixed_answered _ row,
        fun _ => resolved_answered⟩
    refine ⟨fun row' hrow' => ?_, fun hup => ?_⟩
    · cases (hadded.mem row').1 hrow' with
      | inl hnew =>
        subst hnew
        exact mailRecipientForScope_ne hscope
      | inr hkept =>
        obtain ⟨row, hrow, rfl⟩ := hkept
        rw [recipient_of_fixed (fixed_answered _ row)]
        exact h.addressed row hrow
    · exact h.joins_kept hrows ((goesUp_congr hadded.links).1 hup) (isHeld_iff_goesUp.2 ⟨_, hup⟩)
  | read => exact h.updateWhere _ _ fun _ hres => hres
  | cleared => exact h.updateWhere _ _ fun _ hres => hres
  | @retracted row hpayload hrow hreview =>
    have hfixed : ∀ old, (reopened (withRetracted t row) row (withdrawn row old)).fixed =
        old.fixed := fun old => (fixed_reopened _ _ _).trans (fixed_withdrawn row old)
    refine h.of_rows (fun hup => (goesUp_withdrawal.1 hup).1) (fun old hold => ?_)
      fun row' hrow' => ?_
    · refine ⟨_, (mem_withdrawal hrow).2 ⟨old, hold, rfl⟩, hfixed old, fun hheld hresolved => ?_⟩
      refine resolved_reopened ?_ (by simpa using hresolved)
      rw [seq_of_fixed (fixed_withdrawn row old)]
      simpa [MailTables.isHeld] using hheld
    · obtain ⟨old, hold, rfl⟩ := (mem_withdrawal hrow).1 hrow'
      exact ⟨old, hold, hfixed old⟩
  | @forwarded item up forwardedTo _ hpayload hitem hunretracted htype hforwarded hheld hinbox
      hlinks =>
    have hrows : KeepsRows t t' := fun row hrow =>
      ⟨_, (hinbox _).2 ⟨row, hrow, rfl⟩, fixed_discharged item row, fun _ => resolved_discharged⟩
    refine ⟨fun row' hrow' => ?_, fun {a b} hup => ?_⟩
    · obtain ⟨row, hrow, rfl⟩ := (hinbox row').1 hrow'
      rw [recipient_of_fixed (fixed_discharged item row)]
      exact h.addressed row hrow
    · cases (goesUp_append hlinks).1 hup with
      | inl hold => exact h.joins_kept hrows hold (isHeld_iff_goesUp.2 ⟨_, hup⟩)
      | inr hnew =>
        obtain ⟨rfl, rfl⟩ := hnew
        have hmem := List.mem_filter.1 (List.mem_of_getLast? hforwarded)
        simp only [Bool.and_eq_true, beq_iff_eq] at hmem
        obtain ⟨hup', ⟨⟨⟨hsender, -⟩, htype'⟩, hcause⟩, -⟩ := hmem
        have hup'' := fixed_discharged item up
        simp only [DeliveredMail.fixed, DeliveredMail.mk.injEq] at hup''
        obtain ⟨hseq, -, hsender', htype'', -, -, -, hcause', -⟩ := hup''
        have hitem' : discharged item item = { item with resolved := true } := if_pos rfl
        refine ⟨_, (hinbox _).2 ⟨item, hitem, rfl⟩, _, (hinbox _).2 ⟨up, hup', rfl⟩, ?_, hseq, ?_,
          htype''.trans htype', ?_, hcause'.trans hcause⟩
        · rw [hitem']
        · rw [hitem']
        · rw [hsender', hsender, hitem']
  | liveEffect hpayload hinbox hlinks =>
    refine h.of_rows (goesUp_congr hlinks).1 (fun row hrow => ?_) fun row' hrow' => ?_
    · exact ⟨row, hinbox ▸ hrow, rfl, fun _ hresolved => hresolved⟩
    · exact ⟨row', hinbox ▸ hrow', rfl⟩

theorem soundInbox_of_consistent {db : Db} (h : Consistent db) : SoundInbox db.mail := by
  refine foldEvents_induction (fun _ t => SoundInbox t.mail) ?_ ?_ h.replayed
  · exact ⟨fun _ hrow => absurd hrow List.not_mem_nil, fun hup => absurd hup (by
      rintro ⟨link, hlink, -⟩
      exact List.not_mem_nil hlink)⟩
  · intro events t event t' ht hfold
    cases foldEvent_mail hfold with
    | inl hmail =>
      obtain ⟨payload, payload', -, -, happly⟩ := hmail
      exact ht.step (applied_of_apply happly)
    | inr hother =>
      rw [hother.2]
      exact ht

/-! ## Appending goes through -/

/-- An event of the mail store that its fold accepts can be folded. -/
theorem foldEvent_mail_eq_ok {t : Projections} {event : StoredEvent Payload}
    {payload payload' : MailEvent} {tables : MailTables} (hv : event.v ≤ 1)
    (hpayload : event.payload = .mail payload) (hschema : mailSchemas payload = .ok payload')
    (happly : MailProjector.apply t.mail (event.withPayload payload') = .ok tables) :
    foldEvent t event = .ok { t with mail := tables } := by
  have hdecode : decode event = .ok (event.withPayload (.mail payload')) := by
    simp only [decode, bind_eq_ok, pure_eq_ok, upcast_eq_ok]
    exact ⟨_, ⟨hv, rfl⟩, .mail payload', by rw [hpayload, Payload.schema, hschema]; rfl, rfl⟩
  rw [foldEvent, hdecode]
  change (do return { t with mail := ← MailProjector.apply t.mail (event.withPayload payload') }) =
    Except.ok { t with mail := tables }
  rw [happly]
  rfl

/-- A row with a number and a key of its own can be inserted. -/
theorem insertOrIgnore_of_fresh {t : MailTables} {row : DeliveredMail}
    (hkey : ∀ old ∈ t.inbox, old.sameKey row = false) (hseq : ∀ old ∈ t.inbox, old.seq ≠ row.seq) :
    ∃ t', t.insertOrIgnore row = .ok (t', true) := by
  unfold MailTables.insertOrIgnore
  have hfree : ¬ ∃ r ∈ t.inbox, r.sameKey row = true := by
    rintro ⟨r, hr, hsame⟩
    rw [hkey r hr] at hsame
    cases hsame
  have hnew : (t.inbox.any (·.seq == row.seq)) = false := by
    rw [List.any_eq_false]
    intro old hold
    simpa using hseq old hold
  rw [dif_neg hfree, hnew]
  exact ⟨_, rfl⟩

theorem apply_mail {t : MailTables} {event : StoredEvent MailEvent} {type : MailType}
    {payload : MailPayload} (h : event.payload = .mail type payload) :
    MailProjector.apply t event = applyMail t event type payload := by
  simp only [MailProjector.apply, h]

theorem apply_forwarded {t : MailTables} {event : StoredEvent MailEvent} {seq : ℕ}
    {forwardedTo : String} (h : event.payload = .forwarded seq forwardedTo) :
    MailProjector.apply t event = applyForwardReceipt t event seq forwardedTo := by
  simp only [MailProjector.apply, h]

/-- A valid mail whose key is free can be appended while the log has room. -/
theorem commit_mail_of_fresh {db : Db} (hdb : Consistent db)
    (hroom : db.nextSeq ≤ Js.maxSafeInteger) {envelope : MailEnvelope}
    (hfresh : existingForKey db.mail envelope = none) {payload : MailPayload}
    (hvalid : validateEnvelope envelope = .ok payload) :
    ∃ e db', makeMailEvent envelope = .ok e ∧ db.commit (toProject e) = .ok db' := by
  obtain ⟨hto, -, hschema⟩ := validateEnvelope_eq_ok hvalid
  have hmake : ∃ e, makeMailEvent envelope = .ok e ∧ e.v = 1 ∧ e.scope = mailScope envelope.to ∧
      e.payload = .mail envelope.type payload ∧ e.actor = some envelope.from ∧
      e.idempotencyKey = envelope.idempotencyKey := by
    rw [makeMailEvent, hvalid]
    exact ⟨_, rfl, rfl, rfl, rfl, rfl, rfl⟩
  obtain ⟨e, he, hv, hscope, hpayload, hactor, hkey⟩ := hmake
  have hschema' : mailSchemas e.payload = .ok e.payload := by
    rw [hpayload, mailSchemas, mailSchema_idem hschema]
    rfl
  obtain ⟨t', hinsert⟩ : ∃ t', db.mail.insertOrIgnore
      (mailRow ((db.stored (toProject e)).withPayload e.payload) envelope.to envelope.from
        envelope.type payload) = .ok (t', true) := by
    refine insertOrIgnore_of_fresh (fun old hold => ?_) fun old hold => ?_
    · have hfree := (existingForKey_eq_none 0 0).1 hfresh old hold
      have hrow : (mailRow ((db.stored (toProject e)).withPayload e.payload) envelope.to
          envelope.from envelope.type payload).idempotencyKey = envelope.idempotencyKey := hkey
      rw [DeliveredMail.sameKey, hrow]
      exact hfree
    · exact Nat.ne_of_lt (row_of_log hdb hold).2
  have happly : ∃ tables, MailProjector.apply db.mail
      ((db.stored (toProject e)).withPayload e.payload) = .ok tables := by
    have hmail : MailProjector.apply db.mail ((db.stored (toProject e)).withPayload e.payload) =
        applyMail db.mail ((db.stored (toProject e)).withPayload e.payload) envelope.type payload :=
      apply_mail hpayload
    rw [hmail]
    refine ⟨_, bind_eq_ok.2 ⟨envelope.from, orThrow_eq_ok.2 hactor, bind_eq_ok.2 ⟨envelope.to, ?_,
      bind_eq_ok.2 ⟨_, hinsert, rfl⟩⟩⟩⟩
    change mailRecipientForScope e.scope = _
    rw [hscope, mailRecipientForScope_mailScope hto]
  obtain ⟨tables, happly⟩ := happly
  have hfold : foldEvent db.toProjections (db.stored (toProject e)) =
      .ok { db.toProjections with mail := tables } :=
    foldEvent_mail_eq_ok (Nat.le_of_eq hv) rfl hschema' happly
  exact ⟨e, _, he, commit_eq_ok.2 ⟨hroom, _, hfold, rfl⟩⟩

/-! ## A forward goes through -/

/-- The escalation by which a holder passes a held item to its parent. -/
def upward (parent : String) (held : DeliveredMail) : MailEnvelope where
  type := .escalation
  «to» := parent
  «from» := held.recipient
  subject := held.subject
  body := held.body
  correlationId := some held.threadId
  causationId := some (toString held.seq)

/-- An escalation answers nothing. -/
theorem answered_escalation {closer row : DeliveredMail} (h : closer.type = .escalation) :
    answered closer row = row := by
  refine if_neg ?_
  rintro ⟨hcloses, -⟩
  unfold closes at hcloses
  cases htype : row.type <;> simp [htype, completionPredicate, h] at hcloses

/-- `item` went up as `up`, and nothing else changed. -/
structure Climbed (item up : DeliveredMail) (t t' : MailTables) : Prop where
  mem : ∀ mail, mail ∈ t'.inbox ↔ mail = up ∨ ∃ old ∈ t.inbox, mail = discharged item old
  goesUp : ∀ {a b : ℕ}, GoesUp t' a b ↔ GoesUp t a b ∨ (a = item.seq ∧ b = up.seq)
  newest : ∀ old ∈ t.inbox, old.seq < up.seq

/-- The receipt of a forward is accepted once the escalation is there. -/
theorem applyForwardReceipt_of_raised {t : MailTables} (event : StoredEvent MailEvent)
    {item up : DeliveredMail} (hsound : SoundInbox t) (hitem : item ∈ t.inbox)
    (hup : up ∈ t.inbox) (hscope : event.scope = mailScope item.recipient)
    (hactor : event.actor = some item.recipient) (hopen : item.resolved = false)
    (hvisible : item.retracted = false)
    (htype : item.type = .escalation ∨ item.type = .clarifyRequest)
    (hescalation : up.type = .escalation) (hsender : up.sender = item.recipient)
    (hcause : up.causationId = some (toString item.seq))
    (hthread : up.correlationId = some item.threadId)
    (hnewest : ∀ row ∈ t.inbox, row.seq ≤ up.seq) (hfree : t.forwardLinks.find? up.seq = none) :
    ∃ t', applyForwardReceipt t event item.seq up.recipient = .ok t' ∧
      (∀ mail, mail ∈ t'.inbox ↔ ∃ old ∈ t.inbox, mail = discharged item old) ∧
      t'.forwardLinks.rows =
        t.forwardLinks.rows ++ [⟨up.seq, item.seq, item.recipient, up.recipient⟩] := by
  have hkind : item.kind = .actionable := by
    cases htype with
    | inl h => rw [DeliveredMail.kind, h]; rfl
    | inr h => rw [DeliveredMail.kind, h]; rfl
  have hheld : t.isHeld item.seq = false := by
    rw [Bool.eq_false_iff]
    intro hheld
    rw [hsound.resolved_of_isHeld hitem hheld] at hopen
    cases hopen
  have hmatches : (up.sender == item.recipient && up.recipient == up.recipient &&
      up.type == .escalation && up.causationId == some (toString item.seq) &&
      up.correlationId == some (threadOf item.correlationId item.seq)) = true := by
    rw [DeliveredMail.threadId] at hthread
    simp [hsender, hescalation, hcause, hthread]
  obtain ⟨last, hlast⟩ : ∃ last, (t.inbox.filter fun mail =>
      mail.sender == item.recipient && mail.recipient == up.recipient &&
        mail.type == .escalation && mail.causationId == some (toString item.seq) &&
        mail.correlationId == some (threadOf item.correlationId item.seq)).getLast? =
      some last := by
    have hne : (t.inbox.filter fun mail =>
        mail.sender == item.recipient && mail.recipient == up.recipient &&
          mail.type == .escalation && mail.causationId == some (toString item.seq) &&
          mail.correlationId == some (threadOf item.correlationId item.seq)) ≠ [] :=
      List.ne_nil_of_mem (List.mem_filter.2 ⟨hup, hmatches⟩)
    exact ⟨_, List.getLast?_eq_some_getLast hne⟩
  obtain rfl : last = up := getLast?_filter_eq hup hmatches hnewest hlast
  obtain ⟨links, hinsert⟩ : ∃ links, t.forwardLinks.insert?
      ⟨last.seq, item.seq, item.recipient, last.recipient⟩ = some links :=
    Table.exists_insert? hfree
  have hrecipient : mailRecipientForScope event.scope = .ok item.recipient := by
    rw [hscope, mailRecipientForScope_mailScope (hsound.addressed item hitem)]
  have hok : ∃ t', applyForwardReceipt t event item.seq last.recipient = .ok t' := by
    refine ⟨_, bind_eq_ok.2 ⟨_, hrecipient, bind_eq_ok.2 ⟨(), ?_, bind_eq_ok.2 ⟨item, ?_,
      bind_eq_ok.2 ⟨(), ?_, bind_eq_ok.2 ⟨(), ?_, bind_eq_ok.2 ⟨last, ?_, bind_eq_ok.2 ⟨(), ?_,
      bind_eq_ok.2 ⟨links, ?_, rfl⟩⟩⟩⟩⟩⟩⟩⟩⟩
    · simp [hactor]
    · exact orThrow_eq_ok.2 (selectMailBySeq_eq_some.2 ⟨hitem, rfl⟩)
    · simp [hkind, hvisible]
    · rw [refuse_eq_ok]
      rintro ⟨hne, hne'⟩
      exact htype.elim hne hne'
    · exact orThrow_eq_ok.2 hlast
    · simp [hheld]
    · exact orThrow_eq_ok.2 hinsert
  obtain ⟨t', hok⟩ := hok
  refine ⟨t', hok, ?_⟩
  have hpayload : ({ event with payload := .forwarded item.seq last.recipient } :
      StoredEvent MailEvent).payload = .forwarded item.seq last.recipient := rfl
  cases applied_forwarded hpayload hok with
  | @forwarded item' last' _ _ hpayload' hitem' _ _ hlast' _ hinbox hlinks =>
    obtain ⟨hseq, rfl⟩ := MailEvent.forwarded.inj hpayload'
    obtain rfl := DeliveredMail.eq_of_seq_eq hitem hitem' hseq
    obtain rfl : last' = last := Option.some.inj (hlast'.symm.trans hlast)
    exact ⟨hinbox, hlinks⟩
  | collapsed hpayload' | added hpayload' | read hpayload' | retracted hpayload'
  | liveEffect hpayload' => cases hpayload'
  | cleared hpayload' =>
    cases hpayload' with
    | inl h => cases h
    | inr h =>
      obtain ⟨sender, h⟩ := h
      cases h

/-- The receipt of a forward can be appended once the escalation is there. -/
theorem commit_receipt_of_raised {db : Db} (hdb : Consistent db)
    (hroom : db.nextSeq ≤ Js.maxSafeInteger) {item up : DeliveredMail} (hitem : item ∈ db.mail.inbox)
    (hup : up ∈ db.mail.inbox) (hopen : item.resolved = false) (hvisible : item.retracted = false)
    (htype : item.type = .escalation ∨ item.type = .clarifyRequest)
    (hescalation : up.type = .escalation) (hsender : up.sender = item.recipient)
    (hcause : up.causationId = some (toString item.seq))
    (hthread : up.correlationId = some item.threadId)
    (hnewest : ∀ row ∈ db.mail.inbox, row.seq ≤ up.seq)
    (hfree : db.mail.forwardLinks.find? up.seq = none) :
    ∃ receipt db', makeMailForwardEvent item.recipient item.seq up.recipient = .ok receipt ∧
      db.commit (toProject receipt) = .ok db' ∧ db'.roster = db.roster ∧
      (∀ mail, mail ∈ db'.mail.inbox ↔ ∃ old ∈ db.mail.inbox, mail = discharged item old) ∧
      db'.mail.forwardLinks.rows = db.mail.forwardLinks.rows ++
        [⟨up.seq, item.seq, item.recipient, up.recipient⟩] := by
  have hsound := soundInbox_of_consistent hdb
  have hschema : mailSchemas (.forwarded item.seq up.recipient) =
      .ok (.forwarded item.seq up.recipient) :=
    bind_eq_ok.2 ⟨(), minLength1_eq_ok.2 (hsound.addressed up hup), rfl⟩
  have hmake : makeMailForwardEvent item.recipient item.seq up.recipient = .ok {
      scope := mailScope item.recipient
      v := 1
      payload := .forwarded item.seq up.recipient
      actor := item.recipient
      causationId := toString item.seq } :=
    bind_eq_ok.2 ⟨(), assertAddress_eq_ok.2 (hsound.addressed item hitem),
      bind_eq_ok.2 ⟨(), assertAddress_eq_ok.2 (hsound.addressed up hup),
        bind_eq_ok.2 ⟨_, hschema, rfl⟩⟩⟩
  obtain ⟨t', happly, hinbox, hlinks⟩ := applyForwardReceipt_of_raised
    ((db.stored (toProject {
      scope := mailScope item.recipient
      v := 1
      payload := .forwarded item.seq up.recipient
      actor := item.recipient
      causationId := toString item.seq })).withPayload (.forwarded item.seq up.recipient)) hsound hitem hup rfl rfl hopen hvisible htype hescalation hsender hcause hthread hnewest hfree
  refine ⟨_, _, hmake, commit_eq_ok.2 ⟨hroom, _, foldEvent_mail_eq_ok (Nat.le_refl 1) rfl hschema
    happly, rfl⟩, rfl, hinbox, hlinks⟩

/-- An open item whose holder has a parent can be forwarded to it while the log has room. -/
theorem forward_goesUp {db : Db} (hdb : Consistent db) (hroom : db.nextSeq < Js.maxSafeInteger)
    {held item : DeliveredMail} {parent : String} (hitem : item ∈ db.mail.inbox)
    (hheld : held.fixed = item.fixed) (hopen : item.resolved = false)
    (hvisible : item.retracted = false)
    (htype : item.type = .escalation ∨ item.type = .clarifyRequest) (hparent : parent ≠ "") :
    ∃ delivered db', InProcessDelivery.forward held (upward parent held) db =
        .ok (delivered, db') ∧
      Climbed item (nextRow db (upward parent held)) db.mail db'.mail ∧
      Emits AnyEvent db db' ∧ db'.roster = db.roster ∧ db'.nextSeq = db.nextSeq + 2 := by
  have hsound := soundInbox_of_consistent hdb
  simp only [DeliveredMail.fixed, DeliveredMail.mk.injEq] at hheld
  obtain ⟨hseq, hrecipient, -, -, hsubject, hbody, hcorrelation, -⟩ := hheld
  have hthread : held.threadId = item.threadId := by
    rw [DeliveredMail.threadId, DeliveredMail.threadId, hseq, hcorrelation]
  have hholder := hsound.addressed item hitem
  have hvalid : validateEnvelope (upward parent held) = .ok {
      subject := held.subject, body := held.body, decision := none, reviewVerdict := none } := by
    refine bind_eq_ok.2 ⟨(), assertAddress_eq_ok.2 hparent, bind_eq_ok.2 ⟨(), ?_, ?_⟩⟩
    · exact assertAddress_eq_ok.2 (by rw [upward, hrecipient]; exact hholder)
    · rfl
  obtain ⟨e, mid, he, hcommit⟩ := commit_mail_of_fresh hdb (Nat.le_of_lt hroom) rfl hvalid
  have hadded := added_of_fresh he rfl hcommit
  have hescalation : (nextRow db (upward parent held)).type = .escalation := rfl
  have hmem : ∀ mail, mail ∈ mid.mail.inbox ↔
      mail = nextRow db (upward parent held) ∨ mail ∈ db.mail.inbox := by
    intro mail
    rw [hadded.mem]
    simp only [answered_escalation hescalation, exists_eq_right']
  have hnewest : ∀ old ∈ db.mail.inbox, old.seq < (nextRow db (upward parent held)).seq :=
    fun old hold => (row_of_log hdb hold).2
  obtain ⟨receipt, db', hreceipt, hcommit', hroster, hinbox, hlinks⟩ :=
    commit_receipt_of_raised (hdb.commit hcommit)
      (by rw [nextSeq_of_commit hcommit]; exact hroom) ((hmem item).2 (.inr hitem))
      ((hmem _).2 (.inl rfl)) hopen hvisible htype hescalation hrecipient
      (congrArg (fun seq => some (toString seq)) hseq) (congrArg some hthread)
      (by
        intro row hrow
        cases (hmem row).1 hrow with
        | inl h => exact Nat.le_of_eq (congrArg DeliveredMail.seq h)
        | inr h => exact Nat.le_of_lt (hnewest row h))
      (by
        rw [hadded.links, Table.find?_eq_none]
        intro link hlink hkey
        obtain ⟨_, _, up, hup, _, hupSeq, _⟩ := hsound.joins ⟨link, hlink, rfl, rfl⟩
        exact Nat.ne_of_lt (hnewest up hup) (hupSeq.trans hkey))
  have hkind : item.kind = .actionable := by
    cases htype with
    | inl h => rw [DeliveredMail.kind, h]; rfl
    | inr h => rw [DeliveredMail.kind, h]; rfl
  have hupward : assertForwardEnvelope item (upward parent held) = .ok () :=
    assertForwardEnvelope_eq_ok.2 ⟨htype, rfl, hrecipient,
      congrArg (fun seq => some (toString seq)) hseq, congrArg some hthread⟩
  have hne : (nextRow db (upward parent held)).seq ≠ item.seq :=
    (Nat.ne_of_lt (hnewest item hitem)).symm
  have hrow : selectMailBySeq db'.mail db.nextSeq = some (nextRow db (upward parent held)) := by
    refine selectMailBySeq_eq_some.2 ⟨(hinbox _).2 ⟨_, (hmem _).2 (.inl rfl), ?_⟩, rfl⟩
    exact (if_neg hne).symm
  refine ⟨nextRow db (upward parent held), db', ?_, ⟨fun mail => ?_, ?_, hnewest⟩, ?_, ?_, ?_⟩
  · simp only [InProcessDelivery.forward, reading_bind]
    refine Tx.liftM_bind_eq_ok.2 ⟨item, orThrow_eq_ok.2 ?_, Tx.liftM_bind_eq_ok.2 ⟨(), ?_,
      Tx.liftM_bind_eq_ok.2 ⟨(), hupward, Tx.bind_eq_ok.2 ⟨_, mid,
        recordMail_eq_ok.2 ⟨e, he, rfl, hcommit⟩, Tx.bind_eq_ok.2 ⟨_, db',
          recordMail_eq_ok.2 ⟨receipt, ?_, rfl, hcommit'⟩, ?_⟩⟩⟩⟩⟩
    · exact selectMailBySeq_eq_some.2 ⟨hitem, hseq.symm⟩
    · simp [hrecipient, hkind, hopen, hvisible]
    · rw [hrecipient, hseq]
      exact hreceipt
    · rw [reading_bind, Tx.liftM_eq_ok]
      exact ⟨orThrow_eq_ok.2 hrow, rfl⟩
  · rw [hinbox]
    constructor
    · rintro ⟨old, hold, rfl⟩
      cases (hmem old).1 hold with
      | inl hnew =>
        subst hnew
        exact .inl (if_neg hne)
      | inr hold => exact .inr ⟨old, hold, rfl⟩
    · rintro (rfl | ⟨old, hold, rfl⟩)
      · exact ⟨_, (hmem _).2 (.inl rfl), (if_neg hne).symm⟩
      · exact ⟨old, (hmem old).2 (.inr hold), rfl⟩
  · intro a b
    rw [goesUp_append hlinks, goesUp_congr hadded.links]
    refine or_congr_right ?_
    exact and_congr eq_comm eq_comm
  · exact Relation.ReflTransGen.trans (Emits.single trivial hcommit) (Emits.single trivial hcommit')
  · rw [hroster]
    have hsame : mid.roster = db.roster :=
      same_of_commit (p := .roster) (by
        simp only [makeMailEvent, bind_eq_ok, pure_eq_ok] at he
        obtain ⟨payload, -, rfl⟩ := he
        intro hprojector
        cases hprojector) hcommit
    exact hsame
  · rw [nextSeq_of_commit hcommit', nextSeq_of_commit hcommit]

/-! ## What a forward leaves to wait for -/

/-- `reply` is a visible answer to the clarify request `m`. -/
structure Answers (reply m : DeliveredMail) : Prop where
  type : reply.type = .clarifyResponse
  visible : reply.retracted = false
  sender : reply.sender = m.recipient
  recipient : reply.recipient = m.sender
  thread : reply.correlationId = some m.threadId
  cause : reply.causationId = some (toString m.seq)

theorem mem_waitingItems {t : MailTables} {agent : String} {m : DeliveredMail} :
    m ∈ waitingItems t agent ↔ m ∈ t.inbox ∧ m.sender = agent ∧ m.type = .clarifyRequest ∧
      m.retracted = false ∧ ∀ reply ∈ t.inbox, ¬ Answers reply m := by
  simp only [waitingItems, sentByForSender, inboxForRecipient, List.mem_filter, Bool.and_eq_true,
    beq_iff_eq, Bool.not_eq_true', Bool.eq_false_iff, List.any_eq_true, ne_eq, not_exists, not_and,
    and_assoc]
  constructor
  · rintro ⟨hm, rfl, htype, hvisible, hnone⟩
    refine ⟨hm, rfl, htype, hvisible, fun reply hreply hanswers => ?_⟩
    exact hnone reply hreply hanswers.recipient (by simp [hanswers.visible]) hanswers.type
      hanswers.sender hanswers.recipient hanswers.thread hanswers.cause
  · rintro ⟨hm, rfl, htype, hvisible, hnone⟩
    refine ⟨hm, rfl, htype, hvisible, fun reply hreply _ hunretracted hclarify hsender hrecipient
      hthread hcause => ?_⟩
    exact hnone reply hreply ⟨hclarify, by simpa using hunretracted, hsender, hrecipient, hthread,
      hcause⟩

/-- The forward of an item takes nothing away that an agent waits for, and adds nothing. -/
theorem Climbed.waitingItems {item up : DeliveredMail} {t t' : MailTables}
    (h : Climbed item up t t') (hescalation : up.type = .escalation) {agent : String}
    {m' : DeliveredMail} : m' ∈ Mail.waitingItems t' agent ↔
      ∃ m ∈ Mail.waitingItems t agent, m' = discharged item m := by
  have hfixed : ∀ row, (discharged item row).sender = row.sender ∧
      (discharged item row).recipient = row.recipient ∧ (discharged item row).type = row.type ∧
      (discharged item row).seq = row.seq ∧ (discharged item row).correlationId = row.correlationId ∧
      (discharged item row).causationId = row.causationId := by
    intro row
    unfold discharged
    split
    · exact ⟨rfl, rfl, rfl, rfl, rfl, rfl⟩
    · exact ⟨rfl, rfl, rfl, rfl, rfl, rfl⟩
  have hanswers : ∀ m, (∀ reply ∈ t'.inbox, ¬ Answers reply (discharged item m)) ↔
      ∀ reply ∈ t.inbox, ¬ Answers reply m := by
    intro m
    obtain ⟨hsender, hrecipient, -, hseq, hcorrelation, -⟩ := hfixed m
    have hthread : (discharged item m).threadId = m.threadId := by
      rw [DeliveredMail.threadId, DeliveredMail.threadId, hseq, hcorrelation]
    constructor
    · intro hnone reply hreply hreplies
      obtain ⟨hsender', hrecipient', htype', -, hcorrelation', hcause'⟩ := hfixed reply
      refine hnone _ ((h.mem _).2 (.inr ⟨reply, hreply, rfl⟩)) ⟨htype'.trans hreplies.type, ?_,
        hsender'.trans (hreplies.sender.trans hrecipient.symm),
        hrecipient'.trans (hreplies.recipient.trans hsender.symm), ?_, ?_⟩
      · rw [retracted_discharged]
        exact hreplies.visible
      · rw [hcorrelation', hthread]
        exact hreplies.thread
      · rw [hcause', hseq]
        exact hreplies.cause
    · intro hnone reply' hreply' hreplies
      cases (h.mem reply').1 hreply' with
      | inl hup =>
        subst hup
        rw [hreplies.type] at hescalation
        cases hescalation
      | inr hold =>
        obtain ⟨reply, hreply, rfl⟩ := hold
        obtain ⟨hsender', hrecipient', htype', -, hcorrelation', hcause'⟩ := hfixed reply
        refine hnone reply hreply ⟨htype'.symm.trans hreplies.type, ?_,
          hsender'.symm.trans (hreplies.sender.trans hrecipient),
          hrecipient'.symm.trans (hreplies.recipient.trans hsender), ?_, ?_⟩
        · rw [← retracted_discharged item reply]
          exact hreplies.visible
        · rw [← hcorrelation', ← hthread]
          exact hreplies.thread
        · rw [← hcause', ← hseq]
          exact hreplies.cause
  rw [mem_waitingItems]
  constructor
  · rintro ⟨hm', rfl, htype, hvisible, hnone⟩
    cases (h.mem m').1 hm' with
    | inl hup =>
      subst hup
      rw [htype] at hescalation
      cases hescalation
    | inr hold =>
      obtain ⟨m, hm, rfl⟩ := hold
      obtain ⟨hsender, -, htype', -⟩ := hfixed m
      refine ⟨m, mem_waitingItems.2 ⟨hm, hsender.symm, htype'.symm.trans htype, ?_,
        (hanswers m).1 hnone⟩, rfl⟩
      rwa [retracted_discharged] at hvisible
  · rintro ⟨m, hm, rfl⟩
    obtain ⟨hmem, rfl, htype, hvisible, hnone⟩ := mem_waitingItems.1 hm
    obtain ⟨hsender, -, htype', -⟩ := hfixed m
    refine ⟨(h.mem _).2 (.inr ⟨m, hmem, rfl⟩), hsender, htype'.trans htype, ?_, (hanswers m).2 hnone⟩
    rw [retracted_discharged]
    exact hvisible

/-! ## Links end by withdrawal -/

/-- `up` is an escalation by which the holder of `item` sends it up. -/
structure RaisedFor (item up : DeliveredMail) : Prop where
  type : up.type = .escalation
  sender : up.sender = item.recipient
  cause : up.causationId = some (toString item.seq)

theorem RaisedFor.congr {item up item' up' : DeliveredMail} (h : RaisedFor item up)
    (hitem : item'.fixed = item.fixed) (hup : up'.fixed = up.fixed) : RaisedFor item' up' := by
  simp only [DeliveredMail.fixed, DeliveredMail.mk.injEq] at hitem hup
  obtain ⟨hseq, hrecipient, -⟩ := hitem
  obtain ⟨-, -, hsender, htype, -, -, -, hcause, -⟩ := hup
  refine ⟨htype.trans h.type, ?_, ?_⟩
  · rw [hsender, hrecipient]
    exact h.sender
  · rw [hcause, hseq]
    exact h.cause

/-- The item at `seq` went up, and is still up or was up until that mail was withdrawn. -/
def WentUpOnce (t : MailTables) (seq : ℕ) : Prop :=
  ∃ item ∈ t.inbox, ∃ up ∈ t.inbox, item.seq = seq ∧ RaisedFor item up ∧
    (GoesUp t seq up.seq ∨ up.retracted = true)

theorem SoundInbox.wentUpOnce {t : MailTables} (h : SoundInbox t) {seq : ℕ}
    (hheld : t.isHeld seq = true) : WentUpOnce t seq := by
  obtain ⟨b, hup⟩ := isHeld_iff_goesUp.1 hheld
  obtain ⟨item, hitem, up, hmem, rfl, rfl, -, htype, hsender, hcause⟩ := h.joins hup
  exact ⟨item, hitem, up, hmem, rfl, ⟨htype, hsender, hcause⟩, .inl hup⟩

/-- Rows stay, and a withdrawn one stays withdrawn. -/
theorem row_stays {t t' : MailTables} {event : StoredEvent MailEvent} {row : DeliveredMail}
    (happlied : Applied t event t') (hrow : row ∈ t.inbox) :
    ∃ row' ∈ t'.inbox, row'.fixed = row.fixed ∧
      (row.retracted = true → row'.retracted = true) := by
  have hupdate : ∀ (update : RowUpdate) (p : DeliveredMail → Bool),
      (row.retracted = true → ((update.onlyWhere p).run row).retracted = true) →
      ∃ row' ∈ (t.updateWhere update p).inbox, row'.fixed = row.fixed ∧
        (row.retracted = true → row'.retracted = true) :=
    fun update p hkeeps => ⟨_, MailTables.mem_updateWhere.2 ⟨row, hrow, rfl⟩,
      (update.onlyWhere p).fixed_run row, hkeeps⟩
  cases happlied with
  | collapsed => exact ⟨row, hrow, rfl, id⟩
  | added hpayload hscope hactor hadded =>
    refine ⟨_, (hadded.mem _).2 (.inr ⟨row, hrow, rfl⟩), fixed_answered _ row, fun h => ?_⟩
    rw [retracted_answered, h]
  | read =>
    refine hupdate _ _ fun h => ?_
    rw [retracted_setRead, h]
  | cleared =>
    refine hupdate _ _ fun h => ?_
    unfold RowUpdate.onlyWhere
    dsimp only
    split
    · rfl
    · exact h
  | @retracted closer hpayload hmem hreview =>
    refine ⟨_, (mem_withdrawal hmem).2 ⟨row, hrow, rfl⟩,
      (fixed_reopened _ _ _).trans (fixed_withdrawn closer row), fun h => ?_⟩
    rw [retracted_reopened]
    unfold withdrawn
    split
    · rfl
    · exact h
  | @forwarded item up _ _ _ _ _ _ _ _ hinbox _ =>
    refine ⟨_, (hinbox _).2 ⟨row, hrow, rfl⟩, fixed_discharged item row, fun h => ?_⟩
    rw [retracted_discharged, h]
  | liveEffect hpayload hinbox hlinks => exact ⟨row, hinbox ▸ hrow, rfl, id⟩

theorem WentUpOnce.step {t t' : MailTables} {event : StoredEvent MailEvent} {seq : ℕ}
    (h : WentUpOnce t seq) (happlied : Applied t event t') : WentUpOnce t' seq := by
  obtain ⟨item, hitem, up, hup, rfl, hraised, hstill⟩ := h
  obtain ⟨item', hitem', hfixed, -⟩ := row_stays happlied hitem
  obtain ⟨up', hup', hfixed', hretracted⟩ := row_stays happlied hup
  refine ⟨item', hitem', up', hup', seq_of_fixed hfixed, hraised.congr hfixed hfixed', ?_⟩
  rw [seq_of_fixed hfixed']
  cases hstill with
  | inr hwithdrawn => exact .inr (hretracted hwithdrawn)
  | inl hgoes =>
    cases happlied with
    | collapsed | read | cleared => exact .inl hgoes
    | added hpayload hscope hactor hadded => exact .inl ((goesUp_congr hadded.links).2 hgoes)
    | liveEffect hpayload hinbox hlinks => exact .inl ((goesUp_congr hlinks).2 hgoes)
    | forwarded _ _ _ _ _ _ _ hlinks => exact .inl ((goesUp_append hlinks).2 (.inl hgoes))
    | @retracted row hpayload hrow hreview =>
      by_cases hb : up.seq = row.seq
      · -- the mail that the item went up as is the one withdrawn
        obtain rfl := DeliveredMail.eq_of_seq_eq hup hrow hb
        refine .inr ?_
        have hwithdrawn := (mem_withdrawal hrow).2 ⟨up, hup, rfl⟩
        rw [DeliveredMail.eq_of_seq_eq hup' hwithdrawn ((seq_of_fixed hfixed').trans
          (seq_of_fixed ((fixed_reopened _ _ _).trans (fixed_withdrawn up up))).symm),
          retracted_reopened, withdrawn, if_pos rfl]
      · exact .inl (goesUp_withdrawal.2 ⟨hgoes, hb⟩)

/-- Whatever is appended, an item is up until the mail that it went up as is withdrawn. -/
theorem WentUpOnce.emits {P : EventClass} {db db' : Db} {seq : ℕ} (h : WentUpOnce db.mail seq)
    (hemits : Emits P db db') : WentUpOnce db'.mail seq := by
  refine hemits.preserves (fun s => WentUpOnce s.mail seq) ?_ h
  intro event s s' _ hs hcommit
  obtain ⟨-, t, ht, rfl⟩ := commit_eq_ok.1 hcommit
  cases foldEvent_mail ht with
  | inl hmail =>
    obtain ⟨payload, payload', -, -, happly⟩ := hmail
    exact hs.step (applied_of_apply happly)
  | inr hother =>
    change WentUpOnce t.mail seq
    rw [hother.2]
    exact hs

end Orchestration.Mail
