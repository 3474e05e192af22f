import Orchestration.Mail.Discharge

/-!
# Bulk clear

The clean-up of a deleted agent withdraws the actionable mail to it, whether it was answered or
not, and decides nothing anew. So an obligation keeps its law as long as no clean-up withdraws
every answer to it.
-/

namespace Orchestration.Mail

open Fallible Transaction

variable {ι : Type} {handles : ι → Delivery} {calls : List (ι × MailCall)} {clock : ℕ → ℕ}

/-! ## What a clear withdraws -/

/-- The mail that a call clears. -/
def MailCall.names : MailCall → DeliveredMail → Bool
  | .clearOutstanding recipient => fun mail =>
    mail.recipient == recipient && mail.kind == .actionable && !mail.retracted && !isReviewMail mail
  | .clearOutstandingFromSenderToRecipient sender recipient => fun mail =>
    mail.recipient == recipient && mail.sender == sender && mail.kind == .actionable &&
      !mail.retracted && !isReviewMail mail
  | _ => fun _ => false

/-- What a clear reports. -/
def MailCall.cleared (delivery : Delivery) (db : Db) : MailCall → Except String ℕ
  | .clearOutstanding recipient => (MailStore.clearOutstanding delivery recipient db).1
  | .clearOutstandingFromSenderToRecipient sender recipient =>
    (MailStore.clearOutstandingFromSenderToRecipient delivery sender recipient db).1
  | _ => .ok 0

/-- The tables after the mail that `call` names was withdrawn. -/
def withCleared (t : MailTables) (call : MailCall) : MailTables :=
  t.updateWhere .setRetracted call.names

theorem withCleared_of_none {t : MailTables} {call : MailCall}
    (h : ∀ row ∈ t.inbox, call.names row = false) : withCleared t call = t := by
  have hrows : t.inbox.map (RowUpdate.setRetracted.onlyWhere call.names).run = t.inbox := by
    refine (List.map_congr_left fun row hrow => ?_).trans (List.map_id _)
    exact if_neg (by simp [h row hrow])
  obtain ⟨inbox, links, effects, hsorted, hunique⟩ := t
  simp only [withCleared, MailTables.updateWhere, MailTables.mk.injEq, and_self, and_true]
  exact hrows

section

variable {delivery : Delivery} {db db' : Db} {recipient sender : String} {e : NewEvent MailEvent}

/-- A recipient clean-up withdraws the mail that the call names. -/
theorem mail_of_recipientCleared (he : makeMailRecipientClearedEvent recipient = .ok e)
    (hcommit : db.commit (toProject e) = .ok db') :
    db'.mail = withCleared db.mail (.clearOutstanding recipient) := by
  simp only [makeMailRecipientClearedEvent, bind_eq_ok, pure_eq_ok, assertAddress_eq_ok] at he
  obtain ⟨_, hto, rfl⟩ := he
  obtain ⟨payload', hschema, happly⟩ := apply_of_commit rfl hcommit
  obtain rfl := pure_eq_ok.1 hschema
  simp only [MailProjector.apply, StoredEvent.withPayload, applyRecipientClearedReceipt,
    bind_eq_ok, pure_eq_ok] at happly
  obtain ⟨named, hnamed, -, -, hmail⟩ := happly
  have hscope : mailRecipientForScope (mailScope recipient) = .ok named := hnamed
  rw [mailRecipientForScope_mailScope hto, Except.ok.injEq] at hscope
  subst hscope
  exact hmail.symm

/-- So does a clean-up of the mail of one sender. -/
theorem mail_of_recipientSenderCleared
    (he : makeMailRecipientSenderClearedEvent recipient sender = .ok e)
    (hcommit : db.commit (toProject e) = .ok db') :
    db'.mail = withCleared db.mail (.clearOutstandingFromSenderToRecipient sender recipient) := by
  simp only [makeMailRecipientSenderClearedEvent, bind_eq_ok, pure_eq_ok, assertAddress_eq_ok] at he
  obtain ⟨_, hto, _, -, rfl⟩ := he
  obtain ⟨payload', hschema, happly⟩ := apply_of_commit rfl hcommit
  obtain rfl := mailSchemas_receipt (by simp) hschema
  simp only [MailProjector.apply, StoredEvent.withPayload, applyRecipientSenderClearedReceipt,
    bind_eq_ok, pure_eq_ok] at happly
  obtain ⟨named, hnamed, -, -, hmail⟩ := happly
  have hscope : mailRecipientForScope (mailScope recipient) = .ok named := hnamed
  rw [mailRecipientForScope_mailScope hto, Except.ok.injEq] at hscope
  subst hscope
  exact hmail.symm

end

/-- What is to be shown of the transaction of a clear. -/
theorem clear_of_transaction {body : StoreTx ℕ} {call : MailCall} {db : Db}
    (hbody : ∀ count db', body db = .ok (count, db') →
      (db.mail.inbox.filter call.names).length = count ∧ (count = 0 ∧ db = db' ∨
        ∃ e : NewEvent MailEvent, db.commit (toProject e) = .ok db' ∧
          db'.mail = withCleared db.mail call)) :
    (∀ e, (transaction body db).1 = .error e → (transaction body).exec db = db) ∧
    (∀ count, (transaction body db).1 = .ok count →
      count = (db.mail.inbox.filter call.names).length ∧
        ((transaction body).exec db).mail = withCleared db.mail call) ∧
    ∀ projector, projector ≠ .mail →
      db.toProjections.Same ((transaction body).exec db).toProjections projector := by
  rcases hrun : transaction body db with ⟨e | count, db'⟩
  · have hexec : (transaction body).exec db = db := by
      obtain rfl := transaction_error hrun
      exact congrArg Prod.snd hrun
    refine ⟨fun _ _ => hexec, fun count hcount => (by cases hcount), fun projector _ => ?_⟩
    rw [hexec]
    exact .refl _ _
  · have hexec : (transaction body).exec db = db' := congrArg Prod.snd hrun
    rw [hexec]
    obtain ⟨hcount, ⟨hzero, rfl⟩ | ⟨e, hcommit, hmail⟩⟩ := hbody count db' (transaction_eq_ok.1 hrun)
    · refine ⟨fun _ herror => (by cases herror), fun _ hreport => ?_, fun _ _ => .refl _ _⟩
      cases hreport
      refine ⟨hcount.symm, (withCleared_of_none fun row hrow => ?_).symm⟩
      rw [hzero, List.length_eq_zero_iff, List.filter_eq_nil_iff] at hcount
      simpa using hcount row hrow
    · refine ⟨fun _ herror => (by cases herror), fun _ hreport => ?_, fun projector hother => ?_⟩
      · cases hreport
        exact ⟨hcount.symm, hmail⟩
      · exact @same_of_commit db db' (toProject e) projector (Ne.symm hother) hcommit

/-- A clear that is refused leaves the project as it was; another one withdraws what it names,
reports how many mails these are, and changes no other read model. -/
theorem clear_spec (delivery : Delivery) {call : MailCall} (hclears : call.clears = true) (db : Db) :
    (∀ e, call.cleared delivery db = .error e → call.exec delivery db = db) ∧
    (∀ count, call.cleared delivery db = .ok count →
      count = (db.mail.inbox.filter call.names).length ∧
        (call.exec delivery db).mail = withCleared db.mail call) ∧
    ∀ projector, projector ≠ .mail →
      db.toProjections.Same (call.exec delivery db).toProjections projector := by
  cases call with
  | clearOutstanding recipient =>
    refine clear_of_transaction fun count db' h => ?_
    obtain ⟨hcount, hdone⟩ := InProcessDelivery.clearOutstanding_eq_ok h
    refine ⟨hcount, hdone.imp_right ?_⟩
    rintro ⟨e, he, hcommit⟩
    exact ⟨e, hcommit, mail_of_recipientCleared he hcommit⟩
  | clearOutstandingFromSenderToRecipient sender recipient =>
    refine clear_of_transaction fun count db' h => ?_
    obtain ⟨hcount, hdone⟩ := InProcessDelivery.clearOutstandingFromSenderToRecipient_eq_ok h
    refine ⟨hcount, hdone.imp_right ?_⟩
    rintro ⟨e, he, hcommit⟩
    exact ⟨e, hcommit, mail_of_recipientSenderCleared he hcommit⟩
  | _ => simp [MailCall.clears] at hclears

/-! ## What it keeps -/

/-- The flag of the item says whether it went up or was answered. -/
def Lawful (t : MailTables) (item : DeliveredMail) : Prop := item.resolved = true ↔ Discharged t item

instance (t : MailTables) (item : DeliveredMail) : Decidable (Discharged t item) :=
  inferInstanceAs (Decidable (_ ∨ ∃ closer ∈ t.inbox, closer.retracted = false ∧ _))

instance (t : MailTables) (item : DeliveredMail) : Decidable (Lawful t item) :=
  inferInstanceAs (Decidable (_ ↔ _))

/-- The call clears no answer to the item, or it leaves a reason for it to be resolved. -/
def LeavesReason (t : MailTables) (call : MailCall) (item : DeliveredMail) : Prop :=
  (∀ mail ∈ t.inbox, call.names mail = true → closes item mail = false) ∨
    Discharged (withCleared t call) item

instance (t : MailTables) (call : MailCall) (item : DeliveredMail) :
    Decidable (LeavesReason t call item) :=
  inferInstanceAs (Decidable ((∀ mail ∈ t.inbox, _ → _) ∨ _))

section

variable {t : MailTables} {call : MailCall} {item row : DeliveredMail}

theorem mem_withCleared : row ∈ (withCleared t call).inbox ∧ row.retracted = false ↔
    row ∈ t.inbox ∧ row.retracted = false ∧ call.names row = false := by
  constructor
  · rintro ⟨hrow, hstands⟩
    obtain ⟨old, hold, rfl⟩ := MailTables.mem_updateWhere.1 hrow
    cases hnames : call.names old with
    | true =>
      rw [if_pos hnames] at hstands
      cases hstands
    | false =>
      rw [if_neg (by simp [hnames])] at hstands ⊢
      exact ⟨hold, hstands, hnames⟩
  · rintro ⟨hrow, hstands, hnames⟩
    exact ⟨MailTables.mem_updateWhere.2 ⟨row, hrow, by simp [hnames]⟩, hstands⟩

theorem isHeld_withCleared (t : MailTables) (call : MailCall) (seq : ℕ) :
    (withCleared t call).isHeld seq = t.isHeld seq := rfl

/-- A clear gives no item a reason to be resolved. -/
theorem Discharged.of_withCleared (h : Discharged (withCleared t call) item) :
    Discharged t item := by
  rcases h with hheld | ⟨closer, hcloser, hstands, hcloses⟩
  · exact .inl hheld
  · exact .inr ⟨closer, (mem_withCleared.1 ⟨hcloser, hstands⟩).1, hstands, hcloses⟩

/-- It leaves one of the reasons of an item that it spares. -/
theorem Discharged.withCleared (h : Discharged t item) (hspared : LeavesReason t call item) :
    Discharged (withCleared t call) item := by
  rcases hspared with hspared | hleft
  · rcases h with hheld | ⟨closer, hcloser, hstands, hcloses⟩
    · exact .inl hheld
    · have hkept : call.names closer = false := by
        rw [← Bool.not_eq_true]
        intro hnames
        rw [hspared closer hcloser hnames] at hcloses
        cases hcloses
      exact .inr ⟨closer, (mem_withCleared.2 ⟨hcloser, hstands, hkept⟩).1, hstands, hcloses⟩
  · exact hleft

theorem Lawful.withCleared (h : Lawful t item) (hspared : LeavesReason t call item) :
    Lawful (withCleared t call) item :=
  ⟨fun hresolved => (h.1 hresolved).withCleared hspared,
    fun hdischarged => h.2 hdischarged.of_withCleared⟩

end

/-! ## Runs -/

/-- The call names no mail at `n` before it is there, and if it clears mail it spares the item at
`n`. -/
def Spares (n : ℕ) (call : ι × MailCall) (db : Db) : Prop :=
  (∀ envelope ∈ call.2.freeEnvelopes, FindsCause n db.mail envelope) ∧
    ∀ item ∈ db.mail.inbox, item.seq = n → LeavesReason db.mail call.2 item

instance (n : ℕ) (call : ι × MailCall) (db : Db) : Decidable (Spares n call db) :=
  inferInstanceAs (Decidable
    ((∀ envelope ∈ call.2.freeEnvelopes, envelope.causationId = some (toString n) →
      ∃ mail ∈ db.mail.inbox, mail.seq = n) ∧ ∀ item ∈ db.mail.inbox, _ → _))

/-- What keeps the law of the item at `n`. -/
structure LawfulAt (n : ℕ) (t : MailTables) : Prop where
  linked : LinkedInbox t
  sound : SoundAt n t
  complete : CompleteAt n t
  caused : CausedAfter n t

theorem lawfulAt_empty (n : ℕ) : LawfulAt n {} where
  linked := linkedInbox_empty
  sound _ hitem := absurd hitem List.not_mem_nil
  complete _ hitem := absurd hitem List.not_mem_nil
  caused _ hrow := absurd hrow List.not_mem_nil

theorem LawfulAt.lawful {n : ℕ} {t : MailTables} (h : LawfulAt n t) {item : DeliveredMail}
    (hitem : item ∈ t.inbox) (hn : item.seq = n) (hkind : item.kind = .actionable)
    (hstands : item.retracted = false) : Lawful t item := by
  refine ⟨h.sound item hitem hn hkind hstands, ?_⟩
  rintro (hheld | hanswered)
  · exact h.linked.resolved_of_isHeld hitem hheld
  · exact h.complete item hitem hn hstands hanswered

theorem LawfulAt.step {E : MailEnvelope → Prop} {n : ℕ} {t t' : MailTables} (h : LawfulAt n t)
    (hsafe : SafeNumbers t) (hE : ∀ envelope, E envelope → FindsCause n t envelope)
    (hstep : InboxStep E t t') : LawfulAt n t' where
  linked := h.linked.step hstep
  sound := h.sound.step hsafe h.linked hstep
  complete := h.complete.step h.caused hE hstep
  caused := h.caused.step hE hstep

theorem LawfulAt.withCleared {n : ℕ} {t : MailTables} {call : MailCall} (h : LawfulAt n t)
    (hcleared : Cleared t (withCleared t call))
    (hspared : ∀ item ∈ t.inbox, item.seq = n → LeavesReason t call item) :
    LawfulAt n (withCleared t call) where
  linked := h.linked.cleared hcleared
  sound item hitem hn hkind hstands hresolved := by
    obtain ⟨hold, -⟩ := mem_withCleared.1 ⟨hitem, hstands⟩
    exact (h.sound item hold hn hkind hstands hresolved).withCleared (hspared item hold hn)
  complete item hitem hn hstands hanswered := by
    obtain ⟨hold, -⟩ := mem_withCleared.1 ⟨hitem, hstands⟩
    obtain ⟨closer, hcloser, hcloserStands, hcloses⟩ := hanswered
    exact h.complete item hold hn hstands
      ⟨closer, (mem_withCleared.1 ⟨hcloser, hcloserStands⟩).1, hcloserStands, hcloses⟩
  caused row hrow hcause := by
    obtain ⟨old, hold, rfl⟩ := MailTables.mem_updateWhere.1 hrow
    have hfixed := (RowUpdate.setRetracted.onlyWhere call.names).fixed_run old
    have hlt := h.caused old hold ((causationId_of_fixed hfixed).symm.trans hcause)
    exact (seq_of_fixed hfixed).symm ▸ hlt

/-- Whatever the handles did: the law holds of an item as long as they spared it. -/
theorem mailRun_lawfulAt {n : ℕ} (hrun : Run.Guarded (mailStep handles) (Spares n) calls { clock }) :
    LawfulAt n (mailRun handles calls { clock }).mail := by
  have hboth : Consistent (mailRun handles calls { clock }) ∧
      LawfulAt n (mailRun handles calls { clock }).mail := by
    refine Run.invariant (fun s => Consistent s ∧ LawfulAt n s.mail) ?_ hrun
      ⟨.empty clock, lawfulAt_empty n⟩
    rintro ⟨handle, call⟩ db ⟨hnames, hspared⟩ ⟨hdb, hlaw⟩
    refine ⟨MailCall.exec_consistent hdb, ?_⟩
    cases hclears : call.clears with
    | false =>
      refine MailCall.exec_preserves (LawfulAt n) hdb hclears (E := FindsCause n db.mail) ?_ hnames
        (fun t t' hsafe hkeeps h hstep => h.step hsafe (fun envelope hfinds hcause => ?_) hstep) hlaw
      · exact fun envelope hthreaded => namesExisting_of_threaded hthreaded n
      · obtain ⟨mail, hmail, rfl⟩ := hfinds hcause
        exact hkeeps mail hmail
    | true =>
      obtain ⟨herror, hok, -⟩ := clear_spec (handles handle) hclears db
      change LawfulAt n (call.exec (handles handle) db).mail
      cases hreport : call.cleared (handles handle) db with
      | error e => rwa [herror e hreport]
      | ok count =>
        obtain ⟨-, hmail⟩ := hok count hreport
        rw [hmail]
        refine hlaw.withCleared ⟨call.names, rfl, fun mail hmail => ?_⟩ hspared
        cases call <;> simp_all [MailCall.names, MailCall.clears]
  exact hboth.2

/-- In every state that the handles reach, a bulk clear that is refused changes nothing, and
another one only the retracted flag of the standing actionable mail it names, answered or not, and
no review mail. A row that remains keeps its law if the clear withdraws no answer to it or leaves
it another reason; and if every clear so far did, and no mail named the row before it was there,
its flag says just whether it went up or a standing mail answers it. -/
theorem clear_keeps_obligations {db db' : Db} (hdb : mailRun handles calls { clock } = db)
    {handle : ι} {call : MailCall} (hclears : call.clears = true)
    (hdb' : mailStep handles (handle, call) db = db') :
    (∀ e, call.cleared (handles handle) db = .error e → db' = db) ∧
    (∀ count, call.cleared (handles handle) db = .ok count →
      count = (db.mail.inbox.filter call.names).length ∧
      db'.mail.inbox = db.mail.inbox.map (fun row =>
        if call.names row then { row with retracted := true } else row) ∧
      db'.mail.forwardLinks = db.mail.forwardLinks ∧ db'.mail.liveEffects = db.mail.liveEffects) ∧
    (∀ projector, projector ≠ .mail → db.toProjections.Same db'.toProjections projector) ∧
    (∀ item ∈ db'.mail.inbox, item.retracted = false → item ∈ db.mail.inbox ∧
      (Lawful db.mail item → LeavesReason db.mail call item → Lawful db'.mail item)) ∧
    ∀ n, Run.Guarded (mailStep handles) (Spares n) (calls ++ [(handle, call)]) { clock } →
      ∀ item ∈ db'.mail.inbox, item.seq = n → item.kind = .actionable → item.retracted = false →
        Lawful db'.mail item := by
  obtain ⟨herror, hok, hothers⟩ := clear_spec (handles handle) hclears db
  change call.exec (handles handle) db = db' at hdb'
  rw [hdb'] at herror hok hothers
  refine ⟨herror, fun count hreport => ?_, hothers, fun item hitem hstands => ?_, fun n hrun => ?_⟩
  · obtain ⟨hcount, hmail⟩ := hok count hreport
    rw [hmail]
    exact ⟨hcount, rfl, rfl, rfl⟩
  · cases hreport : call.cleared (handles handle) db with
    | error e =>
      rw [herror e hreport] at hitem ⊢
      exact ⟨hitem, fun hlaw _ => hlaw⟩
    | ok count =>
      obtain ⟨-, hmail⟩ := hok count hreport
      rw [hmail] at hitem ⊢
      exact ⟨(mem_withCleared.1 ⟨hitem, hstands⟩).1, fun hlaw hspared => hlaw.withCleared hspared⟩
  · intro item hitem hn hkind hstands
    have hlaw := mailRun_lawfulAt hrun
    have hlast : mailRun handles (calls ++ [(handle, call)]) { clock } = db' := by
      rw [mailRun, Run.after_append, Run.after_cons, Run.after_nil, ← hdb', ← hdb]
      rfl
    rw [hlast] at hlaw
    exact hlaw.lawful hitem hn hkind hstands

/-- A worker is blocked. -/
def blocked : MailEnvelope where
  type := .escalation
  «to» := "lead"
  «from» := "worker"
  subject := "blocked"
  body := "need authority"

/-- The lead asks back. -/
def askedBack : MailEnvelope where
  type := .clarifyRequest
  «to» := "worker"
  «from» := "lead"
  subject := "blocked"
  body := "which module?"
  correlationId := some "1"
  causationId := some "1"

/-- The escalation and the question that answers it. -/
def askingBack : List (Unit × MailCall) := [((), .send blocked), ((), .send askedBack)]

/-- The project after the lead asked back. -/
def askedBackDb : Db := mailRun (fun _ => .live) askingBack .atRest

/-- Clearing the lead's mail spares the question that went to the worker. -/
theorem clear_keeps_obligations_of_askingBack :
    ∃ db, mailStep (fun _ : Unit => .live) ((), .clearOutstanding "lead") askedBackDb = db ∧
      ∀ item ∈ db.mail.inbox, item.seq = 2 → item.kind = .actionable → item.retracted = false →
        Lawful db.mail item := by
  have hkept := @clear_keeps_obligations Unit (fun _ => .live) askingBack (fun _ => 0) askedBackDb _
    rfl () (.clearOutstanding "lead") rfl rfl
  exact ⟨_, rfl, hkept.2.2.2.2 2 (by decide +kernel)⟩

/-- Clearing the worker's mail withdraws the only answer to the escalation, which stays resolved;
and clearing the lead's mail withdraws the escalation, which is no longer outstanding. -/
theorem clear_strands_answered_item :
    (∃ item ∈ (mailStep (fun _ : Unit => .live) ((), .clearOutstanding "worker")
        askedBackDb).mail.inbox,
      item.kind = .actionable ∧ item.retracted = false ∧
        ¬ Lawful (mailStep (fun _ : Unit => .live) ((), .clearOutstanding "worker") askedBackDb).mail
          item) ∧
    outstandingForRecipient askedBackDb.mail "lead" = [] ∧
    ∃ item ∈ askedBackDb.mail.inbox, item.retracted = false ∧
      { item with retracted := true } ∈ (mailStep (fun _ : Unit => .live)
        ((), .clearOutstanding "lead") askedBackDb).mail.inbox := by
  refine ⟨?_, ?_, ?_⟩ <;> decide +kernel

end Orchestration.Mail
