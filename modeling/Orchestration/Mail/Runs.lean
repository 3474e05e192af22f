import Orchestration.Library.Run
import Orchestration.Mail.Obligations

/-!
# Runs of the mail store

Any number of handles call the store one after the other. Whatever they call,
every obligation of the inbox is open exactly as long as nothing that stands
discharges it.
-/

namespace Orchestration.Mail

open Fallible Transaction

variable {ι : Type}

/-- A call through the handle it is labelled with. -/
def mailStep (handles : ι → Delivery) (call : ι × MailCall) (db : Db) : Db :=
  call.2.exec (handles call.1) db

/-- The database after `calls`. -/
abbrev mailRun (handles : ι → Delivery) (calls : List (ι × MailCall)) (db : Db) : Db :=
  Run.after (mailStep handles) calls db

/-- The call is no clean-up, and the mail it sends names mail that is there. -/
def NamesEarlier (call : ι × MailCall) (db : Db) : Prop :=
  call.2.clears = false ∧ ∀ envelope ∈ call.2.freeEnvelopes, NamesExisting db.mail envelope

theorem safeNumbers_of_consistent {db : Db} (h : Consistent db) : SafeNumbers db.mail := by
  intro row hrow
  have hlt := (row_of_log h hrow).2
  have hle := h.length_le
  rw [Db.nextSeq] at hlt
  omega

theorem mailRun_consistent {handles : ι → Delivery} {calls : List (ι × MailCall)} {db : Db}
    (h : Consistent db) : Consistent (mailRun handles calls db) :=
  Run.always Consistent (fun _ _ hs => MailCall.exec_consistent hs) h

section

variable {E : MailEnvelope → Prop} {delivery : Delivery} {db : Db}

/-- The numbers of `t` are still there in `t'`. -/
def KeepsNumbers (t t' : MailTables) : Prop :=
  ∀ row ∈ t.inbox, ∃ row' ∈ t'.inbox, row'.seq = row.seq

theorem NamesExisting.mono {t t' : MailTables} {envelope : MailEnvelope}
    (h : NamesExisting t envelope) (hkeeps : KeepsNumbers t t') : NamesExisting t' envelope := by
  intro seq hcause
  obtain ⟨mail, hmail, rfl⟩ := h seq hcause
  exact hkeeps mail hmail

theorem namesExisting_of_threaded {t : MailTables} {envelope : MailEnvelope}
    (h : Threaded t envelope) : NamesExisting t envelope := by
  intro seq hcause
  obtain ⟨item, hitem, hthreaded, -⟩ := h
  exact ⟨item, hitem, Js.toString_injective (Option.some.inj (hthreaded.symm.trans hcause))⟩

/-- What every event of a call preserves, the call preserves. -/
theorem MailCall.exec_preserves (Inv : MailTables → Prop) (hdb : Consistent db) {call : MailCall}
    (hclears : call.clears = false) (hE : ∀ envelope, Threaded db.mail envelope → E envelope)
    (hfree : ∀ envelope ∈ call.freeEnvelopes, E envelope)
    (step : ∀ t t', SafeNumbers t → KeepsNumbers db.mail t → Inv t → InboxStep E t t' → Inv t')
    (h : Inv db.mail) : Inv (call.exec delivery db).mail := by
  have hkept : Consistent (call.exec delivery db) ∧
      KeepsNumbers db.mail (call.exec delivery db).mail ∧ Inv (call.exec delivery db).mail := by
    refine (exec_emits (R := AnyEvent) hdb hclears (fun _ _ _ _ => trivial) hE hfree).preserves
      (fun s => Consistent s ∧ KeepsNumbers db.mail s.mail ∧ Inv s.mail) ?_
      ⟨hdb, fun row hrow => ⟨row, hrow, rfl⟩, h⟩
    rintro event s s' happends ⟨hs, hkeeps, hinv⟩ hcommit
    refine ⟨hs.commit hcommit, fun row hrow => ?_,
      step _ _ (safeNumbers_of_consistent hs) hkeeps hinv (inboxStep_of_appends hs happends hcommit)⟩
    obtain ⟨mid, hmid, hseq⟩ := hkeeps row hrow
    obtain ⟨last, hlast, hfixed⟩ := row_persists hcommit hmid
    exact ⟨last, hlast, (seq_of_fixed hfixed).trans hseq⟩
  exact hkept.2.2

end

/-! ## The mails of the log -/

/-- The event at `seq` is a mail. -/
def LoggedMail (events : List (StoredEvent Payload)) (seq : ℕ) : Prop :=
  ∃ event ∈ events, event.seq = seq ∧ ∃ type payload, event.payload = .mail (.mail type payload)

/-- The rows of the inbox are the mails of the log. -/
def RowsAreMails (db : Db) : Prop :=
  ∀ seq, (∃ row ∈ db.mail.inbox, row.seq = seq) ↔ LoggedMail db.events seq

theorem loggedMail_of_commit {db db' : Db} {event : NewEvent Payload}
    (h : db.commit event = .ok db') {seq : ℕ} : LoggedMail db'.events seq ↔
      LoggedMail db.events seq ∨
        seq = db.nextSeq ∧ ∃ type payload, event.payload = .mail (.mail type payload) := by
  obtain ⟨-, t, -, rfl⟩ := commit_eq_ok.1 h
  simp only [LoggedMail, Db.push, List.mem_append, List.mem_singleton, or_and_right, exists_or,
    exists_eq_left, Db.stored, eq_comm (a := db.nextSeq)]

theorem RowsAreMails.receipt {db db' : Db} {event : NewEvent Payload} (h : RowsAreMails db)
    (hreceipt : ∀ type p, event.payload ≠ .mail (.mail type p))
    (hcommit : db.commit event = .ok db') : RowsAreMails db' := by
  intro seq
  rw [loggedMail_of_commit hcommit, ← h seq]
  constructor
  · rintro ⟨row, hrow, rfl⟩
    obtain ⟨old, hold, hfixed⟩ := old_row_of_receipt hcommit hreceipt hrow
    exact .inl ⟨old, hold, (seq_of_fixed hfixed).symm⟩
  · rintro (⟨row, hrow, rfl⟩ | ⟨-, type, p, hmail⟩)
    · obtain ⟨row', hrow', hfixed⟩ := row_persists hcommit hrow
      exact ⟨row', hrow', seq_of_fixed hfixed⟩
    · exact absurd hmail (hreceipt type p)

theorem RowsAreMails.appends {E : MailEnvelope → Prop} {R : EventClass} {db db' : Db}
    {event : NewEvent Payload} (h : RowsAreMails db) (hevent : Appends E R db event) (hcommit : db.commit event = .ok db') :
    RowsAreMails db' := by
  cases hevent with
  | @mail envelope e hE he hfresh =>
    have hadded := added_of_fresh he hfresh hcommit
    have hmail : ∃ type p, (toProject e).payload = .mail (.mail type p) := by
      simp only [makeMailEvent, bind_eq_ok, pure_eq_ok] at he
      obtain ⟨payload, -, rfl⟩ := he
      exact ⟨_, payload, rfl⟩
    intro seq
    rw [loggedMail_of_commit hcommit, ← h seq]
    simp only [hadded.mem, and_iff_left hmail]
    constructor
    · rintro ⟨row, rfl | ⟨old, hold, rfl⟩, rfl⟩
      · exact .inr rfl
      · exact .inl ⟨old, hold, (seq_of_fixed (fixed_answered _ old)).symm⟩
    · rintro (⟨old, hold, rfl⟩ | rfl)
      · exact ⟨_, .inr ⟨old, hold, rfl⟩, seq_of_fixed (fixed_answered _ old)⟩
      · exact ⟨_, .inl rfl, rfl⟩
  | read he =>
    simp only [makeMailReadEvent, bind_eq_ok, pure_eq_ok] at he
    obtain ⟨-, -, rfl⟩ := he
    exact h.receipt (by simp [toProject, NewEvent.withPayload]) hcommit
  | forwarded he =>
    simp only [makeMailForwardEvent, bind_eq_ok, pure_eq_ok] at he
    obtain ⟨-, -, -, -, payload, hmake, rfl⟩ := he
    obtain rfl := mailSchemas_receipt (by simp) hmake
    exact h.receipt (by simp [toProject, NewEvent.withPayload]) hcommit
  | retracted he =>
    simp only [makeMailRetractEvent, bind_eq_ok, pure_eq_ok] at he
    obtain ⟨-, -, rfl⟩ := he
    exact h.receipt (by simp [toProject, NewEvent.withPayload]) hcommit
  | liveEffect he =>
    simp only [makeMailLiveEffectEvent, bind_eq_ok, pure_eq_ok] at he
    obtain ⟨payload, hmake, rfl⟩ := he
    obtain rfl := mailSchemas_receipt (by simp) hmake
    exact h.receipt (by simp [toProject, NewEvent.withPayload]) hcommit
  | other hother _ => exact h.receipt (fun type p => hother _) hcommit

theorem RowsAreMails.clears {db db' : Db} {event : NewEvent Payload} (h : RowsAreMails db)
    (hevent : Clears db event) (hcommit : db.commit event = .ok db') : RowsAreMails db' := by
  refine h.receipt ?_ hcommit
  cases hevent with
  | recipient he =>
    simp only [makeMailRecipientClearedEvent, bind_eq_ok, pure_eq_ok] at he
    obtain ⟨-, -, rfl⟩ := he
    simp [toProject, NewEvent.withPayload]
  | sender he =>
    simp only [makeMailRecipientSenderClearedEvent, bind_eq_ok, pure_eq_ok] at he
    obtain ⟨-, -, -, -, rfl⟩ := he
    simp [toProject, NewEvent.withPayload]

/-! ## What holds in every reachable state -/

/-- What no call but a clean-up breaks: the links are in order, nothing they join was withdrawn,
and what counts as resolved is discharged. -/
structure Orderly (t : MailTables) : Prop where
  linked : LinkedInbox t
  unretracted : Unretracted t
  sound : ResolvedDischarged t

theorem not_goesUp_empty {a b : ℕ} : ¬ GoesUp {} a b := by
  rintro ⟨link, hlink, -⟩
  exact List.not_mem_nil hlink

theorem linkedInbox_empty : LinkedInbox {} where
  joins hup := absurd hup not_goesUp_empty
  held_once hup := absurd hup not_goesUp_empty

theorem orderly_empty : Orderly {} where
  linked := linkedInbox_empty
  unretracted hup := absurd hup not_goesUp_empty
  sound _ hitem := absurd hitem List.not_mem_nil

section

variable {handles : ι → Delivery} {calls : List (ι × MailCall)} {clock : ℕ → ℕ}

/-- No mail of the log was dropped, in any run. -/
theorem mailRun_rowsAreMails : RowsAreMails (mailRun handles calls { clock }) := by
  have hboth : Consistent (mailRun handles calls { clock }) ∧
      RowsAreMails (mailRun handles calls { clock }) := by
    refine Run.always (fun s => Consistent s ∧ RowsAreMails s) ?_
      ⟨.empty clock, fun seq => by simp [LoggedMail]⟩
    rintro ⟨handle, call⟩ db ⟨hdb, hrows⟩
    refine ⟨MailCall.exec_consistent hdb, ?_⟩
    cases hclears : call.clears with
    | false =>
      exact (MailCall.exec_emits (R := AnyEvent) hdb hclears (fun _ _ _ _ => trivial)
        (fun _ _ => trivial) fun _ _ => trivial).preserves
        RowsAreMails (fun _ _ _ hevent h hcommit => h.appends hevent hcommit) hrows
    | true =>
      exact (MailCall.exec_clears hclears).preserves RowsAreMails
        (fun _ _ _ hevent h hcommit => h.clears hevent hcommit) hrows
  exact hboth.2

/-- The links are in order in every run, clean-ups included. -/
theorem mailRun_linked : LinkedInbox (mailRun handles calls { clock }).mail := by
  have hboth : Consistent (mailRun handles calls { clock }) ∧
      LinkedInbox (mailRun handles calls { clock }).mail := by
    refine Run.always (fun s => Consistent s ∧ LinkedInbox s.mail) ?_
      ⟨.empty clock, linkedInbox_empty⟩
    rintro ⟨handle, call⟩ db ⟨hdb, hlinked⟩
    refine ⟨MailCall.exec_consistent hdb, ?_⟩
    cases hclears : call.clears with
    | false =>
      exact MailCall.exec_preserves LinkedInbox hdb hclears (fun _ _ => trivial)
        (fun _ _ => trivial) (fun _ _ _ _ h hstep => h.step hstep) hlinked
    | true =>
      exact (MailCall.exec_clears hclears).preserves (fun s => LinkedInbox s.mail)
        (fun _ _ _ hevent h hcommit => h.cleared (cleared_of_clears hevent hcommit)) hlinked
  exact hboth.2

/-- Without clean-ups the inbox stays orderly. -/
theorem mailRun_orderly (hcalls : ∀ call ∈ calls, call.2.clears = false) :
    Orderly (mailRun handles calls { clock }).mail := by
  have hboth : Consistent (mailRun handles calls { clock }) ∧
      Orderly (mailRun handles calls { clock }).mail := by
    refine Run.invariant (fun s => Consistent s ∧ Orderly s.mail) ?_
      (Run.guarded_of_forall hcalls) ⟨.empty clock, orderly_empty⟩
    rintro ⟨handle, call⟩ db hclears ⟨hdb, horderly⟩
    refine ⟨MailCall.exec_consistent hdb, ?_⟩
    refine MailCall.exec_preserves Orderly hdb hclears (fun _ _ => trivial)
      (fun _ _ => trivial) (fun t t' hsafe _ h hstep => ?_) horderly
    exact ⟨h.linked.step hstep, Unretracted.step h.unretracted h.linked hstep,
      h.sound.step hsafe h.linked hstep⟩
  exact hboth.2

/-- As long as mail names earlier mail, the flags miss no answer. -/
theorem mailRun_answered (hrun : Run.Guarded (mailStep handles) NamesEarlier calls { clock }) :
    CausedEarlier (mailRun handles calls { clock }).mail ∧
      AnsweredResolved (mailRun handles calls { clock }).mail := by
  have hboth : Consistent (mailRun handles calls { clock }) ∧
      CausedEarlier (mailRun handles calls { clock }).mail ∧
      AnsweredResolved (mailRun handles calls { clock }).mail := by
    refine Run.invariant
      (fun s => Consistent s ∧ CausedEarlier s.mail ∧ AnsweredResolved s.mail) ?_ hrun
      ⟨.empty clock, fun _ hrow => absurd hrow List.not_mem_nil,
        fun _ hitem => absurd hitem List.not_mem_nil⟩
    rintro ⟨handle, call⟩ db ⟨hclears, hnames⟩ ⟨hdb, hinv⟩
    refine ⟨MailCall.exec_consistent hdb, ?_⟩
    refine MailCall.exec_preserves (fun t => CausedEarlier t ∧ AnsweredResolved t) hdb hclears
      (fun _ => namesExisting_of_threaded) hnames (fun t t' _ hkeeps h hstep => ?_) hinv
    have hE : ∀ envelope, NamesExisting db.mail envelope → NamesExisting t envelope :=
      fun _ hnames => hnames.mono hkeeps
    exact ⟨h.1.step hE hstep, h.2.step h.1 hE hstep⟩
  exact hboth.2

end

end Orchestration.Mail
