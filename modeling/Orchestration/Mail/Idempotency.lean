import Orchestration.Mail.Runs

/-!
# Idempotent send

A key belongs to one mail within one recipient, sender and type. The lookup
before the append and the fold of the event agree on which mail that is, so it
does not matter which of the two meets the duplicate.
-/

namespace Orchestration.Mail

open Fallible Transaction

variable {ι : Type} {handles : ι → Delivery} {calls : List (ι × MailCall)} {clock : ℕ → ℕ}

/-- The mail carries the envelope's key within the envelope's recipient, sender and type. -/
structure KeyedAs (envelope : MailEnvelope) (row : DeliveredMail) : Prop where
  isSome : envelope.idempotencyKey.isSome = true
  key : row.idempotencyKey = envelope.idempotencyKey
  recipient : row.recipient = envelope.to
  sender : row.sender = envelope.from
  type : row.type = envelope.type

theorem keyedAs_deliveredRow {envelope : MailEnvelope}
    (hkey : envelope.idempotencyKey.isSome = true) (seq ts : ℕ) :
    KeyedAs envelope (deliveredRow envelope seq ts) := ⟨hkey, rfl, rfl, rfl, rfl⟩

theorem KeyedAs.sameKey {envelope : MailEnvelope} {a b : DeliveredMail} (ha : KeyedAs envelope a)
    (hb : KeyedAs envelope b) : a.sameKey b = true := by
  simp [DeliveredMail.sameKey, ha.key, hb.key, ha.isSome, ha.recipient, hb.recipient, ha.sender,
    hb.sender, ha.type, hb.type]

theorem keyedAs_of_sameKey {envelope : MailEnvelope} {old : DeliveredMail} {seq ts : ℕ}
    (h : old.sameKey (deliveredRow envelope seq ts) = true) : KeyedAs envelope old := by
  obtain ⟨key, hkey, hold, hto, hfrom, htype⟩ := sameKey_deliveredRow.1 h
  exact ⟨Option.isSome_iff_exists.2 ⟨key, hkey⟩, hold.trans hkey.symm, hto, hfrom, htype⟩

theorem KeyedAs.congr {envelope : MailEnvelope} {row row' : DeliveredMail}
    (h : KeyedAs envelope row) (hfixed : row'.fixed = row.fixed) : KeyedAs envelope row' := by
  simp only [DeliveredMail.fixed, DeliveredMail.mk.injEq] at hfixed
  obtain ⟨-, hto, hfrom, htype, -, -, -, -, hkey, -⟩ := hfixed
  exact ⟨h.isSome, hkey.trans h.key, hto.trans h.recipient, hfrom.trans h.sender,
    htype.trans h.type⟩

/-- A key has one mail. -/
theorem KeyedAs.unique {t : MailTables} {envelope : MailEnvelope} {a b : DeliveredMail}
    (ha : KeyedAs envelope a) (hb : KeyedAs envelope b) (hmemA : a ∈ t.inbox)
    (hmemB : b ∈ t.inbox) : a = b :=
  DeliveredMail.eq_of_seq_eq hmemA hmemB (t.idempotency_unique a hmemA b hmemB (ha.sameKey hb))

/-- No mail with the envelope's key is found just where none carries it. -/
theorem existingForKey_eq_none_iff {t : MailTables} {envelope : MailEnvelope} :
    existingForKey t envelope = none ↔ ∀ row ∈ t.inbox, ¬ KeyedAs envelope row := by
  rw [existingForKey_eq_none 0 0]
  constructor
  · intro hfree row hrow hkeyed
    have hsame := hkeyed.sameKey (keyedAs_deliveredRow hkeyed.isSome 0 0)
    rw [hfree row hrow] at hsame
    cases hsame
  · intro hfree row hrow
    rw [Bool.eq_false_iff]
    intro hsame
    exact hfree row hrow (keyedAs_of_sameKey hsame)

/-- A send that returns found the mail of its key, or added one. -/
theorem send_eq_ok {delivery : Delivery} {envelope : MailEnvelope} {mail : DeliveredMail}
    {db db' : Db} (h : MailStore.send delivery envelope db = (.ok mail, db')) :
    (db' = db ∧ existingForKey db.mail envelope = some mail) ∨
    (existingForKey db.mail envelope = none ∧ mail = nextRow db envelope ∧
      mail ∈ db'.mail.inbox ∧ Emits (fun _ e => e.payload.projector = .mail) db db') := by
  obtain ⟨_, -, h⟩ := Proc.liftM_bind_eq_ok.1 h
  obtain ⟨_, -, h⟩ := Proc.liftM_bind_eq_ok.1 h
  obtain ⟨result, last, hdeliver, hpure⟩ := Tx.bind_eq_ok.1 (transaction_eq_ok.1 h)
  obtain ⟨rfl, rfl⟩ := Tx.pure_eq_ok.1 hpure
  cases InProcessDelivery.deliverWithStatus_eq_ok hdeliver with
  | inl hfound =>
    obtain ⟨rfl, old, hold, rfl⟩ := hfound
    exact .inl ⟨rfl, hold⟩
  | inr hcreated =>
    obtain ⟨hfresh, rfl, e, he, hcommit⟩ := hcreated
    have hadded := added_of_fresh he hfresh hcommit
    exact .inr ⟨hfresh, rfl, (hadded.mem _).2 (.inl rfl), .single rfl hcommit⟩

/-- What a keyed send returns is the mail of its key. -/
theorem send_keyed {delivery : Delivery} {envelope : MailEnvelope} {mail : DeliveredMail} {db : Db}
    (hkey : envelope.idempotencyKey.isSome = true)
    (h : (MailStore.send delivery envelope db).1 = .ok mail) :
    ∃ row ∈ ((MailStore.send delivery envelope).exec db).mail.inbox,
      row.seq = mail.seq ∧ KeyedAs envelope row := by
  have hrun : MailStore.send delivery envelope db =
      (.ok mail, (MailStore.send delivery envelope).exec db) := Prod.ext h rfl
  generalize (MailStore.send delivery envelope).exec db = db' at hrun ⊢
  cases send_eq_ok hrun with
  | inl hfound =>
    obtain ⟨rfl, hold⟩ := hfound
    obtain ⟨hmem, hsame⟩ := existingForKey_eq_some hold 0 0
    exact ⟨mail, hmem, rfl, keyedAs_of_sameKey hsame⟩
  | inr hadded =>
    obtain ⟨-, rfl, hmem, -⟩ := hadded
    exact ⟨_, hmem, rfl, keyedAs_deliveredRow hkey _ _⟩

/-- No call loses a row. -/
theorem mailRun_keepsRows (handles : ι → Delivery) (calls : List (ι × MailCall)) {db : Db}
    (hdb : Consistent db) {row : DeliveredMail} (hrow : row ∈ db.mail.inbox) :
    ∃ row' ∈ (mailRun handles calls db).mail.inbox, row'.fixed = row.fixed := by
  have hcommits : ∀ {P : EventClass} {s s' : Db}, Emits P s s' →
      (∃ row' ∈ s.mail.inbox, row'.fixed = row.fixed) →
      ∃ row' ∈ s'.mail.inbox, row'.fixed = row.fixed := by
    intro P s s' hemits hkept
    refine hemits.preserves (fun s => ∃ row' ∈ s.mail.inbox, row'.fixed = row.fixed) ?_ hkept
    rintro event s s' - ⟨mid, hmid, hfixed⟩ hcommit
    obtain ⟨last, hlast, hfixed'⟩ := row_persists hcommit hmid
    exact ⟨last, hlast, hfixed'.trans hfixed⟩
  have hboth : Consistent (mailRun handles calls db) ∧
      ∃ row' ∈ (mailRun handles calls db).mail.inbox, row'.fixed = row.fixed := by
    refine Run.always
      (fun s => Consistent s ∧ ∃ row' ∈ s.mail.inbox, row'.fixed = row.fixed) ?_
      ⟨hdb, row, hrow, rfl⟩
    rintro ⟨handle, call⟩ s ⟨hs, hkept⟩
    refine ⟨MailCall.exec_consistent hs, ?_⟩
    cases hclears : call.clears with
    | false =>
      have hemits : Emits (Appends (fun _ => True) AnyEvent) s (call.exec (handles handle) s) :=
        MailCall.exec_emits hs hclears (fun _ _ _ _ => trivial) (fun _ _ => trivial) fun _ _ => trivial
      exact hcommits hemits hkept
    | true => exact hcommits (MailCall.exec_clears hclears) hkept
  exact hboth.2

/-- In every reachable state of every run of any number of handles: a key has one mail; what a
keyed send returns is that mail, and so does every later send with the key, whatever was called in
between; a duplicate that reaches the fold changes nothing; and a replay of the log gives the same
rows. -/
theorem idempotent_send {db : Db} (hdb : mailRun handles calls { clock } = db) :
    (∀ envelope, ∀ a ∈ db.mail.inbox, ∀ b ∈ db.mail.inbox, KeyedAs envelope a →
      KeyedAs envelope b → a = b) ∧
    (∀ handle envelope mail, envelope.idempotencyKey.isSome = true →
      (MailStore.send (handles handle) envelope db).1 = .ok mail →
      ∀ later, ∃ row ∈ (mailRun handles later
          ((MailStore.send (handles handle) envelope).exec db)).mail.inbox,
        row.seq = mail.seq ∧ KeyedAs envelope row ∧
        ∀ handle' envelope' mail', KeyedAs envelope' row →
          (MailStore.send (handles handle') envelope' (mailRun handles later
            ((MailStore.send (handles handle) envelope).exec db))).1 = .ok mail' →
          mail'.seq = mail.seq) ∧
    (∀ envelope e db', makeMailEvent envelope = .ok e →
      (∃ old ∈ db.mail.inbox, KeyedAs envelope old) → db.commit (toProject e) = .ok db' →
      db'.mail = db.mail) ∧
    ∃ t, foldEvents {} db.events = .ok t ∧ t.mail = db.mail := by
  have hconsistent : Consistent db := hdb ▸ mailRun_consistent (.empty clock)
  refine ⟨fun envelope a ha b hb hkeyA hkeyB => hkeyA.unique hkeyB ha hb,
    fun handle envelope mail hkey hsend later => ?_, fun envelope e db' he htaken hcommit => ?_,
    db.toProjections, hconsistent.replayed, rfl⟩
  · obtain ⟨row, hrow, hseq, hkeyed⟩ := send_keyed hkey hsend
    have hsent : Consistent (MailCall.exec (handles handle) (.send envelope) db) :=
      MailCall.exec_consistent hconsistent
    obtain ⟨row', hrow', hfixed⟩ := mailRun_keepsRows handles later hsent hrow
    refine ⟨row', hrow', (seq_of_fixed hfixed).trans hseq, hkeyed.congr hfixed,
      fun handle' envelope' mail' hkeyed' hsend' => ?_⟩
    obtain ⟨again, hagain, hseq', hkeyed''⟩ := send_keyed hkeyed'.isSome hsend'
    have hlater : Consistent (mailRun handles later
        ((MailStore.send (handles handle) envelope).exec db)) := mailRun_consistent hsent
    obtain ⟨row'', hrow'', hfixed'⟩ := mailRun_keepsRows handles
      [(handle', .send envelope')] hlater hrow'
    have hsame : again = row'' := hkeyed''.unique (hkeyed'.congr hfixed') hagain hrow''
    rw [← hseq', hsame, seq_of_fixed hfixed', seq_of_fixed hfixed, hseq]
  · obtain ⟨old, hold, hkeyed⟩ := htaken
    rcases commit_mail he hcommit with ⟨hsame, -⟩ | hadded
    · exact hsame
    · have hfresh := hadded.fresh old hold
      have htaken := hkeyed.sameKey (keyedAs_deliveredRow hkeyed.isSome db.nextSeq
        (db.clock db.nextSeq))
      rw [nextRow] at hfresh
      rw [hfresh] at htaken
      cases htaken

/-- A report that its sender may repeat. -/
def report : MailEnvelope where
  type := .workerDone
  «to» := "manager"
  «from» := "worker"
  subject := "done"
  body := "the parser is in"
  idempotencyKey := some "done:parser"

/-- The project after two handles sent the report. -/
def reported : Db :=
  mailRun (fun _ => .live) [(true, .send report), (false, .send report)] .atRest

theorem idempotent_send_of_report : ∃ a ∈ reported.mail.inbox, KeyedAs report a ∧
    ∀ b ∈ reported.mail.inbox, KeyedAs report b → a = b := by
  have hsent : deliveredRow report 1 0 ∈ reported.mail.inbox := by decide +kernel
  have hkeyed : KeyedAs report (deliveredRow report 1 0) := keyedAs_deliveredRow rfl 1 0
  have hdb : mailRun (fun _ => .live) [(true, .send report), (false, .send report)]
      { clock := fun _ => 0 } = reported := rfl
  have honce := (idempotent_send hdb).1
  exact ⟨_, hsent, hkeyed, fun b hb => honce report _ hsent b hb hkeyed⟩

end Orchestration.Mail
