import Orchestration.Mail.Runs

/-!
# Obligations are neither lost nor closed by accident

In every reachable state the flag of an obligation says what it is meant to say.
It follows what each call can do to a flag: a read nothing, a retraction only
what it withdraws the reason of.
-/

namespace Orchestration.Mail

open Fallible Transaction

variable {ι : Type} {handles : ι → Delivery} {calls : List (ι × MailCall)} {clock : ℕ → ℕ}

/-- A retraction is refused, or it withdraws the mail it names. -/
theorem retract_cases (delivery : Delivery) (sender : String) (seq : ℕ) (db : Db) :
    ((MailStore.retract delivery sender seq).exec db = db ∧
      ∃ e, (MailStore.retract delivery sender seq db).1 = .error e) ∨
    ∃ row ∈ db.mail.inbox, row.seq = seq ∧ ((MailStore.retract delivery sender seq).exec db).mail =
      recomputeResolvedAfterRetractingCloser (withRetracted db.mail row) row := by
  rcases hrun : transaction (InProcessDelivery.retract sender seq) db with ⟨e | updated, db'⟩
  · obtain rfl := transaction_error hrun
    exact .inl ⟨congrArg Prod.snd hrun, e, congrArg Prod.fst hrun⟩
  · obtain ⟨-, e, he, hcommit⟩ := InProcessDelivery.retract_eq_ok (transaction_eq_ok.1 hrun)
    obtain ⟨row, hrow, hseq, -, hmail⟩ := retracted_of_commit he hcommit
    have hexec : (MailStore.retract delivery sender seq).exec db = db' := congrArg Prod.snd hrun
    exact .inr ⟨row, hrow, hseq, hexec ▸ hmail⟩

theorem markRead_cases (delivery : Delivery) (recipient : String) (seq : ℕ) (db : Db) :
    (MailStore.markRead delivery recipient seq).exec db = db ∨
    ∃ p, ((MailStore.markRead delivery recipient seq).exec db).mail =
      db.mail.updateWhere .setRead p := by
  refine Proc.exec_transaction (R := fun s s' : Db =>
    s' = s ∨ ∃ p, s'.mail = s.mail.updateWhere .setRead p) (.inl rfl)
    fun updated db' h => ?_
  obtain ⟨e, he, hcommit⟩ := InProcessDelivery.markRead_eq_ok h
  exact .inr (read_of_commit he hcommit)

/-- Reading mail leaves every flag as it was. -/
theorem resolved_of_reads {db : Db} {reads : List (ι × MailCall)}
    (hreads : ∀ call ∈ reads, ∃ recipient seq, call.2 = .markRead recipient seq)
    {item : DeliveredMail} (hitem : item ∈ db.mail.inbox) :
    ∃ item' ∈ (mailRun handles reads db).mail.inbox,
      item'.seq = item.seq ∧ item'.resolved = item.resolved := by
  refine Run.invariant
    (fun s : Db => ∃ item' ∈ s.mail.inbox, item'.seq = item.seq ∧ item'.resolved = item.resolved) ?_
    (Run.guarded_of_forall hreads) ⟨item, hitem, rfl, rfl⟩
  rintro ⟨handle, call⟩ s ⟨recipient, seq, rfl⟩ ⟨mid, hmid, hseq, hresolved⟩
  rcases markRead_cases (handles handle) recipient seq s with hsame | ⟨p, hread⟩
  · exact ⟨mid, by simpa [mailStep, MailCall.exec, hsame] using hmid, hseq, hresolved⟩
  · refine ⟨(RowUpdate.setRead.onlyWhere p).run mid, ?_, ?_, ?_⟩
    · change _ ∈ ((MailStore.markRead (handles handle) recipient seq).exec s).mail.inbox
      rw [hread]
      exact MailTables.mem_updateWhere.2 ⟨mid, hmid, rfl⟩
    · exact (RowUpdate.seq_run _ mid).trans hseq
    · exact (resolved_setRead p mid).trans hresolved

section

variable {t : MailTables} {row item : DeliveredMail}

/-- A withdrawal keeps the flag of every item it is no reason for. -/
theorem resolved_of_unrelated_withdrawal (hsound : ResolvedDischarged t)
    (hcomplete : AnsweredResolved t) (hcaused : CausedEarlier t) (hlinked : LinkedInbox t)
    (hrow : row ∈ t.inbox) (hitem : item ∈ t.inbox) (hcloses : closes item row = false)
    (hup : ¬ GoesUp t item.seq row.seq) :
    (reopened (withRetracted t row) row (withdrawn row item)).resolved = item.resolved := by
  unfold reopened
  split
  · next hanew =>
    obtain ⟨-, hkind, hstands⟩ := hanew
    obtain ⟨hne, hstands⟩ := retracted_withdrawn.1 hstands
    rw [withdrawn_of_ne hne] at hkind ⊢
    rw [Bool.eq_iff_iff]
    change stillDischarged _ row item = true ↔ item.resolved = true
    rw [stillDischarged_withdrawal hrow]
    constructor
    · rintro (hheld | ⟨mail, hmail, -, -, hmailStands, hmailCloses⟩)
      · obtain ⟨b, hb⟩ := isHeld_iff_goesUp.1 hheld
        exact hlinked.resolved_of_isHeld hitem
          (isHeld_iff_goesUp.2 ⟨b, (goesUp_withdrawal.1 hb).1⟩)
      · exact hcomplete item hitem hstands ⟨mail, hmail, hmailStands, hmailCloses⟩
    · intro hresolved
      rcases hsound item hitem hkind hstands hresolved with hheld | ⟨mail, hmail, hmailStands, hmailCloses⟩
      · obtain ⟨b, hb⟩ := isHeld_iff_goesUp.1 hheld
        exact .inl (isHeld_iff_goesUp.2
          ⟨b, goesUp_withdrawal.2 ⟨hb, fun heq => hup (heq ▸ hb)⟩⟩)
      · refine .inr ⟨mail, hmail, fun heq => ?_, ?_, hmailStands, hmailCloses⟩
        · rw [DeliveredMail.eq_of_seq_eq hmail hrow heq, hcloses] at hmailCloses
          cases hmailCloses
        · exact Nat.ne_of_gt (hcaused mail hmail _ (cause_of_closes hmailCloses))
  · exact resolved_withdrawn row item

theorem seq_of_withdrawal (row item : DeliveredMail) :
    (reopened (withRetracted t row) row (withdrawn row item)).seq = item.seq :=
  seq_of_fixed ((fixed_reopened _ _ _).trans (fixed_withdrawn row item))

/-- The withdrawal of the last reason reopens the item. -/
theorem resolved_of_last_withdrawal (hcaused : CausedEarlier t) (hlinked : LinkedInbox t)
    (hsafe : SafeNumbers t) (hrow : row ∈ t.inbox) (hitem : item ∈ t.inbox)
    (hkind : item.kind = .actionable) (hstands : item.retracted = false)
    (hreason : closes item row = true ∨ GoesUp t item.seq row.seq)
    (hclosers : ∀ mail ∈ t.inbox, mail.seq ≠ row.seq → mail.retracted = false →
      closes item mail = false)
    (hups : ∀ b, GoesUp t item.seq b → b = row.seq) :
    (reopened (withRetracted t row) row (withdrawn row item)).resolved = false := by
  have hcause : row.causationId = some (toString item.seq) := by
    rcases hreason with hcloses | hup
    · exact cause_of_closes hcloses
    · obtain ⟨held, hheld, forwarded, hforwarded, hheldSeq, hseq, hwent⟩ := hlinked.joins hup
      rw [← DeliveredMail.eq_of_seq_eq hheld hitem hheldSeq,
        ← DeliveredMail.eq_of_seq_eq hforwarded hrow hseq]
      exact hwent.cause
  have hne : item.seq ≠ row.seq := Nat.ne_of_lt (hcaused row hrow _ hcause)
  have hnames : namesCause row item := namesCause_of_cause (hsafe item hitem) hcause
  rw [withdrawn_of_ne hne, reopened, if_pos ⟨hnames, hkind, hstands⟩, Bool.eq_false_iff]
  change ¬ stillDischarged _ row item = true
  rw [stillDischarged_withdrawal hrow]
  rintro (hheld | ⟨mail, hmail, hnotRow, -, hmailStands, hmailCloses⟩)
  · obtain ⟨b, hb⟩ := isHeld_iff_goesUp.1 hheld
    obtain ⟨hup, hother⟩ := goesUp_withdrawal.1 hb
    exact hother (hups b hup)
  · rw [hclosers mail hmail hnotRow hmailStands] at hmailCloses
    cases hmailCloses

end

/-- In every reachable state of every run whose mail names earlier mail and that holds no
clean-up: the mails of the log are the rows of the inbox; an obligation counts as resolved if and
only if it went up or a later mail that stands answers it; reading leaves its flag as it was, and
so does the withdrawal of a mail that is no reason for it; and the withdrawal of its last reason
reopens it. -/
theorem obligations_neither_lost_nor_closed
    (hrun : Run.Guarded (mailStep handles) NamesEarlier calls { clock }) {db : Db}
    (hdb : mailRun handles calls { clock } = db) :
    RowsAreMails db ∧
    (∀ item ∈ db.mail.inbox, item.kind = .actionable → item.retracted = false →
      (item.resolved = true ↔ db.mail.isHeld item.seq = true ∨
        ∃ closer ∈ db.mail.inbox, item.seq < closer.seq ∧ closer.retracted = false ∧
          closes item closer = true)) ∧
    (∀ reads : List (ι × MailCall),
      (∀ call ∈ reads, ∃ recipient seq, call.2 = .markRead recipient seq) →
      ∀ item ∈ db.mail.inbox, ∃ item' ∈ (mailRun handles reads db).mail.inbox,
        item'.seq = item.seq ∧ item'.resolved = item.resolved) ∧
    (∀ handle sender, ∀ row ∈ db.mail.inbox, ∀ item ∈ db.mail.inbox, closes item row = false →
      ¬ GoesUp db.mail item.seq row.seq →
      ∃ item' ∈ (mailStep handles (handle, .retract sender row.seq) db).mail.inbox,
        item'.seq = item.seq ∧ item'.resolved = item.resolved) ∧
    (∀ handle sender, ∀ row ∈ db.mail.inbox, ∀ item ∈ db.mail.inbox, item.kind = .actionable →
      item.retracted = false → (closes item row = true ∨ GoesUp db.mail item.seq row.seq) →
      (∀ mail ∈ db.mail.inbox, mail.seq ≠ row.seq → mail.retracted = false →
        closes item mail = false) →
      (∀ b, GoesUp db.mail item.seq b → b = row.seq) →
      (∃ updated, (MailStore.retract (handles handle) sender row.seq db).1 = .ok updated) →
      ∃ item' ∈ (mailStep handles (handle, .retract sender row.seq) db).mail.inbox,
        item'.seq = item.seq ∧ item'.resolved = false) := by
  have hclears : ∀ call ∈ calls, call.2.clears = false :=
    Run.forall_of_guarded (fun _ _ hnames => hnames.1) hrun
  have horderly : Orderly db.mail := hdb ▸ mailRun_orderly hclears
  have hanswered : CausedEarlier db.mail ∧ AnsweredResolved db.mail := hdb ▸ mailRun_answered hrun
  have hconsistent : Consistent db := hdb ▸ mailRun_consistent (.empty clock)
  have hrows : RowsAreMails db := hdb ▸ mailRun_rowsAreMails
  obtain ⟨hcaused, hcomplete⟩ := hanswered
  have hsafe := safeNumbers_of_consistent hconsistent
  refine ⟨hrows, fun item hitem hkind hstands => ?_, fun reads hreads item hitem =>
    resolved_of_reads hreads hitem, fun handle sender row hrow item hitem hcloses hup => ?_,
    fun handle sender row hrow item hitem hkind hstands hreason hclosers hups hok => ?_⟩
  · constructor
    · intro hresolved
      refine (horderly.sound item hitem hkind hstands hresolved).imp_right ?_
      rintro ⟨closer, hcloser, hcloserStands, hcloses⟩
      exact ⟨closer, hcloser, hcaused closer hcloser _ (cause_of_closes hcloses), hcloserStands,
        hcloses⟩
    · rintro (hheld | ⟨closer, hcloser, -, hcloserStands, hcloses⟩)
      · exact horderly.linked.resolved_of_isHeld hitem hheld
      · exact hcomplete item hitem hstands ⟨closer, hcloser, hcloserStands, hcloses⟩
  · change ∃ item' ∈ ((MailStore.retract (handles handle) sender row.seq).exec db).mail.inbox, _
    rcases retract_cases (handles handle) sender row.seq db with ⟨hsame, -⟩ | ⟨row', hrow', hseq, hmail⟩
    · rw [hsame]
      exact ⟨item, hitem, rfl, rfl⟩
    · obtain rfl := DeliveredMail.eq_of_seq_eq hrow' hrow hseq
      rw [hmail]
      exact ⟨_, (mem_withdrawal hrow).2 ⟨item, hitem, rfl⟩, seq_of_withdrawal row' item,
        resolved_of_unrelated_withdrawal horderly.sound hcomplete hcaused horderly.linked hrow hitem
          hcloses hup⟩
  · change ∃ item' ∈ ((MailStore.retract (handles handle) sender row.seq).exec db).mail.inbox, _
    rcases retract_cases (handles handle) sender row.seq db with ⟨-, e, herror⟩ | ⟨row', hrow', hseq, hmail⟩
    · obtain ⟨updated, hupdated⟩ := hok
      rw [herror] at hupdated
      cases hupdated
    · obtain rfl := DeliveredMail.eq_of_seq_eq hrow' hrow hseq
      rw [hmail]
      exact ⟨_, (mem_withdrawal hrow).2 ⟨item, hitem, rfl⟩, seq_of_withdrawal row' item,
        resolved_of_last_withdrawal hcaused horderly.linked hsafe hrow hitem hkind hstands hreason
          hclosers hups⟩

/-- A worker's question to its manager. -/
def question : MailEnvelope where
  type := .clarifyRequest
  «to» := "manager"
  «from» := "worker"
  subject := "scope"
  body := "which module?"

/-- The manager passes the question on to the lead. -/
def questionPassedOn : MailEnvelope where
  type := .escalation
  «to» := "lead"
  «from» := "manager"
  subject := "scope"
  body := "which module?"
  correlationId := some "1"
  causationId := some "1"

/-- The question is asked and passed on, by two handles. -/
def passingOn : List (Bool × MailCall) :=
  [(true, .send question), (false, .forward (deliveredRow question 1 0) questionPassedOn)]

theorem passingOn_namesEarlier (handles : Bool → Delivery) (db : Db) :
    Run.Guarded (mailStep handles) NamesEarlier passingOn db := by
  refine ⟨⟨rfl, fun envelope henvelope seq hcause => ?_⟩, ⟨rfl, fun envelope henvelope => ?_⟩, trivial⟩
  · rw [List.mem_singleton.1 henvelope] at hcause
    cases hcause
  · cases henvelope

/-- The project after the question was asked and passed on. -/
def passedOn (delivery : Delivery) : Db :=
  mailRun (fun _ => delivery) passingOn .atRest

theorem obligations_neither_lost_nor_closed_of_passingOn :
    RowsAreMails (passedOn .live) ∧ ∀ item ∈ (passedOn .live).mail.inbox,
      item.kind = .actionable → item.retracted = false →
      (item.resolved = true ↔ (passedOn .live).mail.isHeld item.seq = true ∨
        ∃ closer ∈ (passedOn .live).mail.inbox,
          item.seq < closer.seq ∧ closer.retracted = false ∧ closes item closer = true) := by
  have hdb : mailRun (fun _ => .live) passingOn { clock := fun _ => 0 } = passedOn .live := rfl
  have hlaw := obligations_neither_lost_nor_closed (passingOn_namesEarlier (fun _ => .live) _) hdb
  exact ⟨hlaw.1, hlaw.2.1⟩

end Orchestration.Mail
