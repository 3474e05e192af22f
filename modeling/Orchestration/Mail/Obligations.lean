import Orchestration.Mail.Links

/-!
# Obligations

An actionable item that was not withdrawn is an obligation. Its flag `resolved`
is recomputed by four branches of the fold; here it is compared with what it is
meant to say, which no branch looks at: the item went up, or it was answered by
a mail that stands.
-/

namespace Orchestration.Mail

open Fallible Transaction

/-- A mail that stands answers the item. -/
def Answered (t : MailTables) (item : DeliveredMail) : Prop :=
  ∃ closer ∈ t.inbox, closer.retracted = false ∧ closes item closer = true

/-- The item went up, or it was answered. -/
def Discharged (t : MailTables) (item : DeliveredMail) : Prop :=
  t.isHeld item.seq = true ∨ Answered t item

/-- An item that counts as resolved is discharged. -/
def ResolvedDischarged (t : MailTables) : Prop :=
  ∀ item ∈ t.inbox, item.kind = .actionable → item.retracted = false → item.resolved = true →
    Discharged t item

/-- An item that is answered counts as resolved. -/
def AnsweredResolved (t : MailTables) : Prop :=
  ∀ item ∈ t.inbox, item.retracted = false → Answered t item → item.resolved = true

/-- A mail is caused by earlier mail only. -/
def CausedEarlier (t : MailTables) : Prop :=
  ∀ row ∈ t.inbox, ∀ seq, row.causationId = some (toString seq) → seq < row.seq

/-- Whether a cause that is a mail number is the number of a mail. -/
def NamesExisting (t : MailTables) (envelope : MailEnvelope) : Prop :=
  ∀ seq, envelope.causationId = some (toString seq) → ∃ mail ∈ t.inbox, mail.seq = seq

/-- Every number in the inbox is a safe integer. -/
def SafeNumbers (t : MailTables) : Prop := ∀ row ∈ t.inbox, row.seq ≤ Js.maxSafeInteger

theorem causationId_of_fixed {a b : DeliveredMail} (h : a.fixed = b.fixed) :
    a.causationId = b.causationId := by
  have hcause := congrArg DeliveredMail.causationId h
  exact hcause

theorem type_of_fixed {a b : DeliveredMail} (h : a.fixed = b.fixed) : a.type = b.type := by
  have htype := congrArg DeliveredMail.type h
  exact htype

theorem kind_congr {a b : DeliveredMail} (h : a.fixed = b.fixed) : a.kind = b.kind :=
  congrArg mailKind (type_of_fixed h)

theorem namesCause_of_cause {closer item : DeliveredMail} (hsafe : item.seq ≤ Js.maxSafeInteger)
    (h : closer.causationId = some (toString item.seq)) : namesCause closer item := by
  rw [namesCause, h, Option.bind_some, Js.safeInteger?_toString hsafe]

theorem cause_of_closes {item closer : DeliveredMail} (h : closes item closer = true) :
    closer.causationId = some (toString item.seq) := (closes_threading h).1

/-- Mail stands as before when every row is kept with its retraction. -/
theorem Answered.of_rows {t t' : MailTables} {item item' : DeliveredMail} (h : Answered t item)
    (hitem : item'.fixed = item.fixed)
    (hrows : ∀ row ∈ t.inbox, row.retracted = false → closes item row = true →
      ∃ row' ∈ t'.inbox, row'.fixed = row.fixed ∧ row'.retracted = false) : Answered t' item' := by
  obtain ⟨closer, hcloser, hstands, hcloses⟩ := h
  obtain ⟨closer', hmem, hfixed, hstands'⟩ := hrows closer hcloser hstands hcloses
  exact ⟨closer', hmem, hstands', (closes_congr hitem hfixed).trans hcloses⟩

theorem Discharged.of_rows {t t' : MailTables} {item item' : DeliveredMail}
    (h : Discharged t item) (hitem : item'.fixed = item.fixed)
    (hheld : t.isHeld item.seq = true → t'.isHeld item.seq = true)
    (hrows : ∀ row ∈ t.inbox, row.retracted = false → closes item row = true →
      ∃ row' ∈ t'.inbox, row'.fixed = row.fixed ∧ row'.retracted = false) : Discharged t' item' := by
  rcases h with h | h
  · exact .inl (seq_of_fixed hitem ▸ hheld h)
  · exact .inr (h.of_rows hitem hrows)

theorem isHeld_congr {t t' : MailTables} (h : t'.forwardLinks = t.forwardLinks) (seq : ℕ) :
    t'.isHeld seq = t.isHeld seq := by
  rw [MailTables.isHeld, MailTables.isHeld, h]

/-- What the withdrawal of `row` looks at to decide an item anew. -/
theorem stillDischarged_withdrawal {t : MailTables} {row item : DeliveredMail} (hrow : row ∈ t.inbox) :
    stillDischarged (withRetracted t row) row item = true ↔
      (recomputeResolvedAfterRetractingCloser (withRetracted t row) row).isHeld item.seq = true ∨
        ∃ mail ∈ t.inbox, mail.seq ≠ row.seq ∧ mail.seq ≠ item.seq ∧ mail.retracted = false ∧
          closes item mail = true := by
  rw [stillDischarged, Bool.or_eq_true, isHeld_congr forwardLinks_recompute, List.any_eq_true]
  refine or_congr_right ?_
  simp only [Bool.and_eq_true, bne_iff_ne, Bool.not_eq_true']
  constructor
  · rintro ⟨candidate, hmem, ⟨hne, hstands⟩, hcloses⟩
    obtain ⟨mail, hmail, rfl⟩ := (mem_withRetracted hrow).1 hmem
    obtain ⟨hnotRow, hstands⟩ := retracted_withdrawn.1 hstands
    rw [withdrawn_of_ne hnotRow] at hne hcloses
    exact ⟨mail, hmail, hnotRow, hne, hstands, hcloses⟩
  · rintro ⟨mail, hmail, hnotRow, hne, hstands, hcloses⟩
    exact ⟨mail, (mem_withRetracted hrow).2 ⟨mail, hmail, (withdrawn_of_ne hnotRow).symm⟩,
      ⟨hne, hstands⟩, hcloses⟩

/-- If the item at `n` counts as resolved, it is discharged. -/
def SoundAt (n : ℕ) (t : MailTables) : Prop :=
  ∀ item ∈ t.inbox, item.seq = n → item.kind = .actionable → item.retracted = false →
    item.resolved = true → Discharged t item

/-- If the item at `n` is answered, it counts as resolved. -/
def CompleteAt (n : ℕ) (t : MailTables) : Prop :=
  ∀ item ∈ t.inbox, item.seq = n → item.retracted = false → Answered t item → item.resolved = true

/-- What names the mail at `n` as its cause came later. -/
def CausedAfter (n : ℕ) (t : MailTables) : Prop :=
  ∀ row ∈ t.inbox, row.causationId = some (toString n) → n < row.seq

/-- If the envelope names the mail at `n`, that mail is there. -/
def FindsCause (n : ℕ) (t : MailTables) (envelope : MailEnvelope) : Prop :=
  envelope.causationId = some (toString n) → ∃ mail ∈ t.inbox, mail.seq = n

/-- No branch of the fold resolves an item without a reason that stands. -/
theorem SoundAt.step {E : MailEnvelope → Prop} {n : ℕ} {t t' : MailTables}
    (h : SoundAt n t) (hsafe : SafeNumbers t) (hlinked : LinkedInbox t)
    (hstep : InboxStep E t t') : SoundAt n t' := by
  intro item' hitem' hn hkind hstands hresolved
  cases hstep with
  | quiet hinbox hlinks =>
    refine (h item' (hinbox ▸ hitem') hn hkind hstands hresolved).of_rows rfl
      (fun hheld => (isHeld_congr hlinks _).trans hheld) fun row hrow hstands _ => ?_
    exact ⟨row, hinbox ▸ hrow, rfl, hstands⟩
  | @added envelope seq ts _ _ _ hadded =>
    rcases (hadded.mem item').1 hitem' with rfl | ⟨item, hitem, rfl⟩
    · exact absurd hresolved (by simp [deliveredRow])
    · have hfixed := fixed_answered (deliveredRow envelope seq ts) item
      by_cases hcloses : closes item (deliveredRow envelope seq ts) = true
      · exact .inr ⟨_, (hadded.mem _).2 (.inl rfl), rfl, (closes_congr hfixed rfl).trans hcloses⟩
      · rw [answered, if_neg fun hanswers => hcloses hanswers.1] at hresolved hstands ⊢
        rw [kind_congr hfixed] at hkind
        have hseq : item.seq = n := (seq_of_fixed hfixed).symm.trans hn
        refine (h item hitem hseq hkind hstands hresolved).of_rows rfl
          (fun hheld => (isHeld_congr hadded.links _).trans hheld) fun row hrow hstands _ => ?_
        exact ⟨_, (hadded.mem _).2 (.inr ⟨row, hrow, rfl⟩), fixed_answered _ row, by simpa⟩
  | @read p =>
    obtain ⟨item, hitem, rfl⟩ := MailTables.mem_updateWhere.1 hitem'
    change ((RowUpdate.setRead.onlyWhere p).run item).retracted = false at hstands
    change ((RowUpdate.setRead.onlyWhere p).run item).resolved = true at hresolved
    rw [retracted_setRead] at hstands
    rw [resolved_setRead] at hresolved
    have hfixed := (RowUpdate.setRead.onlyWhere p).fixed_run item
    have hseq : item.seq = n := (seq_of_fixed hfixed).symm.trans hn
    refine (h item hitem hseq (kind_congr hfixed ▸ hkind) hstands hresolved).of_rows hfixed
      (fun hheld => hheld) fun row hrow hstands _ => ?_
    exact ⟨_, MailTables.mem_updateWhere.2 ⟨row, hrow, rfl⟩, (RowUpdate.onlyWhere _ p).fixed_run row,
      (retracted_setRead p row).trans hstands⟩
  | @forwarded held forwarded link _ _ _ _ _ _ _ _ _ _ _ _ hinbox hheldSeq _ hlinks =>
    obtain ⟨item, hitem, rfl⟩ := (hinbox item').1 hitem'
    have hfixed := fixed_discharged held item
    by_cases hseq : item.seq = held.seq
    · refine .inl (isHeld_iff_goesUp.2 ⟨_, (goesUp_append hlinks).2 (.inr ⟨?_, rfl⟩)⟩)
      rw [hheldSeq, seq_of_fixed hfixed, hseq]
    · rw [kind_congr hfixed] at hkind
      rw [retracted_discharged] at hstands
      rw [discharged, if_neg hseq] at hresolved
      have hsame : item.seq = n := (seq_of_fixed hfixed).symm.trans hn
      refine (h item hitem hsame hkind hstands hresolved).of_rows hfixed (fun hheld => ?_)
        fun row hrow hstands _ => ⟨_, (hinbox _).2 ⟨row, hrow, rfl⟩, fixed_discharged held row, by simpa⟩
      obtain ⟨b, hup⟩ := isHeld_iff_goesUp.1 hheld
      exact isHeld_iff_goesUp.2 ⟨b, (goesUp_append hlinks).2 (.inl hup)⟩
  | @retracted row hrow _ hforwarded =>
    obtain ⟨item, hitem, rfl⟩ := (mem_withdrawal hrow).1 hitem'
    rw [retracted_reopened, retracted_withdrawn] at hstands
    obtain ⟨hne, hstands⟩ := hstands
    rw [withdrawn_of_ne hne] at hresolved hkind hn ⊢
    have hfixed := fixed_reopened (withRetracted t row) row item
    rw [kind_congr hfixed] at hkind
    -- the mails that stand after the withdrawal
    have hrows : ∀ mail ∈ t.inbox, mail.seq ≠ row.seq → mail.retracted = false →
        ∃ mail' ∈ (recomputeResolvedAfterRetractingCloser (withRetracted t row) row).inbox,
          mail'.fixed = mail.fixed ∧ mail'.retracted = false := by
      intro mail hmail hne hstands
      refine ⟨_, (mem_withdrawal hrow).2 ⟨mail, hmail, rfl⟩, ?_, ?_⟩
      · rw [withdrawn_of_ne hne, fixed_reopened]
      · rwa [withdrawn_of_ne hne, retracted_reopened]
    by_cases hnames : namesCause row item
    · rw [reopened, if_pos ⟨hnames, hkind, hstands⟩] at hresolved
      rcases (stillDischarged_withdrawal hrow).1 hresolved with hheld | ⟨mail, hmail, hother⟩
      · exact .inl (by rwa [seq_of_fixed hfixed])
      · obtain ⟨hnotRow, -, hmailStands, hcloses⟩ := hother
        obtain ⟨mail', hmem, hmailFixed, hstands'⟩ := hrows mail hmail hnotRow hmailStands
        exact .inr ⟨mail', hmem, hstands', (closes_congr hfixed hmailFixed).trans hcloses⟩
    · rw [reopened, if_neg fun hcond => hnames hcond.1] at hresolved
      have hsame : item.seq = n := (seq_of_fixed hfixed).symm.trans hn
      refine (h item hitem hsame hkind hstands hresolved).of_rows hfixed (fun hheld => ?_)
        fun mail hmail hstands hcloses => hrows mail hmail (fun hseq => ?_) hstands
      · obtain ⟨b, hup⟩ := isHeld_iff_goesUp.1 hheld
        refine isHeld_iff_goesUp.2 ⟨b, goesUp_withdrawal.2 ⟨hup, fun hb => hnames ?_⟩⟩
        obtain ⟨held, hheldMem, forwarded, hmem, hheldSeq, hseq, hwent⟩ := hlinked.joins hup
        obtain rfl := DeliveredMail.eq_of_seq_eq hheldMem hitem hheldSeq
        obtain rfl := DeliveredMail.eq_of_seq_eq hmem hrow (hseq.trans hb)
        exact namesCause_of_cause (hsafe _ hitem) hwent.cause
      · obtain rfl := DeliveredMail.eq_of_seq_eq hmail hrow hseq
        exact hnames (namesCause_of_cause (hsafe _ hitem) (cause_of_closes hcloses))

theorem ResolvedDischarged.step {E : MailEnvelope → Prop} {t t' : MailTables}
    (h : ResolvedDischarged t) (hsafe : SafeNumbers t) (hlinked : LinkedInbox t)
    (hstep : InboxStep E t t') : ResolvedDischarged t' := by
  intro item hitem
  have hsound : SoundAt item.seq t := fun old hold _ => h old hold
  exact hsound.step hsafe hlinked hstep item hitem rfl

/-- Every branch of the fold resolves what is answered, as long as mail names earlier mail. -/
theorem CompleteAt.step {E : MailEnvelope → Prop} {n : ℕ} {t t' : MailTables}
    (h : CompleteAt n t) (hcaused : CausedAfter n t)
    (hE : ∀ envelope, E envelope → FindsCause n t envelope) (hstep : InboxStep E t t') :
    CompleteAt n t' := by
  intro item' hitem' hn hstands ⟨closer', hcloser', hcloserStands, hcloses⟩
  cases hstep with
  | quiet hinbox hlinks =>
    exact h item' (hinbox ▸ hitem') hn hstands ⟨closer', hinbox ▸ hcloser', hcloserStands, hcloses⟩
  | @added envelope seq ts _ henvelope hnewest hadded =>
    have hcause := cause_of_closes hcloses
    rcases (hadded.mem item').1 hitem' with rfl | ⟨item, hitem, rfl⟩
    · -- nothing answers a mail before it is there
      exfalso
      rcases (hadded.mem closer').1 hcloser' with rfl | ⟨closer, hcloser, rfl⟩
      · obtain ⟨mail, hmail, hseq⟩ := hE envelope henvelope (hn ▸ hcause)
        exact Nat.ne_of_lt (hnewest mail hmail) (hseq.trans hn.symm)
      · have hfixed := fixed_answered (deliveredRow envelope seq ts) closer
        rw [causationId_of_fixed hfixed] at hcause
        change seq = n at hn
        subst hn
        exact Nat.lt_asymm (hcaused closer hcloser hcause) (hnewest closer hcloser)
    · have hfixed := fixed_answered (deliveredRow envelope seq ts) item
      rw [retracted_answered] at hstands
      rcases (hadded.mem closer').1 hcloser' with rfl | ⟨closer, hcloser, rfl⟩
      · rw [closes_congr hfixed rfl] at hcloses
        rw [answered, if_pos ⟨hcloses, hstands⟩]
      · rw [closes_congr hfixed (fixed_answered _ closer)] at hcloses
        rw [retracted_answered] at hcloserStands
        exact resolved_answered (h item hitem ((seq_of_fixed hfixed).symm.trans hn) hstands
          ⟨closer, hcloser, hcloserStands, hcloses⟩)
  | @read p =>
    obtain ⟨item, hitem, rfl⟩ := MailTables.mem_updateWhere.1 hitem'
    obtain ⟨closer, hcloser, rfl⟩ := MailTables.mem_updateWhere.1 hcloser'
    have hrun := (RowUpdate.setRead.onlyWhere p).fixed_run
    refine (resolved_setRead p item).trans (h item hitem ?_ ?_ ⟨closer, hcloser, ?_, ?_⟩)
    · exact (seq_of_fixed (hrun item)).symm.trans hn
    · exact (retracted_setRead p item).symm.trans hstands
    · exact (retracted_setRead p closer).symm.trans hcloserStands
    · exact (closes_congr (hrun item) (hrun closer)).symm.trans hcloses
  | @forwarded held forwarded link _ _ _ _ _ _ _ _ _ _ _ _ hinbox _ _ _ =>
    obtain ⟨item, hitem, rfl⟩ := (hinbox item').1 hitem'
    obtain ⟨closer, hcloser, rfl⟩ := (hinbox closer').1 hcloser'
    rw [closes_congr (fixed_discharged held item) (fixed_discharged held closer)] at hcloses
    rw [retracted_discharged] at hstands hcloserStands
    exact resolved_discharged (h item hitem
      ((seq_of_fixed (fixed_discharged held item)).symm.trans hn) hstands
      ⟨closer, hcloser, hcloserStands, hcloses⟩)
  | @retracted row hrow _ hforwarded =>
    obtain ⟨item, hitem, rfl⟩ := (mem_withdrawal hrow).1 hitem'
    obtain ⟨closer, hcloser, rfl⟩ := (mem_withdrawal hrow).1 hcloser'
    rw [retracted_reopened, retracted_withdrawn] at hstands hcloserStands
    obtain ⟨hne, hstands⟩ := hstands
    obtain ⟨hcloserNe, hcloserStands⟩ := hcloserStands
    rw [withdrawn_of_ne hne, withdrawn_of_ne hcloserNe] at *
    have hseq : item.seq = n := (seq_of_fixed (fixed_reopened _ _ item)).symm.trans hn
    rw [closes_congr (fixed_reopened _ _ item) (fixed_reopened _ _ closer)] at hcloses
    have hlt : item.seq < closer.seq :=
      hseq ▸ hcaused closer hcloser (hseq ▸ cause_of_closes hcloses)
    unfold reopened
    split
    · exact (stillDischarged_withdrawal hrow).2 (.inr ⟨closer, hcloser, hcloserNe,
        Nat.ne_of_gt hlt, hcloserStands, hcloses⟩)
    · exact h item hitem hseq hstands ⟨closer, hcloser, hcloserStands, hcloses⟩

theorem AnsweredResolved.step {E : MailEnvelope → Prop} {t t' : MailTables}
    (h : AnsweredResolved t) (hcaused : CausedEarlier t)
    (hE : ∀ envelope, E envelope → NamesExisting t envelope) (hstep : InboxStep E t t') :
    AnsweredResolved t' := by
  intro item hitem
  have hcomplete : CompleteAt item.seq t := fun old hold _ => h old hold
  exact hcomplete.step (fun row hrow => hcaused row hrow item.seq)
    (fun envelope henvelope => hE envelope henvelope item.seq) hstep item hitem rfl

theorem InboxStep.fixed {E : MailEnvelope → Prop} {t t' : MailTables} (h : InboxStep E t t')
    {row' : DeliveredMail} (hrow' : row' ∈ t'.inbox) :
    (∃ row ∈ t.inbox, row'.fixed = row.fixed) ∨ ∃ envelope seq ts, E envelope ∧
      (∀ row ∈ t.inbox, row.seq < seq) ∧ row' = deliveredRow envelope seq ts := by
  cases h with
  | quiet hinbox _ => exact .inl ⟨row', hinbox ▸ hrow', rfl⟩
  | added hE hnewest hadded =>
    rcases (hadded.mem row').1 hrow' with rfl | ⟨row, hrow, rfl⟩
    · exact .inr ⟨_, _, _, hE, hnewest, rfl⟩
    · exact .inl ⟨row, hrow, fixed_answered _ row⟩
  | @read p =>
    obtain ⟨row, hrow, rfl⟩ := MailTables.mem_updateWhere.1 hrow'
    exact .inl ⟨row, hrow, (RowUpdate.setRead.onlyWhere p).fixed_run row⟩
  | forwarded _ _ _ _ _ _ _ _ _ _ _ hinbox _ _ _ =>
    obtain ⟨row, hrow, rfl⟩ := (hinbox row').1 hrow'
    exact .inl ⟨row, hrow, fixed_discharged _ row⟩
  | @retracted row hrow _ _ =>
    obtain ⟨old, hold, rfl⟩ := (mem_withdrawal hrow).1 hrow'
    exact .inl ⟨old, hold, (fixed_reopened _ _ _).trans (fixed_withdrawn row old)⟩

theorem CausedAfter.step {E : MailEnvelope → Prop} {n : ℕ} {t t' : MailTables}
    (h : CausedAfter n t) (hE : ∀ envelope, E envelope → FindsCause n t envelope)
    (hstep : InboxStep E t t') : CausedAfter n t' := by
  intro row' hrow' hcause
  rcases hstep.fixed hrow' with ⟨row, hrow, hfixed⟩ | ⟨envelope, _, _, henvelope, hnewest, rfl⟩
  · rw [seq_of_fixed hfixed]
    refine h row hrow ?_
    rwa [causationId_of_fixed hfixed] at hcause
  · obtain ⟨mail, hmail, rfl⟩ := hE envelope henvelope hcause
    exact hnewest mail hmail

theorem CausedEarlier.step {E : MailEnvelope → Prop} {t t' : MailTables} (h : CausedEarlier t)
    (hE : ∀ envelope, E envelope → NamesExisting t envelope) (hstep : InboxStep E t t') :
    CausedEarlier t' := by
  intro row hrow seq
  have hafter : CausedAfter seq t := fun old hold => h old hold seq
  exact hafter.step (fun envelope henvelope => hE envelope henvelope seq) hstep row hrow

end Orchestration.Mail
