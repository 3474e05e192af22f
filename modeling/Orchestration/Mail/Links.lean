import Orchestration.Library.Chain
import Orchestration.Mail.Calls

/-!
# Forward links

What each committed event does to the inbox, and what every link says of the two
items it joins: the held one is discharged, and the other went up from its
holder later on, in its thread and with it as its cause.
-/

namespace Orchestration.Mail

open Fallible Transaction

/-! ## What one event does to the inbox -/

/-- One event of the mail store, by what it did to the rows and the links. -/
inductive InboxStep (E : MailEnvelope → Prop) (t : MailTables) : MailTables → Prop where
  | quiet {t' : MailTables} (hinbox : t'.inbox = t.inbox)
      (hlinks : t'.forwardLinks = t.forwardLinks) : InboxStep E t t'
  | added {envelope : MailEnvelope} {seq ts : ℕ} {t' : MailTables} (hE : E envelope)
      (hnewest : ∀ row ∈ t.inbox, row.seq < seq)
      (hadded : Added t (deliveredRow envelope seq ts) t') : InboxStep E t t'
  | read {p : DeliveredMail → Bool} : InboxStep E t (t.updateWhere .setRead p)
  | forwarded {item forwarded : DeliveredMail} {link : ForwardLink} {t' : MailTables}
      (hitem : item ∈ t.inbox) (hunretracted : item.retracted = false)
      (hkind : item.type = .escalation ∨ item.type = .clarifyRequest)
      (hforwarded : forwarded ∈ t.inbox) (hlt : item.seq < forwarded.seq)
      (hvisible : forwarded.retracted = false) (htype : forwarded.type = .escalation)
      (hsender : forwarded.sender = item.recipient)
      (hcause : forwarded.causationId = some (toString item.seq))
      (hthread : forwarded.correlationId = some item.threadId)
      (hheld : t.isHeld item.seq = false)
      (hinbox : ∀ mail, mail ∈ t'.inbox ↔ ∃ old ∈ t.inbox, mail = discharged item old)
      (hheldSeq : link.heldSeq = item.seq) (hforwardedSeq : link.forwardedSeq = forwarded.seq)
      (hlinks : t'.forwardLinks.rows = t.forwardLinks.rows ++ [link]) : InboxStep E t t'
  | retracted {row : DeliveredMail} (hrow : row ∈ t.inbox) (hreview : isReviewMail row = false)
      (hforwarded : (forwardedMailForHeld t row.seq).isSome = false) :
      InboxStep E t (recomputeResolvedAfterRetractingCloser (withRetracted t row) row)

/-- A clean-up, by what it did to the rows. -/
def Cleared (t t' : MailTables) : Prop :=
  ∃ p : DeliveredMail → Bool, t' = t.updateWhere .setRetracted p ∧
    ∀ mail, p mail = true → mail.kind = .actionable ∧ isReviewMail mail = false

section

variable {E : MailEnvelope → Prop} {R : EventClass} {db db' : Db} {event : NewEvent Payload}

/-- The newest row of the inbox is the last of any selection that it belongs to. -/
theorem getLast?_filter_eq {t : MailTables} {p : DeliveredMail → Bool} {newest last : DeliveredMail}
    (hmem : newest ∈ t.inbox) (hp : p newest = true)
    (hnewest : ∀ row ∈ t.inbox, row.seq ≤ newest.seq)
    (hlast : (t.inbox.filter p).getLast? = some last) : last = newest := by
  obtain ⟨before, hfilter⟩ := List.getLast?_eq_some_iff.1 hlast
  have hsorted : (before ++ [last]).Pairwise fun a b => a.seq < b.seq :=
    hfilter ▸ t.inbox_sorted.filter p
  have hnewestMem : newest ∈ before ++ [last] := hfilter ▸ List.mem_filter.2 ⟨hmem, hp⟩
  have hlastMem : last ∈ t.inbox :=
    (List.mem_filter.1 (hfilter ▸ List.mem_append_right before List.mem_cons_self)).1
  rcases List.mem_append.1 hnewestMem with hbefore | hsame
  · have hlt := (List.pairwise_append.1 hsorted).2.2 newest hbefore last List.mem_cons_self
    have hle := hnewest last hlastMem
    omega
  · exact (List.mem_singleton.1 hsame).symm

/-- A read receipt marks rows as read. -/
theorem read_of_commit {recipient : String} {seq : ℕ} {e : NewEvent MailEvent}
    (he : makeMailReadEvent recipient seq = .ok e) (h : db.commit (toProject e) = .ok db') :
    ∃ p, db'.mail = db.mail.updateWhere .setRead p := by
  simp only [makeMailReadEvent, bind_eq_ok, pure_eq_ok] at he
  obtain ⟨-, -, rfl⟩ := he
  obtain ⟨payload', hschema, happlied, -⟩ := applied_of_commit rfl h
  obtain rfl := pure_eq_ok.1 hschema
  generalize db'.mail = t' at happlied ⊢
  cases happlied with
  | read => exact ⟨_, rfl⟩
  | cleared hpayload => simp [StoredEvent.withPayload] at hpayload
  | _ hpayload => simp [StoredEvent.withPayload] at hpayload

/-- A retraction withdraws the mail it names. -/
theorem retracted_of_commit {sender : String} {seq : ℕ} {e : NewEvent MailEvent}
    (he : makeMailRetractEvent sender seq = .ok e) (h : db.commit (toProject e) = .ok db') :
    ∃ row ∈ db.mail.inbox, row.seq = seq ∧ isReviewMail row = false ∧
      db'.mail = recomputeResolvedAfterRetractingCloser (withRetracted db.mail row) row := by
  simp only [makeMailRetractEvent, bind_eq_ok, pure_eq_ok] at he
  obtain ⟨-, -, rfl⟩ := he
  obtain ⟨payload', hschema, happlied, -⟩ := applied_of_commit rfl h
  obtain rfl := pure_eq_ok.1 hschema
  generalize db'.mail = t' at happlied ⊢
  cases happlied with
  | retracted hpayload hrow hreview =>
    obtain rfl : seq = _ := by simpa [StoredEvent.withPayload] using hpayload
    exact ⟨_, hrow, rfl, hreview, rfl⟩
  | cleared hpayload => simp [StoredEvent.withPayload] at hpayload
  | _ hpayload => simp [StoredEvent.withPayload] at hpayload

theorem inboxStep_of_appends (hdb : Consistent db) (h : Appends E R db event)
    (hcommit : db.commit event = .ok db') : InboxStep E db.mail db'.mail := by
  cases h with
  | mail hE he hfresh =>
    exact .added hE (fun row hrow => (row_of_log hdb hrow).2) (added_of_fresh he hfresh hcommit)
  | other hother _ =>
    rw [mail_of_commit hother hcommit]
    exact .quiet rfl rfl
  | read he =>
    obtain ⟨p, hread⟩ := read_of_commit he hcommit
    rw [hread]
    exact .read
  | retracted he hheld =>
    obtain ⟨row, hrow, rfl, hreview, hretracted⟩ := retracted_of_commit he hcommit
    rw [hretracted]
    exact .retracted hrow hreview hheld
  | @liveEffect effect e he =>
    simp only [makeMailLiveEffectEvent, bind_eq_ok, pure_eq_ok] at he
    obtain ⟨payload, hmake, rfl⟩ := he
    obtain rfl := mailSchemas_receipt (by simp) hmake
    obtain ⟨payload', hschema, happlied, -⟩ := applied_of_commit rfl hcommit
    obtain rfl := mailSchemas_receipt (by simp) hschema
    generalize db'.mail = t' at happlied ⊢
    cases happlied with
    | liveEffect _ hinbox hlinks => exact .quiet hinbox hlinks
    | cleared hpayload => simp [StoredEvent.withPayload] at hpayload
    | _ hpayload => simp [StoredEvent.withPayload] at hpayload
  | @forwarded item newest e he hitem hnewestMem hnewest hlt hvisible htype hsender hcause
      hthread =>
    simp only [makeMailForwardEvent, bind_eq_ok, pure_eq_ok] at he
    obtain ⟨-, -, -, -, payload, hmake, rfl⟩ := he
    obtain rfl := mailSchemas_receipt (by simp) hmake
    obtain ⟨payload', hschema, happlied, -⟩ := applied_of_commit rfl hcommit
    obtain rfl := mailSchemas_receipt (by simp) hschema
    generalize db'.mail = t' at happlied ⊢
    cases happlied with
    | @forwarded item' last forwardedTo t' hpayload hitem' hunretracted hkind hlast hheld hinbox
        hlinks =>
      obtain ⟨hseq, hto⟩ : item.seq = item'.seq ∧ newest.recipient = forwardedTo := by
        simpa [StoredEvent.withPayload] using hpayload
      obtain rfl := DeliveredMail.eq_of_seq_eq hitem hitem' hseq
      obtain rfl : last = newest := by
        refine getLast?_filter_eq hnewestMem ?_ hnewest hlast
        simp [hsender, hto, htype, hcause, hthread]
      exact .forwarded hitem hunretracted hkind hnewestMem hlt hvisible htype hsender hcause hthread
        hheld hinbox rfl rfl hlinks
    | cleared hpayload => simp [StoredEvent.withPayload] at hpayload
    | _ hpayload => simp [StoredEvent.withPayload] at hpayload

theorem cleared_of_clears (h : Clears db event) (hcommit : db.commit event = .ok db') :
    Cleared db.mail db'.mail := by
  have hreceipt : ∀ {payload : MailEvent},
      payload = .recipientCleared ∨ (∃ sender, payload = .recipientSenderCleared sender) →
      event.payload = .mail payload → Cleared db.mail db'.mail := by
    intro payload hcases hpayload
    obtain ⟨payload', hschema, happlied, -⟩ := applied_of_commit hpayload hcommit
    have hne : ∀ type p, payload ≠ .mail type p := by
      rcases hcases with rfl | ⟨sender, rfl⟩ <;> simp
    obtain rfl := mailSchemas_receipt hne hschema
    generalize db'.mail = t' at happlied ⊢
    cases happlied with
    | cleared _ hp => exact ⟨_, rfl, hp⟩
    | liveEffect hpayload => simp_all [StoredEvent.withPayload]
    | collapsed hpayload => simp_all [StoredEvent.withPayload]
    | added hpayload => simp_all [StoredEvent.withPayload]
    | read hpayload => simp_all [StoredEvent.withPayload]
    | retracted hpayload => simp_all [StoredEvent.withPayload]
    | forwarded hpayload => simp_all [StoredEvent.withPayload]
  cases h with
  | recipient he =>
    simp only [makeMailRecipientClearedEvent, bind_eq_ok, pure_eq_ok] at he
    obtain ⟨-, -, rfl⟩ := he
    exact hreceipt (.inl rfl) rfl
  | sender he =>
    simp only [makeMailRecipientSenderClearedEvent, bind_eq_ok, pure_eq_ok] at he
    obtain ⟨-, -, -, -, rfl⟩ := he
    exact hreceipt (.inr ⟨_, rfl⟩) rfl

end

/-! ## What a link says -/

/-- The item at `a` went up as the item at `b`. -/
def GoesUp (t : MailTables) (a b : ℕ) : Prop :=
  ∃ link ∈ t.forwardLinks.rows, link.heldSeq = a ∧ link.forwardedSeq = b

/-- What a link says of the two items it joins. -/
structure WentUp (held forwarded : DeliveredMail) : Prop where
  lt : held.seq < forwarded.seq
  kind : held.type = .escalation ∨ held.type = .clarifyRequest
  resolved : held.resolved = true
  type : forwarded.type = .escalation
  sender : forwarded.sender = held.recipient
  cause : forwarded.causationId = some (toString held.seq)
  thread : forwarded.correlationId = some held.threadId

/-- The links of an inbox join two of its items each, and an item went up once at most. -/
structure LinkedInbox (t : MailTables) : Prop where
  joins : ∀ {a b : ℕ}, GoesUp t a b → ∃ held ∈ t.inbox, ∃ forwarded ∈ t.inbox,
    held.seq = a ∧ forwarded.seq = b ∧ WentUp held forwarded
  held_once : ∀ {a b c : ℕ}, GoesUp t a b → GoesUp t a c → b = c

/-- Nothing a link joins was withdrawn. -/
def Unretracted (t : MailTables) : Prop :=
  ∀ {a b : ℕ}, GoesUp t a b → ∀ row ∈ t.inbox, row.seq = a ∨ row.seq = b → row.retracted = false

theorem isHeld_iff_goesUp {t : MailTables} {a : ℕ} : t.isHeld a = true ↔ ∃ b, GoesUp t a b := by
  rw [MailTables.isHeld_iff]
  constructor
  · rintro ⟨link, hlink, hheld⟩
    exact ⟨_, link, hlink, hheld, rfl⟩
  · rintro ⟨b, link, hlink, hheld, -⟩
    exact ⟨link, hlink, hheld⟩

/-- An item that went up is discharged. -/
theorem LinkedInbox.resolved_of_isHeld {t : MailTables} (h : LinkedInbox t) {item : DeliveredMail}
    (hitem : item ∈ t.inbox) (hheld : t.isHeld item.seq = true) : item.resolved = true := by
  obtain ⟨b, hup⟩ := isHeld_iff_goesUp.1 hheld
  obtain ⟨held, hmem, _, _, hseq, _, hwent⟩ := h.joins hup
  rw [← DeliveredMail.eq_of_seq_eq hmem hitem hseq]
  exact hwent.resolved

theorem WentUp.congr {held forwarded held' forwarded' : DeliveredMail} (h : WentUp held forwarded)
    (hheld : held'.fixed = held.fixed) (hforwarded : forwarded'.fixed = forwarded.fixed)
    (hresolved : held'.resolved = true) : WentUp held' forwarded' := by
  obtain ⟨hlt, hkind, -, htype, hsender, hcause, hthread⟩ := h
  simp only [DeliveredMail.fixed, DeliveredMail.mk.injEq] at hheld hforwarded
  obtain ⟨hseq, hrecipient, -, htype', -, -, hcorrelation, -⟩ := hheld
  obtain ⟨hseq', -, hsender', htype'', -, -, hcorrelation', hcause', -⟩ := hforwarded
  refine ⟨?_, ?_, hresolved, ?_, ?_, ?_, ?_⟩
  · omega
  · rwa [htype']
  · rw [htype'', htype]
  · rw [hsender', hsender, hrecipient]
  · rw [hcause', hcause, hseq]
  · rw [hcorrelation', hthread, DeliveredMail.threadId, DeliveredMail.threadId, hcorrelation, hseq]

/-- The rows of `t` are still there in `t'`, and those that are held are resolved no less. -/
def KeepsRows (t t' : MailTables) : Prop :=
  ∀ row ∈ t.inbox, ∃ row' ∈ t'.inbox, row'.fixed = row.fixed ∧
    (t'.isHeld row.seq = true → row.resolved = true → row'.resolved = true)

/-- A link that stays says the same of the rows that were kept. -/
theorem LinkedInbox.joins_kept {t t' : MailTables} (h : LinkedInbox t) (hrows : KeepsRows t t')
    {a b : ℕ} (hup : GoesUp t a b) (hheld : t'.isHeld a = true) :
    ∃ held ∈ t'.inbox, ∃ forwarded ∈ t'.inbox,
      held.seq = a ∧ forwarded.seq = b ∧ WentUp held forwarded := by
  obtain ⟨held, hmem, forwarded, hforwarded, rfl, rfl, hwent⟩ := h.joins hup
  obtain ⟨held', hheld', hfixed, hresolved⟩ := hrows held hmem
  obtain ⟨forwarded', hforwarded', hfixed', -⟩ := hrows forwarded hforwarded
  exact ⟨held', hheld', forwarded', hforwarded', seq_of_fixed hfixed, seq_of_fixed hfixed',
    hwent.congr hfixed hfixed' (hresolved hheld hwent.resolved)⟩

/-- Links are kept by a change that adds none. -/
theorem LinkedInbox.of_rows {t t' : MailTables} (h : LinkedInbox t)
    (hlinks : ∀ {a b : ℕ}, GoesUp t' a b → GoesUp t a b) (hrows : KeepsRows t t') :
    LinkedInbox t' where
  joins hup := h.joins_kept hrows (hlinks hup) (isHeld_iff_goesUp.2 ⟨_, hup⟩)
  held_once hb hc := h.held_once (hlinks hb) (hlinks hc)

theorem resolved_answered {closer row : DeliveredMail} (h : row.resolved = true) :
    (answered closer row).resolved = true := by
  unfold answered
  split
  · rfl
  · exact h

theorem resolved_discharged {item row : DeliveredMail} (h : row.resolved = true) :
    (discharged item row).resolved = true := by
  unfold discharged
  split
  · rfl
  · exact h

@[simp] theorem resolved_withdrawn (row old : DeliveredMail) :
    (withdrawn row old).resolved = old.resolved := by
  unfold withdrawn
  split <;> rfl

/-- The item that a withdrawn mail names stays resolved while a link holds it. -/
theorem resolved_reopened {t : MailTables} {closer row : DeliveredMail}
    (hheld : (t.deleteLink closer.seq).isHeld row.seq = true) (h : row.resolved = true) :
    (reopened t closer row).resolved = true := by
  unfold reopened
  split
  · simp [stillDischarged, hheld]
  · exact h

theorem goesUp_deleteLink {t : MailTables} {seq a b : ℕ} :
    GoesUp (t.deleteLink seq) a b ↔ GoesUp t a b ∧ b ≠ seq := by
  simp only [GoesUp, MailTables.deleteLink, Table.mem_filter, bne_iff_ne]
  constructor
  · rintro ⟨link, ⟨hlink, hne⟩, rfl, rfl⟩
    exact ⟨⟨link, hlink, rfl, rfl⟩, hne⟩
  · rintro ⟨⟨link, hlink, rfl, rfl⟩, hne⟩
    exact ⟨link, ⟨hlink, hne⟩, rfl, rfl⟩

theorem goesUp_congr {t t' : MailTables} (h : t'.forwardLinks = t.forwardLinks) {a b : ℕ} :
    GoesUp t' a b ↔ GoesUp t a b := by
  rw [GoesUp, GoesUp, h]

theorem goesUp_append {t t' : MailTables} {link : ForwardLink}
    (h : t'.forwardLinks.rows = t.forwardLinks.rows ++ [link]) {a b : ℕ} :
    GoesUp t' a b ↔ GoesUp t a b ∨ (link.heldSeq = a ∧ link.forwardedSeq = b) := by
  simp only [GoesUp, h, List.mem_append, List.mem_singleton, or_and_right, exists_or,
    exists_eq_left]

/-- The rows and the links that the withdrawal of `row` leaves. -/
theorem mem_withdrawal {t : MailTables} {row mail : DeliveredMail} (hrow : row ∈ t.inbox) :
    mail ∈ (recomputeResolvedAfterRetractingCloser (withRetracted t row) row).inbox ↔
      ∃ old ∈ t.inbox, mail = reopened (withRetracted t row) row (withdrawn row old) := by
  rw [mem_recompute]
  constructor
  · rintro ⟨mid, hmid, rfl⟩
    obtain ⟨old, hold, rfl⟩ := (mem_withRetracted hrow).1 hmid
    exact ⟨old, hold, rfl⟩
  · rintro ⟨old, hold, rfl⟩
    exact ⟨_, (mem_withRetracted hrow).2 ⟨old, hold, rfl⟩, rfl⟩

theorem goesUp_withdrawal {t : MailTables} {row : DeliveredMail} {a b : ℕ} :
    GoesUp (recomputeResolvedAfterRetractingCloser (withRetracted t row) row) a b ↔
      GoesUp t a b ∧ b ≠ row.seq := by
  rw [goesUp_congr forwardLinks_recompute, goesUp_deleteLink]
  exact Iff.rfl

theorem LinkedInbox.step {E : MailEnvelope → Prop} {t t' : MailTables} (h : LinkedInbox t)
    (hstep : InboxStep E t t') : LinkedInbox t' := by
  cases hstep with
  | quiet hinbox hlinks =>
    refine h.of_rows (goesUp_congr hlinks).1 fun row hrow => ?_
    exact ⟨row, hinbox ▸ hrow, rfl, fun _ hresolved => hresolved⟩
  | added _ _ hadded =>
    refine h.of_rows (goesUp_congr hadded.links).1 fun row hrow => ?_
    exact ⟨_, (hadded.mem _).2 (.inr ⟨row, hrow, rfl⟩), fixed_answered _ row,
      fun _ => resolved_answered⟩
  | read =>
    refine h.of_rows (fun hup => hup) fun row hrow => ?_
    refine ⟨_, MailTables.mem_updateWhere.2 ⟨row, hrow, rfl⟩, ?_, fun _ hresolved => ?_⟩ <;>
      split <;> first | rfl | exact hresolved
  | @forwarded item forwarded link _ hitem _ hkind hforwarded hlt _ htype hsender hcause hthread
      hheld hinbox hheldSeq hforwardedSeq hlinks =>
    have hrows : KeepsRows t t' := fun row hrow =>
      ⟨_, (hinbox _).2 ⟨row, hrow, rfl⟩, fixed_discharged item row, fun _ => resolved_discharged⟩
    have hnone : ∀ {c : ℕ}, ¬ GoesUp t item.seq c := fun hup => by
      simp [isHeld_iff_goesUp.2 ⟨_, hup⟩] at hheld
    refine ⟨fun {a b} hup => ?_, fun {a b c} hb hc => ?_⟩
    · rcases (goesUp_append hlinks).1 hup with hold | ⟨rfl, rfl⟩
      · exact h.joins_kept hrows hold (isHeld_iff_goesUp.2 ⟨_, hup⟩)
      · have hwent : WentUp (discharged item item) (discharged item forwarded) := by
          have hne : forwarded.seq ≠ item.seq := by omega
          rw [discharged, if_pos rfl, discharged, if_neg hne]
          exact ⟨hlt, hkind, rfl, htype, hsender, hcause, hthread⟩
        exact ⟨_, (hinbox _).2 ⟨item, hitem, rfl⟩, _, (hinbox _).2 ⟨forwarded, hforwarded, rfl⟩,
          (seq_of_fixed (fixed_discharged item item)).trans hheldSeq.symm,
          (seq_of_fixed (fixed_discharged item forwarded)).trans hforwardedSeq.symm, hwent⟩
    · rcases (goesUp_append hlinks).1 hb with hb | ⟨rfl, rfl⟩ <;>
        rcases (goesUp_append hlinks).1 hc with hc | ⟨hac, rfl⟩
      · exact h.held_once hb hc
      · exact absurd (hheldSeq ▸ hac ▸ hb) hnone
      · exact absurd (hheldSeq ▸ hc) hnone
      · rfl
  | @retracted row hrow _ _ =>
    refine h.of_rows (fun hup => (goesUp_withdrawal.1 hup).1) fun old hold => ?_
    refine ⟨_, (mem_withdrawal hrow).2 ⟨old, hold, rfl⟩,
      (fixed_reopened _ _ _).trans (fixed_withdrawn row old), fun hheld hresolved => ?_⟩
    refine resolved_reopened ?_ (by simpa using hresolved)
    rw [seq_of_fixed (fixed_withdrawn row old)]
    simpa [MailTables.isHeld] using hheld

theorem LinkedInbox.cleared {t t' : MailTables} (h : LinkedInbox t) (hcleared : Cleared t t') :
    LinkedInbox t' := by
  obtain ⟨p, rfl, -⟩ := hcleared
  refine h.of_rows (fun hup => hup) fun row hrow => ?_
  refine ⟨_, MailTables.mem_updateWhere.2 ⟨row, hrow, rfl⟩, ?_, fun _ hresolved => ?_⟩ <;>
    split <;> first | rfl | exact hresolved

@[simp] theorem retracted_answered (closer row : DeliveredMail) :
    (answered closer row).retracted = row.retracted := by
  unfold answered
  split <;> rfl

@[simp] theorem retracted_discharged (item row : DeliveredMail) :
    (discharged item row).retracted = row.retracted := by
  unfold discharged
  split <;> rfl

@[simp] theorem retracted_reopened (t : MailTables) (closer row : DeliveredMail) :
    (reopened t closer row).retracted = row.retracted := by
  unfold reopened
  split <;> rfl

@[simp] theorem retracted_setRead (p : DeliveredMail → Bool) (row : DeliveredMail) :
    ((RowUpdate.setRead.onlyWhere p).run row).retracted = row.retracted := by
  unfold RowUpdate.onlyWhere
  dsimp only
  split <;> rfl

@[simp] theorem resolved_setRead (p : DeliveredMail → Bool) (row : DeliveredMail) :
    ((RowUpdate.setRead.onlyWhere p).run row).resolved = row.resolved := by
  unfold RowUpdate.onlyWhere
  dsimp only
  split <;> rfl

theorem withdrawn_of_ne {row old : DeliveredMail} (h : old.seq ≠ row.seq) :
    withdrawn row old = old := if_neg h

@[simp] theorem retracted_withdrawn {row old : DeliveredMail} :
    (withdrawn row old).retracted = false ↔ old.seq ≠ row.seq ∧ old.retracted = false := by
  unfold withdrawn
  split <;> simp_all

/-- What may be withdrawn did not go up. -/
theorem LinkedInbox.isHeld_eq_false {t : MailTables} (h : LinkedInbox t) {seq : ℕ}
    (hforwarded : (forwardedMailForHeld t seq).isSome = false) : t.isHeld seq = false := by
  rw [← InProcessDelivery.forwardedMailForHeld_isSome fun link hlink => ?_, hforwarded]
  obtain ⟨_, _, forwarded, hmem, _, hseq, _⟩ := h.joins ⟨link, hlink, rfl, rfl⟩
  rw [selectMailBySeq_eq_some.2 ⟨hmem, hseq⟩]
  rfl

/-- Outside the clean-ups, nothing a link joins is withdrawn. -/
theorem Unretracted.step {E : MailEnvelope → Prop} {t t' : MailTables} (h : Unretracted t)
    (hlinked : LinkedInbox t) (hstep : InboxStep E t t') : Unretracted t' := by
  intro a b hup row' hrow' hends
  cases hstep with
  | quiet hinbox hlinks => exact h ((goesUp_congr hlinks).1 hup) row' (hinbox ▸ hrow') hends
  | added _ _ hadded =>
    rcases (hadded.mem row').1 hrow' with rfl | ⟨row, hrow, rfl⟩
    · rfl
    · rw [seq_of_fixed (fixed_answered _ row)] at hends
      rw [retracted_answered]
      exact h ((goesUp_congr hadded.links).1 hup) row hrow hends
  | @read p =>
    obtain ⟨row, hrow, rfl⟩ := MailTables.mem_updateWhere.1 hrow'
    change ((RowUpdate.setRead.onlyWhere p).run row).seq = a ∨
      ((RowUpdate.setRead.onlyWhere p).run row).seq = b at hends
    rw [RowUpdate.seq_run] at hends
    exact (retracted_setRead p row).trans (h hup row hrow hends)
  | @forwarded item forwarded link _ hitem hunretracted _ hforwarded _ hvisible _ _ _ _ _ hinbox
      hheldSeq hforwardedSeq hlinks =>
    obtain ⟨row, hrow, rfl⟩ := (hinbox row').1 hrow'
    rw [seq_of_fixed (fixed_discharged item row)] at hends
    rw [retracted_discharged]
    rcases (goesUp_append hlinks).1 hup with hold | ⟨rfl, rfl⟩
    · exact h hold row hrow hends
    · rcases hends with hseq | hseq
      · rwa [DeliveredMail.eq_of_seq_eq hrow hitem (hseq.trans hheldSeq)]
      · rwa [DeliveredMail.eq_of_seq_eq hrow hforwarded (hseq.trans hforwardedSeq)]
  | @retracted row hrow _ hforwarded =>
    obtain ⟨old, hold, rfl⟩ := (mem_withdrawal hrow).1 hrow'
    obtain ⟨hup, hne⟩ := goesUp_withdrawal.1 hup
    rw [seq_of_fixed ((fixed_reopened _ _ _).trans (fixed_withdrawn row old))] at hends
    rw [retracted_reopened, retracted_withdrawn]
    refine ⟨fun hseq => ?_, h hup old hold hends⟩
    rcases hends with ha | hb
    · have hheld := hlinked.isHeld_eq_false hforwarded
      rw [← hseq, ha, isHeld_iff_goesUp.2 ⟨_, hup⟩] at hheld
      cases hheld
    · exact hne (hb.symm.trans hseq)

end Orchestration.Mail
