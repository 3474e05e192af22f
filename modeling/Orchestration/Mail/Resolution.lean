import Orchestration.Mail.Chains

/-!
# Resolving a chain

The resolution of a held escalation answers everyone below it. Whether it is
delivered now or was delivered before and is recovered, the held item and its
sources are discharged and each of them has its answer in the inbox of its
sender; and a resolution that fails leaves no trace.
-/

namespace Orchestration.Mail

open Fallible Transaction Relation

/-- The mail of the envelope is in the inbox of its addressee. -/
def Stands (t : MailTables) (envelope : MailEnvelope) : Prop :=
  ∃ row ∈ t.inbox, row.retracted = false ∧ row.recipient = envelope.to ∧
    row.sender = envelope.from ∧ row.type = envelope.type ∧
    row.causationId = envelope.causationId ∧ row.correlationId = envelope.correlationId

/-- No row is lost, withdrawn or reopened. -/
def KeepsFlags (t t' : MailTables) : Prop :=
  ∀ row ∈ t.inbox, ∃ row' ∈ t'.inbox, row'.fixed = row.fixed ∧ row'.retracted = row.retracted ∧
    (row.resolved = true → row'.resolved = true)

theorem KeepsFlags.refl (t : MailTables) : KeepsFlags t t :=
  fun row hrow => ⟨row, hrow, rfl, rfl, id⟩

theorem KeepsFlags.trans {t t' t'' : MailTables} (h : KeepsFlags t t') (h' : KeepsFlags t' t'') :
    KeepsFlags t t'' := by
  intro row hrow
  obtain ⟨mid, hmid, hfixed, hretracted, hresolved⟩ := h row hrow
  obtain ⟨last, hlast, hfixed', hretracted', hresolved'⟩ := h' mid hmid
  exact ⟨last, hlast, hfixed'.trans hfixed, hretracted'.trans hretracted,
    fun h => hresolved' (hresolved h)⟩

theorem Added.keepsFlags {t t' : MailTables} {closer : DeliveredMail} (h : Added t closer t') :
    KeepsFlags t t' := fun row hrow =>
  ⟨_, (h.mem _).2 (.inr ⟨row, hrow, rfl⟩), fixed_answered _ row, retracted_answered _ row,
    resolved_answered⟩

theorem Stands.mono {t t' : MailTables} {envelope : MailEnvelope} (h : Stands t envelope)
    (hkeeps : KeepsFlags t t') : Stands t' envelope := by
  obtain ⟨row, hrow, hstands, hcolumns⟩ := h
  obtain ⟨row', hrow', hfixed, hretracted, -⟩ := hkeeps row hrow
  simp only [DeliveredMail.fixed, DeliveredMail.mk.injEq] at hfixed
  obtain ⟨-, hto, hfrom, htype, -, -, hthread, hcause, -⟩ := hfixed
  refine ⟨row', hrow', hretracted.trans hstands, ?_⟩
  rwa [hto, hfrom, htype, hthread, hcause]

namespace InProcessDelivery

/-- A batch of mails keeps every flag, and every mail of it stands. -/
theorem Delivers.stands {envelopes : List MailEnvelope} {db db' : Db}
    (h : Delivers envelopes db db') : KeepsFlags db.mail db'.mail ∧
      ∀ envelope ∈ envelopes, Stands db'.mail envelope := by
  induction h with
  | nil db => exact ⟨.refl db.mail, fun _ h => absurd h List.not_mem_nil⟩
  | @cons envelope envelopes e db mid db' he hfresh hcommit _ ih =>
    have hadded := added_of_fresh he hfresh hcommit
    refine ⟨hadded.keepsFlags.trans ih.1, fun sent hsent => ?_⟩
    rcases List.mem_cons.1 hsent with rfl | hsent
    · have hstands : Stands mid.mail sent :=
        ⟨nextRow db sent, (hadded.mem _).2 (.inl rfl), rfl, rfl, rfl, rfl, rfl, rfl⟩
      exact hstands.mono ih.1
    · exact ih.2 sent hsent

end InProcessDelivery

/-- What a delivered resolution leaves behind. -/
structure Resolves (heldSeq : ℕ) (envelopes : List MailEnvelope) (t t' : MailTables) : Prop where
  keeps : KeepsFlags t t'
  held : ∃ item ∈ t'.inbox, item.seq = heldSeq ∧ item.resolved = true
  stands : ∀ envelope ∈ envelopes, Stands t' envelope

theorem selectMailMatchingEnvelope_stands {t : MailTables} {envelope : MailEnvelope}
    {row : DeliveredMail} (h : selectMailMatchingEnvelope t envelope = some row) :
    Stands t envelope := by
  have hmem := List.mem_of_find?_eq_some h
  have hmatches := List.find?_some h
  simp only [inboxForRecipient, List.mem_filter, Bool.and_eq_true, beq_iff_eq,
    Bool.not_eq_true'] at hmem
  simp only [matchesEnvelope, Bool.and_eq_true, beq_iff_eq] at hmatches
  obtain ⟨hrow, hto, hstands⟩ := hmem
  obtain ⟨⟨⟨⟨⟨⟨hfrom, htype⟩, -⟩, -⟩, hcause⟩, hthread⟩, -⟩ := hmatches
  exact ⟨row, hrow, hstands, hto, hfrom, htype, hcause, hthread⟩

/-- The answer to a held escalation closes it. -/
theorem closes_of_assertResolutionEnvelope {item : DeliveredMail} {envelope : MailEnvelope}
    (h : assertResolutionEnvelope item envelope = .ok ()) (seq ts : ℕ) :
    closes item (deliveredRow envelope seq ts) = true := by
  obtain ⟨htype, hanswer, hfrom, hto, hcause, hthread⟩ := assertResolutionEnvelope_eq_ok.1 h
  simp [closes, htype, completionPredicate, sentByHolder, causedBy, inSameThread,
    sentBackToRequester, deliveredRow, hanswer, hfrom, hto, hcause, hthread]

theorem resolveWithRelays_resolves {held : DeliveredMail} {envelope : MailEnvelope}
    {relays : List MailEnvelope} {result : DeliveredMail × List DeliveredMail} {db db' : Db}
    (hdb : Consistent db)
    (h : InProcessDelivery.resolveWithRelays held envelope relays db = .ok (result, db')) :
    Resolves held.seq (envelope :: relays) db.mail db'.mail := by
  obtain ⟨item, hitem, hseq, -, hstands, hassert, hdelivers⟩ :=
    InProcessDelivery.resolveWithRelays_eq_ok hdb h
  obtain ⟨hkeeps, hsent⟩ := hdelivers.stands
  refine ⟨hkeeps, ?_, hsent⟩
  cases hdelivers with
  | cons he hfresh hcommit hrest =>
    have hadded := added_of_fresh he hfresh hcommit
    have hresolved : (answered (nextRow db envelope) item).resolved = true := by
      rw [answered, if_pos ⟨closes_of_assertResolutionEnvelope hassert _ _, hstands⟩]
    obtain ⟨last, hlast, hfixed, -, hkept⟩ :=
      hrest.stands.1 _ ((hadded.mem _).2 (.inr ⟨item, hitem, rfl⟩))
    refine ⟨last, hlast, ?_, hkept hresolved⟩
    rw [seq_of_fixed hfixed, seq_of_fixed (fixed_answered _ item), hseq]

theorem exists_of_mapM_eq_some {α β : Type} {f : α → Option β} {as : List α} {bs : List β}
    (h : as.mapM f = some bs) {a : α} (ha : a ∈ as) : ∃ b, f a = some b := by
  induction as generalizing bs with
  | nil => cases ha
  | cons head as ih =>
    rw [List.mapM_cons] at h
    obtain ⟨b, hb, hrest⟩ := Option.bind_eq_some_iff.1 h
    obtain ⟨rest, hrest, -⟩ := Option.bind_eq_some_iff.1 hrest
    rcases List.mem_cons.1 ha with rfl | ha
    · exact ⟨b, hb⟩
    · exact ih hrest ha

theorem recoverResolution_resolves {held : DeliveredMail} {envelope : MailEnvelope}
    {relays : List MailEnvelope} {result : DeliveredMail × List DeliveredMail} {db db' : Db}
    (h : LiveDelivery.recoverResolution held envelope relays db = .ok (some result, db')) :
    db' = db ∧ Resolves held.seq (envelope :: relays) db.mail db.mail := by
  simp only [LiveDelivery.recoverResolution, reading_bind] at h
  cases hheld : (selectMailBySeq db.mail held.seq).filter fun currentHeld =>
      currentHeld.recipient == held.recipient && currentHeld.type == .escalation &&
        currentHeld.kind == .actionable && currentHeld.resolved && !currentHeld.retracted with
  | none => simp [hheld] at h
  | some currentHeld =>
    simp only [hheld, Tx.liftM_bind_eq_ok] at h
    obtain ⟨-, -, h⟩ := h
    obtain ⟨hselect, hfilter⟩ := Option.filter_eq_some_iff.1 hheld
    obtain ⟨hmem, hseq⟩ := selectMailBySeq_eq_some.1 hselect
    simp only [Bool.and_eq_true] at hfilter
    obtain ⟨hresult, rfl⟩ := Prod.mk.inj (Except.ok.inj h)
    obtain ⟨response, hresponse, hresult⟩ := Option.bind_eq_some_iff.1 hresult
    refine ⟨rfl, .refl _, ⟨currentHeld, hmem, hseq, hfilter.1.2⟩, fun sent hsent => ?_⟩
    split at hresult
    · cases hresult
    · obtain ⟨rows, hrows, -⟩ := Option.bind_eq_some_iff.1 hresult
      rcases List.mem_cons.1 hsent with rfl | hsent
      · exact selectMailMatchingEnvelope_stands hresponse
      · obtain ⟨row, hrow⟩ := exists_of_mapM_eq_some hrows hsent
        exact selectMailMatchingEnvelope_stands hrow

theorem resolve_resolves {delivery : Delivery} {held response : DeliveredMail}
    {envelope : MailEnvelope} {relays : List MailEnvelope} {db db' : Db} (hdb : Consistent db)
    (h : delivery.resolve held envelope relays db = (.ok response, db')) :
    Resolves held.seq (envelope :: relays) db.mail db'.mail := by
  cases delivery with
  | inProcess =>
    obtain ⟨result, mid, hresult, hpure⟩ := Proc.bind_eq_ok.1 h
    obtain ⟨-, rfl⟩ := Prod.mk.inj hpure
    exact resolveWithRelays_resolves hdb (transaction_eq_ok.1 hresult)
  | live =>
    obtain ⟨result, mid, hresult, hpure⟩ := Proc.bind_eq_ok.1 h
    obtain ⟨-, rfl⟩ := Prod.mk.inj hpure
    rcases Proc.tryCatch_eq_ok.1 hresult with hrun | ⟨e, s, hrun, hhandle⟩
    · exact resolveWithRelays_resolves hdb (transaction_eq_ok.1 hrun)
    · obtain rfl := transaction_error hrun
      obtain ⟨recovered, s', hrecover, hrecovered⟩ := Proc.bind_eq_ok.1 hhandle
      cases recovered with
      | none => cases hrecovered
      | some recovered =>
        obtain ⟨-, rfl⟩ := Prod.mk.inj hrecovered
        obtain ⟨rfl, hresolves⟩ := recoverResolution_resolves (transaction_eq_ok.1 hrecover)
        exact hresolves

theorem resolve_atomic (delivery : Delivery) (held : DeliveredMail) (envelope : MailEnvelope)
    (relays : List MailEnvelope) : Proc.Atomic (delivery.resolve held envelope relays) := by
  cases delivery with
  | inProcess => exact (Proc.atomic_transaction _).bind_pure Prod.fst
  | live =>
    refine Proc.Atomic.bind_pure (Proc.Atomic.tryCatch (Proc.atomic_transaction _) fun e => ?_)
      Prod.fst
    refine Proc.ReadOnly.atomic_bind (Proc.readOnly_transaction fun s result s' h => ?_)
      fun recovered => ?_
    · exact (recoverResolution_eq_ok h).symm
    · cases recovered with
      | none => exact (Proc.readOnly_throw e).atomic
      | some recovered => exact (Proc.readOnly_pure recovered).atomic

/-- The checks before a resolution read nothing and write nothing. -/
theorem readOnly_resolutionChecks (envelopes : List MailEnvelope) :
    Proc.ReadOnly (envelopes.forM fun envelope => (do
      let _ ← validateEnvelope envelope
      assertNotReviewMail envelope "mail resolve" : StoreProc PUnit)) := by
  refine Proc.ReadOnly.forM (fun sent s => ?_) _
  exact Proc.exec_liftM_bind (R := fun s s' => s' = s) rfl fun _ _ => rfl

theorem mailStore_resolve_atomic (delivery : Delivery) (held : DeliveredMail)
    (envelope : MailEnvelope) (relays : List MailEnvelope) :
    Proc.Atomic (MailStore.resolve delivery held envelope relays) := by
  exact (readOnly_resolutionChecks _).atomic_bind
    fun _ => resolve_atomic delivery held envelope relays

/-- A resolution of a chain that fails leaves no trace. -/
theorem resolveEscalation_atomic (delivery : Delivery) (held : DeliveredMail)
    (resolution : EscalationResolution) :
    Proc.Atomic (resolveEscalation delivery held resolution) := by
  refine Proc.ReadOnly.atomic_bind (fun _ => rfl) fun t => ?_
  refine Proc.ReadOnly.atomic_bind (Proc.readOnly_liftM _) fun currentHeld => ?_
  refine Proc.ReadOnly.atomic_bind (Proc.readOnly_liftM _) fun _ => ?_
  refine Proc.ReadOnly.atomic_bind (Proc.readOnly_liftM _) fun _ => ?_
  refine Proc.ReadOnly.atomic_bind (Proc.readOnly_liftM _) fun sources => ?_
  refine Proc.ReadOnly.atomic_bind (Proc.readOnly_liftM _) fun _ => ?_
  exact mailStore_resolve_atomic delivery currentHeld _ _

/-- A resolution that succeeds answers the held escalation and each of its sources. -/
theorem resolveEscalation_resolves {delivery : Delivery} {held response : DeliveredMail}
    {resolution : EscalationResolution} {db db' : Db} (hdb : Consistent db)
    (h : resolveEscalation delivery held resolution db = (.ok response, db')) :
    ∃ item ∈ db.mail.inbox, item.seq = held.seq ∧ item.type = .escalation ∧
      ∃ sources, forwardedSources db.mail item = .ok sources ∧
        Resolves held.seq (responseEnvelope resolution item ::
          sources.map (relayEnvelope resolution)) db.mail db'.mail := by
  obtain ⟨t, hread, h⟩ := Proc.ReadOnly.bind_eq_ok (fun _ => rfl) h
  obtain rfl : db.mail = t := Except.ok.inj (Prod.mk.inj hread).1
  obtain ⟨item, hitem, h⟩ := Proc.liftM_bind_eq_ok.1 h
  obtain ⟨_, hkind, h⟩ := Proc.liftM_bind_eq_ok.1 h
  obtain ⟨-, -, h⟩ := Proc.liftM_bind_eq_ok.1 h
  obtain ⟨sources, hsources, h⟩ := Proc.liftM_bind_eq_ok.1 h
  obtain ⟨-, -, h⟩ := Proc.liftM_bind_eq_ok.1 h
  obtain ⟨-, -, h⟩ := (readOnly_resolutionChecks _).bind_eq_ok h
  have hfind := orThrow_eq_ok.1 hitem
  have hseq : item.seq = held.seq := by simpa using List.find?_some hfind
  have hmem : item ∈ db.mail.inbox := (List.mem_filter.1 (List.mem_of_find?_eq_some hfind)).1
  have htype : item.type = .escalation := by
    by_contra hne
    exact (refuse_eq_ok.1 hkind) (.inl hne)
  refine ⟨item, hmem, hseq, htype, sources, hsources, ?_⟩
  rw [← hseq]
  exact resolve_resolves hdb h

section

variable {ι : Type} {handles : ι → Delivery} {calls : List (ι × MailCall)} {clock : ℕ → ℕ}

/-- What answers a clarification is no reason to wait for it any longer. -/
theorem not_waiting_of_stands {t : MailTables} {resolution : EscalationResolution}
    {root item : DeliveredMail} (hstands : Stands t (relayEnvelope resolution root))
    (hfixed : item.fixed = root.fixed) : item ∉ waitingItems t root.sender := by
  intro hwaits
  simp only [waitingItems, List.mem_filter, Bool.and_eq_true, beq_iff_eq, Bool.not_eq_true',
    List.any_eq_false] at hwaits
  obtain ⟨-, ⟨htype, -⟩, hnone⟩ := hwaits
  obtain ⟨row, hrow, hvisible, hto, hfrom, hrowType, hcause, hthread⟩ := hstands
  simp only [DeliveredMail.fixed, DeliveredMail.mk.injEq] at hfixed
  obtain ⟨hseq, hrecipient, hsender, hitemType, -, -, hcorrelation, -⟩ := hfixed
  refine hnone row (List.mem_filter.2 ⟨hrow, ?_⟩) ?_
  · simp [hto, relayEnvelope, hvisible]
  · have hrootType : root.type = .clarifyRequest := hitemType.symm.trans htype
    simp [hrowType, hfrom, hto, hcause, hthread, relayEnvelope, hrootType, hrecipient, hsender, hseq,
      DeliveredMail.threadId, hcorrelation]

/-- In every reachable state: a resolution of a chain that succeeds discharges the resolved
escalation and every item below it, and the asker of a root of the chain waits for it no longer;
a resolution that fails changes neither the log nor any projection. -/
theorem resolution_discharges_chain {db : Db} (hdb : mailRun handles calls { clock } = db)
    (delivery : Delivery) (held : DeliveredMail) (resolution : EscalationResolution) :
    (∀ response, (resolveEscalation delivery held resolution db).1 = .ok response →
      (∀ item ∈ db.mail.inbox, ReflTransGen (GoesUp db.mail) item.seq held.seq →
        ∃ item' ∈ ((resolveEscalation delivery held resolution).exec db).mail.inbox,
          item'.seq = item.seq ∧ item'.resolved = true) ∧
      (∀ root ∈ db.mail.inbox, ReflTransGen (GoesUp db.mail) root.seq held.seq →
        ∀ item ∈ waitingItems ((resolveEscalation delivery held resolution).exec db).mail
          root.sender, item.seq ≠ root.seq)) ∧
    (∀ e, (resolveEscalation delivery held resolution db).1 = .error e →
      (resolveEscalation delivery held resolution).exec db = db) := by
  have hlinked : LinkedInbox db.mail := hdb ▸ mailRun_linked
  have hconsistent : Consistent db := hdb ▸ mailRun_consistent (.empty clock)
  refine ⟨fun response hresponse => ?_, fun e herror => ?_⟩
  · obtain ⟨tip, htip, hseq, htype, sources, hsources, hresolves⟩ :=
      resolveEscalation_resolves hconsistent (Prod.ext hresponse rfl)
    obtain ⟨below, hbelow, hitems⟩ := hlinked.forwardedSources htip
    obtain rfl : below = sources := Except.ok.inj (hbelow.symm.trans hsources)
    change Resolves _ _ _ ((resolveEscalation delivery held resolution).exec db).mail at hresolves
    refine ⟨fun item hitem hchain => ?_, fun root hroot hchain item hwaits hsame => ?_⟩
    · rcases hchain.cases_head with heq | ⟨b, hup, -⟩
      · obtain ⟨held', hheld', hheldSeq, hheldResolved⟩ := hresolves.held
        exact ⟨held', hheld', hheldSeq.trans heq.symm, hheldResolved⟩
      · have hresolved := hlinked.resolved_of_isHeld hitem (isHeld_iff_goesUp.2 ⟨b, hup⟩)
        obtain ⟨item', hitem', hfixed, -, hkept⟩ := hresolves.keeps item hitem
        exact ⟨item', hitem', seq_of_fixed hfixed, hkept hresolved⟩
    · obtain ⟨root', hroot', hfixed, -⟩ := hresolves.keeps root hroot
      have hitem := (List.mem_filter.1 (List.mem_filter.1 hwaits).1).1
      obtain rfl : item = root' :=
        DeliveredMail.eq_of_seq_eq hitem hroot' (hsame.trans (seq_of_fixed hfixed).symm)
      rcases hchain.cases_head with heq | ⟨b, hup, hrest⟩
      · -- the resolved item itself is an escalation, which nobody waits for
        obtain rfl := DeliveredMail.eq_of_seq_eq hroot htip (heq.trans hseq.symm)
        have hclarify := (List.mem_filter.1 hwaits).2
        simp only [Bool.and_eq_true, beq_iff_eq] at hclarify
        rw [type_of_fixed hfixed, htype] at hclarify
        exact absurd hclarify.1.1 (by decide)
      · have hbelow : root ∈ below := (hitems root).2 ⟨hroot, hseq ▸ .head' hup hrest⟩
        have hrelay := hresolves.stands _
          (List.mem_cons_of_mem _ (List.mem_map_of_mem (f := relayEnvelope resolution) hbelow))
        exact not_waiting_of_stands hrelay hfixed hwaits
  · exact resolveEscalation_atomic delivery held resolution db e _ (Prod.ext herror rfl)

end

/-- The lead's answer to the question that was passed on. -/
def answer : EscalationResolution where
  subject := "re: scope"
  body := "the parser"

theorem resolution_discharges_chain_of_passingOn :
    ∃ response,
      (resolveEscalation .live (deliveredRow questionPassedOn 2 0) answer (passedOn .live)).1 =
        .ok response ∧
      ∀ root ∈ (passedOn .live).mail.inbox,
        ReflTransGen (GoesUp (passedOn .live).mail) root.seq 2 →
        ∀ item ∈ waitingItems ((resolveEscalation .live (deliveredRow questionPassedOn 2 0)
          answer).exec (passedOn .live)).mail root.sender, item.seq ≠ root.seq := by
  have hok : (resolveEscalation .live (deliveredRow questionPassedOn 2 0) answer
      (passedOn .live)).1.toOption.isSome = true := by
    decide +kernel
  obtain ⟨response, hresponse⟩ := exists_eq_ok hok
  have hdb : mailRun (fun _ => .live) passingOn { clock := fun _ => 0 } = passedOn .live := rfl
  have hdischarges := (resolution_discharges_chain hdb .live (deliveredRow questionPassedOn 2 0)
    answer).1 response hresponse
  exact ⟨response, hresponse, hdischarges.2⟩

end Orchestration.Mail
