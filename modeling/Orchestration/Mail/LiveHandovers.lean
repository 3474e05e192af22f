import Orchestration.Mail.LiveSteps

/-!
# What is handed over

Every mail that an operation hands over is a row of the inbox after its commit,
and so, from then on, is every mail of a chain. A relay is read before the
relays behind it are stored, and is handed over as it was read.
-/

namespace Orchestration.Mail

open Fallible Transaction

/-- The mail is a row of the inbox, whatever became of its flags. -/
def IsRow (t : MailTables) (mail : DeliveredMail) : Prop :=
  ∃ row ∈ t.inbox, row.fixed = mail.fixed

/-- The mail is the row of the inbox as it is. -/
def IsCurrent (t : MailTables) (mail : DeliveredMail) : Prop :=
  selectMailBySeq t mail.seq = some mail

theorem IsCurrent.isRow {t : MailTables} {mail : DeliveredMail} (h : IsCurrent t mail) :
    IsRow t mail :=
  ⟨mail, (selectMailBySeq_eq_some.1 h).1, rfl⟩

theorem isCurrent_of_select {t : MailTables} {seq : ℕ} {mail : DeliveredMail}
    (h : selectMailBySeq t seq = some mail) : IsCurrent t mail := by
  obtain ⟨-, rfl⟩ := selectMailBySeq_eq_some.1 h
  exact h

theorem isCurrent_of_mem {t : MailTables} {mail : DeliveredMail} (h : mail ∈ t.inbox) :
    IsCurrent t mail :=
  selectMailBySeq_eq_some.2 ⟨h, rfl⟩

theorem isRow_of_commit {db db' : Db} {event : NewEvent Payload} (h : db.commit event = .ok db')
    {mail : DeliveredMail} (hmail : IsRow db.mail mail) : IsRow db'.mail mail := by
  obtain ⟨row, hrow, hfixed⟩ := hmail
  obtain ⟨row', hrow', hfixed'⟩ := row_persists h hrow
  exact ⟨row', hrow', hfixed'.trans hfixed⟩

theorem isRow_of_emits {P : EventClass} {db db' : Db} (h : Emits P db db') {mail : DeliveredMail}
    (hmail : IsRow db.mail mail) : IsRow db'.mail mail :=
  h.preserves (fun s => IsRow s.mail mail) (fun _ _ _ _ hs hcommit => isRow_of_commit hcommit hs)
    hmail

/-! ## Relays -/

/-- The rows that a batch of relays becomes, the first of them at `seq`. -/
def relayRows (clock : ℕ → ℕ) : ℕ → List MailEnvelope → List DeliveredMail
  | _, [] => []
  | seq, relay :: relays => deliveredRow relay seq (clock seq) :: relayRows clock (seq + 1) relays

theorem clock_of_commit {db db' : Db} {event : NewEvent Payload} (h : db.commit event = .ok db') :
    db'.clock = db.clock := by
  obtain ⟨-, t, -, rfl⟩ := commit_eq_ok.1 h
  rfl

namespace InProcessDelivery

theorem deliverRelay_eq_ok {relay : MailEnvelope} {row : DeliveredMail} {db db' : Db}
    (hdb : Consistent db) (h : deliverRelay relay db = .ok (row, db')) :
    row = nextRow db relay ∧ Added db.mail row db'.mail ∧ Consistent db' ∧
      db'.nextSeq = db.nextSeq + 1 ∧ db'.clock = db.clock := by
  obtain ⟨_, _, hmail, hrow⟩ := Tx.bind_eq_ok.1 h
  obtain ⟨e, he, rfl, hcommit⟩ := recordMail_eq_ok.1 hmail
  rw [reading_bind, Tx.liftM_eq_ok, orThrow_eq_ok] at hrow
  obtain ⟨hrow, rfl⟩ := hrow
  have hfresh := fresh_of_select hdb he hcommit (Option.isSome_iff_exists.2 ⟨row, hrow⟩)
  have hadded := added_of_fresh he hfresh hcommit
  have hselect := hadded.select
  obtain rfl : row = nextRow db relay := Option.some.inj (hrow.symm.trans hselect)
  exact ⟨rfl, hadded, hdb.commit hcommit, nextSeq_of_commit hcommit, clock_of_commit hcommit⟩

/-- A row that no relay answers stays as it is while the relays are stored. -/
theorem isCurrent_of_relays {relays : List MailEnvelope} {rows : List DeliveredMail} {db db' : Db}
    (hdb : Consistent db) (h : relays.mapM deliverRelay db = .ok (rows, db'))
    {mail : DeliveredMail} (hmail : IsCurrent db.mail mail)
    (hopen : ∀ row ∈ relayRows db.clock db.nextSeq relays, closes mail row = false) :
    IsCurrent db'.mail mail := by
  induction relays generalizing db rows with
  | nil =>
    rw [List.mapM_nil, Tx.pure_eq_ok] at h
    obtain ⟨-, rfl⟩ := h
    exact hmail
  | cons relay relays ih =>
    rw [List.mapM_cons] at h
    obtain ⟨row, mid, hrelay, h⟩ := Tx.bind_eq_ok.1 h
    obtain ⟨rows', last, hrest, h⟩ := Tx.bind_eq_ok.1 h
    obtain ⟨-, rfl⟩ := Tx.pure_eq_ok.1 h
    obtain ⟨rfl, hadded, hmid, hseq, hclock⟩ := deliverRelay_eq_ok hdb hrelay
    refine ih hmid hrest ?_ fun row hrow => hopen row (List.mem_cons_of_mem _ ?_)
    · refine isCurrent_of_mem ((hadded.mem mail).2 (.inr ⟨mail, (selectMailBySeq_eq_some.1 hmail).1, ?_⟩))
      have hnot : closes mail (nextRow db relay) = false := hopen _ List.mem_cons_self
      rw [answered, if_neg (by simp [hnot])]
    · rwa [hseq, hclock] at hrow

/-- The relays are handed over as they were stored, and each is still current unless a later one
answers it. -/
theorem relays_handed {relays : List MailEnvelope} {rows : List DeliveredMail} {db db' : Db}
    (hdb : Consistent db) (h : relays.mapM deliverRelay db = .ok (rows, db')) :
    rows = relayRows db.clock db.nextSeq relays ∧ ∀ before row after, rows = before ++ row :: after →
      IsRow db'.mail row ∧ ((∀ later ∈ after, closes row later = false) → IsCurrent db'.mail row) := by
  induction relays generalizing db rows with
  | nil =>
    rw [List.mapM_nil, Tx.pure_eq_ok] at h
    obtain ⟨rfl, -⟩ := h
    exact ⟨rfl, fun before row after hrows => by simp at hrows⟩
  | cons relay relays ih =>
    rw [List.mapM_cons] at h
    obtain ⟨row, mid, hrelay, h⟩ := Tx.bind_eq_ok.1 h
    obtain ⟨rest, last, hrest, h⟩ := Tx.bind_eq_ok.1 h
    obtain ⟨rfl, rfl⟩ := Tx.pure_eq_ok.1 h
    have hcurrent : IsCurrent mid.mail row := (deliverRelay_eq_ok hdb hrelay).2.1.select
    obtain ⟨rfl, -, hmid, hseq, hclock⟩ := deliverRelay_eq_ok hdb hrelay
    obtain ⟨rfl, hrows⟩ := ih hmid hrest
    rw [hseq, hclock] at hrows ⊢
    refine ⟨rfl, fun before row after hsplit => ?_⟩
    rcases List.cons_eq_append_iff.1 hsplit with ⟨rfl, htail⟩ | ⟨before', rfl, htail⟩
    · obtain ⟨rfl, rfl⟩ := List.cons.inj htail
      refine ⟨?_, fun hopen => isCurrent_of_relays hmid hrest hcurrent ?_⟩
      · have hdelivers := (deliverRelays_eq_ok hmid hrest).1
        have hemits : Emits (Writes (fun _ => True) AnyEvent) mid last :=
          hdelivers.emits fun _ _ => trivial
        exact isRow_of_emits hemits hcurrent.isRow
      · rwa [hseq, hclock]
    · exact hrows before' row after htail

theorem forward_handed {held delivered : DeliveredMail} {envelope : MailEnvelope} {db db' : Db}
    (h : forward held envelope db = .ok (delivered, db')) : IsCurrent db'.mail delivered := by
  simp only [forward, reading_bind, Tx.liftM_bind_eq_ok] at h
  obtain ⟨_, -, _, -, _, -, h⟩ := h
  obtain ⟨_, mid, -, h⟩ := Tx.bind_eq_ok.1 h
  obtain ⟨_, last, -, h⟩ := Tx.bind_eq_ok.1 h
  rw [reading_bind, Tx.liftM_eq_ok, orThrow_eq_ok] at h
  obtain ⟨hrow, rfl⟩ := h
  exact isCurrent_of_select hrow

theorem deliverWithStatus_handed {envelope : MailEnvelope} {db db' : Db} {result : DeliveryResult}
    (h : deliverWithStatus envelope db = .ok (result, db')) : IsCurrent db'.mail result.mail := by
  rcases deliverWithStatus_eq_ok h with ⟨rfl, old, hexisting, rfl⟩ | ⟨hfresh, rfl, e, he, hcommit⟩
  · exact isCurrent_of_mem (existingForKey_eq_some hexisting 0 0).1
  · exact (added_of_fresh he hfresh hcommit).select

/-- A response is read after its relays, and each relay before those behind it. -/
theorem resolveWithRelays_handed {held response : DeliveredMail} {envelope : MailEnvelope}
    {relays : List MailEnvelope} {rows : List DeliveredMail} {db db' : Db} (hdb : Consistent db)
    (h : resolveWithRelays held envelope relays db = .ok ((response, rows), db')) :
    IsCurrent db'.mail response ∧ rows = relayRows db.clock (db.nextSeq + 1) relays ∧
      ∀ before row after, rows = before ++ row :: after → IsRow db'.mail row ∧
        ((∀ later ∈ after, closes row later = false) → IsCurrent db'.mail row) := by
  simp only [resolveWithRelays, reading_bind, Tx.liftM_bind_eq_ok] at h
  obtain ⟨_, -, _, -, _, -, h⟩ := h
  obtain ⟨_, mid, hmail, h⟩ := Tx.bind_eq_ok.1 h
  obtain ⟨e, he, rfl, hcommit⟩ := recordMail_eq_ok.1 hmail
  obtain ⟨rows', last, hrelays, h⟩ := Tx.bind_eq_ok.1 h
  simp only [reading_bind, Tx.liftM_bind_eq_ok, orThrow_eq_ok, Tx.pure_eq_ok] at h
  obtain ⟨_, hresponse, hpair, rfl⟩ := h
  obtain ⟨rfl, rfl⟩ := Prod.mk.inj hpair
  obtain ⟨hrows, hhanded⟩ := relays_handed (hdb.commit hcommit) hrelays
  rw [nextSeq_of_commit hcommit, clock_of_commit hcommit] at hrows
  exact ⟨isCurrent_of_select hresponse, hrows, hhanded⟩

end InProcessDelivery

/-! ## What an operation hands over -/

theorem forwardOrRecover_handed {held delivered : DeliveredMail} {envelope : MailEnvelope}
    {db db' : Db} (h : LiveDelivery.forwardOrRecover held envelope db = (.ok delivered, db')) :
    IsCurrent db'.mail delivered := by
  rcases Proc.tryCatch_eq_ok.1 h with h | ⟨e, mid, -, h⟩
  · exact InProcessDelivery.forward_handed (transaction_eq_ok.1 h)
  · obtain ⟨found, mid', hfound, h⟩ := Proc.bind_eq_ok.1 h
    rw [transaction_eq_ok] at hfound
    obtain ⟨rfl, rfl⟩ := Prod.mk.inj (Except.ok.inj hfound)
    cases hrecovered : (forwardedMailForHeld mid.mail held.seq).filter
        (deliveredMatchesEnvelope · envelope) with
    | some recovered =>
      simp only [hrecovered] at h
      obtain ⟨hdelivered, rfl⟩ := Prod.mk.inj h
      obtain rfl := Except.ok.inj hdelivered
      obtain ⟨hfound, -⟩ := Option.filter_eq_some_iff.1 hrecovered
      obtain ⟨link, -, hselect⟩ := Option.bind_eq_some_iff.1 hfound
      exact isCurrent_of_select hselect
    | none => simp [hrecovered] at h

theorem isCurrent_of_matching {t : MailTables} {envelope : MailEnvelope} {mail : DeliveredMail}
    (h : selectMailMatchingEnvelope t envelope = some mail) : IsCurrent t mail :=
  isCurrent_of_mem (List.mem_filter.1 (List.mem_of_find?_eq_some h)).1

theorem mem_of_mapM_eq_some {α β : Type} {f : α → Option β} {as : List α} {bs : List β}
    (h : as.mapM f = some bs) {b : β} (hb : b ∈ bs) : ∃ a ∈ as, f a = some b := by
  induction as generalizing bs with
  | nil =>
    obtain rfl := Option.some.inj h
    cases hb
  | cons head as ih =>
    rw [List.mapM_cons] at h
    obtain ⟨first, hfirst, htail⟩ := Option.bind_eq_some_iff.1 h
    obtain ⟨rest, hrest, hbs⟩ := Option.bind_eq_some_iff.1 htail
    obtain rfl := Option.some.inj hbs
    rcases List.mem_cons.1 hb with rfl | hmem
    · exact ⟨head, List.mem_cons_self, hfirst⟩
    · obtain ⟨a, ha, hfa⟩ := ih hrest hmem
      exact ⟨a, List.mem_cons_of_mem _ ha, hfa⟩

theorem recoverResolution_handed {held response : DeliveredMail} {envelope : MailEnvelope}
    {relays : List MailEnvelope} {rows : List DeliveredMail} {db db' : Db}
    (h : LiveDelivery.recoverResolution held envelope relays db = .ok (some (response, rows), db')) :
    ∀ mail ∈ response :: rows, IsCurrent db'.mail mail := by
  obtain rfl := recoverResolution_eq_ok h
  simp only [LiveDelivery.recoverResolution, reading_bind] at h
  cases hheld : (selectMailBySeq db.mail held.seq).filter fun currentHeld =>
      currentHeld.recipient == held.recipient && currentHeld.type == .escalation &&
        currentHeld.kind == .actionable && currentHeld.resolved && !currentHeld.retracted with
  | none => simp [hheld] at h
  | some currentHeld =>
    simp only [hheld, Tx.liftM_bind_eq_ok] at h
    obtain ⟨-, -, h⟩ := h
    obtain ⟨hfound, -⟩ := Prod.mk.inj (Except.ok.inj h)
    obtain ⟨found, hresponse, hfound⟩ := Option.bind_eq_some_iff.1 hfound
    split at hfound
    · cases hfound
    · obtain ⟨recovered, hrecovered, hpair⟩ := Option.bind_eq_some_iff.1 hfound
      obtain ⟨rfl, rfl⟩ := Prod.mk.inj (Option.some.inj hpair)
      intro mail hmail
      rcases List.mem_cons.1 hmail with rfl | hmail
      · exact isCurrent_of_matching hresponse
      · obtain ⟨relay, -, hrelay⟩ := mem_of_mapM_eq_some hrecovered hmail
        exact isCurrent_of_matching hrelay

/-- No relay of a resolution answers the one that is stored at `seq`. -/
def LiveOp.LeavesRelay (seq : ℕ) (db : Db) : LiveOp → Prop
  | resolve _ _ relays _ => (relayRows db.clock (db.nextSeq + 1) relays).Pairwise fun row later =>
      row.seq = seq → closes row later = false
  | _ => True

instance (seq : ℕ) (db : Db) : (op : LiveOp) → Decidable (op.LeavesRelay seq db)
  | .resolve _ _ relays _ => inferInstanceAs (Decidable
      ((relayRows db.clock (db.nextSeq + 1) relays).Pairwise fun row later =>
        row.seq = seq → closes row later = false))
  | .deliver _ _ | .forward _ _ _ | .store _ _ | .settle _ _ _ | .advance _ _ | .restart =>
    inferInstanceAs (Decidable True)

/-- What an operation hands over is a row of the inbox, and the one at `seq` is handed over as it
is unless a relay of the same resolution answered it. -/
theorem handed_spec {op : LiveOp} {db : Db} (hdb : Consistent db) {mail : DeliveredMail}
    (hmail : mail ∈ op.handed db) : IsRow (op.stored db).mail mail ∧
      (op.LeavesRelay mail.seq db → IsCurrent (op.stored db).mail mail) := by
  cases op with
  | deliver envelope seams =>
    simp only [LiveOp.handed, LiveOp.stored, Proc.exec] at hmail ⊢
    rcases hrun : transaction (InProcessDelivery.deliverWithStatus envelope) db with
      ⟨error | result, db'⟩
    · rw [hrun] at hmail
      cases hmail
    · rw [hrun] at hmail
      obtain rfl := List.mem_singleton.1 hmail
      have hcurrent := InProcessDelivery.deliverWithStatus_handed (transaction_eq_ok.1 hrun)
      exact ⟨hcurrent.isRow, fun _ => hcurrent⟩
  | forward held envelope seams =>
    simp only [LiveOp.handed, LiveOp.stored, Proc.exec] at hmail ⊢
    rcases hrun : LiveDelivery.forwardOrRecover held envelope db with ⟨error | delivered, db'⟩
    · rw [hrun] at hmail
      cases hmail
    · rw [hrun] at hmail
      obtain rfl := List.mem_singleton.1 hmail
      have hcurrent := forwardOrRecover_handed hrun
      exact ⟨hcurrent.isRow, fun _ => hcurrent⟩
  | resolve held envelope relays seams =>
    simp only [LiveOp.handed, LiveOp.stored, Proc.exec] at hmail ⊢
    rcases hrun : LiveDelivery.resolveOrRecover held envelope relays db with
      ⟨error | ⟨response, rows⟩, db'⟩
    · rw [hrun] at hmail
      cases hmail
    · rw [hrun] at hmail
      rcases Proc.tryCatch_eq_ok.1 hrun with hresolved | ⟨e, mid, hfailed, hrecovered⟩
      · obtain ⟨hresponse, hrows, hhanded⟩ :=
          InProcessDelivery.resolveWithRelays_handed hdb (transaction_eq_ok.1 hresolved)
        rcases List.mem_cons.1 hmail with rfl | hrow
        · exact ⟨hresponse.isRow, fun _ => hresponse⟩
        · obtain ⟨before, after, hsplit⟩ := List.append_of_mem hrow
          refine ⟨(hhanded before mail after hsplit).1, fun hleaves => ?_⟩
          rw [LiveOp.LeavesRelay, ← hrows, hsplit] at hleaves
          refine (hhanded before mail after hsplit).2 fun later hlater => ?_
          exact (List.pairwise_cons.1 (List.pairwise_append.1 hleaves).2.1).1 later hlater rfl
      · obtain rfl := transaction_error hfailed
        obtain ⟨found, mid', hfound, hrecovered⟩ := Proc.bind_eq_ok.1 hrecovered
        cases found with
        | none => cases hrecovered
        | some recovered =>
          obtain ⟨hpair, rfl⟩ := Prod.mk.inj hrecovered
          obtain rfl := Except.ok.inj hpair
          have hcurrent := recoverResolution_handed (transaction_eq_ok.1 hfound) mail hmail
          exact ⟨hcurrent.isRow, fun _ => hcurrent⟩
  | _ => cases hmail

/-- What the commit of an operation leaves intact and what each thing done after it preserves, the
operation preserves. -/
theorem liveStep_preserves {Inv : Live → Prop} {op : LiveOp} {s : Live} (hop : op.restarts = false)
    (hstored : Inv { s with db := op.stored s.db })
    (hact : ∀ s₁ s₂, s₁.db.mail.inbox = (op.stored s.db).mail.inbox → Inv s₁ →
      Acts (fun _ mail => mail ∈ op.handed s.db) s₁ s₂ → Inv s₂) : Inv (liveStep op s) := by
  refine (ActsOn.preserves (liveStep_acts hop ?_) hact hstored).1
  exact Run.guarded_of_always fun mail hmail _ _ _ => hmail

theorem IsRow.congr {t t' : MailTables} (h : t'.inbox = t.inbox) {mail : DeliveredMail} :
    IsRow t' mail ↔ IsRow t mail := by
  rw [IsRow, IsRow, h]

theorem select_congr {t t' : MailTables} (h : t'.inbox = t.inbox) (seq : ℕ) :
    selectMailBySeq t' seq = selectMailBySeq t seq := by
  rw [selectMailBySeq, selectMailBySeq, h]

/-! ## What the chains hold -/

/-- Every mail of a chain is a row of the inbox, and the chain is that of its recipient. -/
structure Housed (s : Live) : Prop where
  consistent : Consistent s.db
  rows : ∀ recipient, ∀ mail ∈ (s.queue recipient).tasks,
    mail.recipient = recipient ∧ IsRow s.db.mail mail

theorem housed_fresh {db : Db} (hdb : Consistent db) (trace : List LiveMark) :
    Housed { db, trace } :=
  ⟨hdb, fun _ _ hmail => absurd hmail List.not_mem_nil⟩

theorem Housed.act {s s₁ s₂ : Live} {op : LiveOp} (hs : Consistent s.db) (h : Housed s₁)
    (hinbox : s₁.db.mail.inbox = (op.stored s.db).mail.inbox)
    (hact : Acts (fun _ mail => mail ∈ op.handed s.db) s₁ s₂) : Housed s₂ := by
  obtain ⟨hemits, hsame⟩ := hact.stored
  refine ⟨h.consistent.emits hemits, fun recipient mail hmail => ?_⟩
  rw [IsRow.congr hsame]
  rcases hact.tasks hmail with hold | ⟨hhanded, -, rfl⟩
  · exact h.rows recipient mail hold
  · exact ⟨rfl, (IsRow.congr hinbox).2 (handed_spec hs hhanded).1⟩

theorem Housed.step {s : Live} (h : Housed s) (op : LiveOp) : Housed (liveStep op s) := by
  cases hop : op.restarts with
  | false =>
    refine liveStep_preserves hop ?_ fun s₁ s₂ hinbox hs₁ hact => hs₁.act h.consistent hinbox hact
    have hemits := stored_unacknowledging h.consistent op
    refine ⟨h.consistent.emits hemits, fun recipient mail hmail => ?_⟩
    obtain ⟨hto, hrow⟩ := h.rows recipient mail hmail
    exact ⟨hto, isRow_of_emits hemits hrow⟩
  | true =>
    cases op with
    | restart => exact housed_fresh h.consistent _
    | _ => cases hop

theorem liveRun_housed {ops : List LiveOp} {s : Live} (h : Housed s) : Housed (liveRun ops s) :=
  Run.always Housed (fun op _ hs => hs.step op) h

end Orchestration.Mail
