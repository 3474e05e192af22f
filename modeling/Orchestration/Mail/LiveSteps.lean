import Orchestration.Mail.LiveQueue

/-!
# What a live delivery does, one thing at a time

Every operation commits what it stores and then does a number of small things
to the chains and to what is remembered of the effects. An invariant is checked
against each of these once.
-/

namespace Orchestration.Mail

open Fallible Transaction

/-- One thing done after the commit. `H` says which mail may be enqueued, and in which state. -/
inductive Acts (H : Live → DeliveredMail → Prop) (s : Live) : Live → Prop where
  | loaded {mail : DeliveredMail} (hnone : s.liveEffects mail.seq = none) :
      Acts H s (s.setEffect mail.seq (Live.loadedEffect s.db.mail mail))
  | woken {recorded : Bool} {seq : ℕ} {s' : Live}
      (hpersist : s.persistEffect recorded { seq, wakeSucceeded := true } = some s') : Acts H s s'
  | unwoken {seq : ℕ} :
      Acts H s (s.changeEffect seq fun state => { state with wakeSucceeded := false })
  | chained {mail : DeliveredMail} {state : LiveEffect} (hH : H s mail)
      (hinjectable : isInjectableActionable mail = true)
      (hstate : s.liveEffects mail.seq = some state) (hsucceeded : state.injectSucceeded = false)
      (hqueued : state.injectQueued = false) : Acts H s (s.chain mail)
  | started {recipient : String} {mail : DeliveredMail} {waiting : List DeliveredMail}
      (hqueue : s.queue recipient = ⟨none, mail :: waiting⟩) :
      Acts H s ((s.setQueue recipient (some ⟨some mail, waiting⟩)).mark
        (.started mail (selectMailBySeq s.db.mail mail.seq)))
  | returned {recipient : String} {mail : DeliveredMail} {waiting : List DeliveredMail}
      (hqueue : s.queue recipient = ⟨some mail, waiting⟩) :
      Acts H s (s.changeEffect mail.seq fun state => { state with injectQueued := false })
  | injected {recipient : String} {mail : DeliveredMail} {waiting : List DeliveredMail}
      {recorded : Bool} {s' : Live} (hqueue : s.queue recipient = ⟨some mail, waiting⟩)
      (hpersist : ((s.setQueue recipient (some ⟨none, waiting⟩)).mark (.settled mail)).persistEffect
        recorded { seq := mail.seq, injectSucceeded := true } = some s') :
      Acts H s ((s'.mark (.recorded mail.seq)).changeEffect mail.seq fun state =>
        { state with injectQueued := false })
  | failed {recipient : String} {mail : DeliveredMail} {waiting : List DeliveredMail}
      (hqueue : s.queue recipient = ⟨some mail, waiting⟩) :
      Acts H s (((s.setQueue recipient (some ⟨none, waiting⟩)).mark (.settled mail)).changeEffect
        mail.seq fun state => { state with injectSucceeded := false, injectQueued := false })
  | cleaned {recipient : String} (hqueue : s.queue recipient = {}) :
      Acts H s (s.setQueue recipient none)

abbrev ActsOn (H : Live → DeliveredMail → Prop) : Live → Live → Prop :=
  Relation.ReflTransGen (Acts H)

namespace Live

variable {H : Live → DeliveredMail → Prop} {s : Live} {seams : ℕ → Seams} {mail : DeliveredMail}

/-- An acknowledgement that went through is in the log and remembered. -/
theorem persistEffect_eq_some {recorded : Bool} {effect : MailLiveEffect} {s' : Live}
    (h : s.persistEffect recorded effect = some s') :
    ∃ db wake, Emits AnyEvent s.db db ∧ db.mail.inbox = s.db.mail.inbox ∧
      (∀ seq, Injected db.mail seq =
        (Injected s.db.mail seq || (effect.injectSucceeded && seq == effect.seq))) ∧
      s' = { s with db }.changeEffect effect.seq fun state =>
        { state with wakeSucceeded := wake, injectSucceeded := Injected db.mail effect.seq } := by
  unfold persistEffect at h
  cases recorded with
  | false => simp at h
  | true =>
    simp only [Bool.not_true, Bool.false_eq_true, if_false] at h
    split at h
    · cases h
    · next row db htransaction =>
      obtain ⟨hemits, hinbox, hrow, hinjected⟩ := persistEffect_spec (transaction_eq_ok.1 htransaction)
      refine ⟨db, row.wakeSucceeded, hemits, hinbox, hinjected, ?_⟩
      have hsame : row.injectSucceeded = Injected db.mail effect.seq := by
        rw [hrow, hinjected]
        simp [acknowledged, Bool.or_comm]
      rw [← hsame]
      exact (Option.some.inj h).symm

theorem settle_acts (recipient : String) (succeeded recorded : Bool) :
    ActsOn H s (s.settle recipient succeeded recorded) := by
  unfold settle
  split
  · next mail waiting hchain =>
    have hqueue := queue_eq hchain
    refine .single ?_
    dsimp only
    split
    · next s' hpersisted =>
      cases succeeded with
      | true => exact .injected hqueue hpersisted
      | false => cases hpersisted
    · exact .failed hqueue
  · exact .refl

theorem startNext_acts (recipient : String) : ActsOn H s (s.startNext seams recipient) := by
  unfold startNext
  split
  · next mail waiting hchain =>
    refine .head (.started (queue_eq hchain)) ?_
    dsimp only
    split
    · refine .single (@Acts.returned H _ recipient mail waiting ?_)
      rw [queue_mark, queue_setQueue, if_pos rfl]
      rfl
    · exact settle_acts _ _ _
    · exact settle_acts _ _ _
  · exact .refl

theorem effectState_acts (mail : DeliveredMail) : ActsOn H s (s.effectState mail).2 := by
  unfold effectState
  split
  · exact .refl
  · next hnone => exact .single (.loaded hnone)

/-- What is read of the effects is what is remembered from then on. -/
theorem effectState_remembered : (s.effectState mail).2.liveEffects mail.seq =
    some (s.effectState mail).1 := by
  unfold effectState
  split
  · next hstate => exact hstate
  · simp [liveEffects_setEffect]

@[simp] theorem injectQueues_effectState : (s.effectState mail).2.injectQueues = s.injectQueues := by
  unfold effectState
  split <;> rfl

@[simp] theorem db_effectState : (s.effectState mail).2.db = s.db := by
  unfold effectState
  split <;> rfl

theorem injectQueues_persistEffect {recorded : Bool} {effect : MailLiveEffect} {s' : Live}
    (h : s.persistEffect recorded effect = some s') : s'.injectQueues = s.injectQueues := by
  obtain ⟨db, wake, -, -, -, rfl⟩ := persistEffect_eq_some h
  rfl

theorem maybeInject_acts (hH : ∀ s' : Live, s'.injectQueues = s.injectQueues → H s' mail) :
    ActsOn H s (s.maybeInject seams mail) := by
  unfold maybeInject
  refine Relation.ReflTransGen.trans (effectState_acts mail) ?_
  dsimp only
  split
  · next hinject =>
    simp only [Bool.and_eq_true, Bool.not_eq_true'] at hinject
    obtain ⟨⟨hinjectable, hsucceeded⟩, hqueued⟩ := hinject
    have hchained : Acts H (s.effectState mail).2 ((s.effectState mail).2.chain mail) :=
      .chained (hH _ injectQueues_effectState) hinjectable effectState_remembered hsucceeded hqueued
    unfold enqueueInject
    split
    · exact .head hchained (startNext_acts _)
    · exact .single hchained
  · exact .refl

theorem wakeAndMaybeInject_acts (hH : ∀ s' : Live, s'.injectQueues = s.injectQueues → H s' mail) :
    ActsOn H s (s.wakeAndMaybeInject seams mail) := by
  unfold wakeAndMaybeInject
  refine Relation.ReflTransGen.trans (effectState_acts mail) ?_
  dsimp only
  split
  · exact maybeInject_acts fun s' hs' => hH s' (hs'.trans injectQueues_effectState)
  · split
    · next s' hpersisted =>
      split at hpersisted
      · refine .head (.woken hpersisted) (maybeInject_acts fun s'' hs'' => hH s'' ?_)
        rw [hs'', injectQueues_persistEffect hpersisted, injectQueues_effectState]
      · cases hpersisted
    · exact .single .unwoken

theorem shouldRetryLiveEffects_acts (mail : DeliveredMail) :
    ActsOn H s (s.shouldRetryLiveEffects mail).2 := by
  unfold shouldRetryLiveEffects
  dsimp only
  split <;> exact effectState_acts mail

@[simp] theorem injectQueues_shouldRetryLiveEffects :
    (s.shouldRetryLiveEffects mail).2.injectQueues = s.injectQueues := by
  unfold shouldRetryLiveEffects
  dsimp only
  split <;> exact injectQueues_effectState

theorem advance_acts (recipient : String) : ActsOn H s (s.advance recipient seams) := by
  unfold advance
  split
  · next hchain => exact .single (.cleaned (queue_eq hchain))
  · exact startNext_acts recipient

end Live

/-! ## What one of these does to the state -/

section

variable {H : Live → DeliveredMail → Prop} {s s' : Live}

/-- The inbox stays as it was committed. -/
theorem Acts.stored (h : Acts H s s') :
    Emits AnyEvent s.db s'.db ∧ s'.db.mail.inbox = s.db.mail.inbox := by
  cases h with
  | woken hpersist =>
    obtain ⟨db, wake, hemits, hinbox, -, rfl⟩ := Live.persistEffect_eq_some hpersist
    exact ⟨hemits, hinbox⟩
  | injected _ hpersist =>
    obtain ⟨db, wake, hemits, hinbox, -, rfl⟩ := Live.persistEffect_eq_some hpersist
    exact ⟨hemits, hinbox⟩
  | _ => exact ⟨.refl, rfl⟩

theorem Live.queue_persistEffect {recorded : Bool} {effect : MailLiveEffect}
    (h : s.persistEffect recorded effect = some s') (recipient : String) :
    s'.queue recipient = s.queue recipient := by
  rw [queue, queue, injectQueues_persistEffect h]

theorem Live.trace_persistEffect {recorded : Bool} {effect : MailLiveEffect}
    (h : s.persistEffect recorded effect = some s') : s'.trace = s.trace := by
  obtain ⟨db, wake, -, -, -, rfl⟩ := persistEffect_eq_some h
  rfl

theorem Live.queue_chain {mail : DeliveredMail} {recipient : String} :
    (s.chain mail).queue recipient =
      if recipient = mail.recipient then (s.queue mail.recipient).enqueue mail
      else s.queue recipient := by
  rw [chain, queue_mark, queue_setQueue, Option.getD_some, queue_changeEffect]

/-- What waits behind another injection waited before, or was enqueued just now. -/
theorem Acts.waiting (h : Acts H s s') {recipient : String} {mail : DeliveredMail}
    (hmail : mail ∈ (s'.queue recipient).waiting) : mail ∈ (s.queue recipient).waiting ∨
      H s mail ∧ isInjectableActionable mail = true ∧ recipient = mail.recipient := by
  cases h with
  | loaded => exact .inl hmail
  | woken hpersist => exact .inl (Live.queue_persistEffect hpersist recipient ▸ hmail)
  | unwoken => exact .inl hmail
  | @chained enqueued _ hH hinjectable =>
    rw [Live.queue_chain] at hmail
    split at hmail
    · next hto =>
      subst hto
      rcases List.mem_append.1 hmail with hmail | hmail
      · exact .inl hmail
      · obtain rfl := List.mem_singleton.1 hmail
        exact .inr ⟨hH, hinjectable, rfl⟩
    · exact .inl hmail
  | started hqueue =>
    rw [Live.queue_mark, Live.queue_setQueue] at hmail
    split at hmail
    · next hto =>
      subst hto
      rw [hqueue]
      exact .inl (List.mem_cons_of_mem _ hmail)
    · exact .inl hmail
  | returned => exact .inl hmail
  | injected hqueue hpersist =>
    rw [Live.queue_changeEffect, Live.queue_mark, Live.queue_persistEffect hpersist, Live.queue_mark,
      Live.queue_setQueue] at hmail
    split at hmail
    · next hto =>
      subst hto
      rw [hqueue]
      exact .inl hmail
    · exact .inl hmail
  | failed hqueue =>
    rw [Live.queue_changeEffect, Live.queue_mark, Live.queue_setQueue] at hmail
    split at hmail
    · next hto =>
      subst hto
      rw [hqueue]
      exact .inl hmail
    · exact .inl hmail
  | cleaned hqueue =>
    rw [Live.queue_setQueue] at hmail
    split at hmail
    · cases hmail
    · exact .inl hmail

/-- What runs ran before, or waited. -/
theorem Acts.running (h : Acts H s s') {recipient : String} {mail : DeliveredMail}
    (hmail : (s'.queue recipient).running = some mail) :
    mail ∈ (s.queue recipient).tasks := by
  have hrunning : (s.queue recipient).running = some mail → mail ∈ (s.queue recipient).tasks :=
    fun hsome => List.mem_append_left _ (by simp [hsome])
  cases h with
  | loaded => exact hrunning hmail
  | woken hpersist => exact hrunning (Live.queue_persistEffect hpersist recipient ▸ hmail)
  | unwoken => exact hrunning hmail
  | chained =>
    rw [Live.queue_chain] at hmail
    split at hmail
    · next hto =>
      subst hto
      exact hrunning hmail
    · exact hrunning hmail
  | started hqueue =>
    rw [Live.queue_mark, Live.queue_setQueue] at hmail
    split at hmail
    · next hto =>
      subst hto
      rw [hqueue]
      obtain rfl := Option.some.inj hmail
      exact List.mem_cons_self
    · exact hrunning hmail
  | returned => exact hrunning hmail
  | injected hqueue hpersist =>
    rw [Live.queue_changeEffect, Live.queue_mark, Live.queue_persistEffect hpersist, Live.queue_mark,
      Live.queue_setQueue] at hmail
    split at hmail
    · cases hmail
    · exact hrunning hmail
  | failed hqueue =>
    rw [Live.queue_changeEffect, Live.queue_mark, Live.queue_setQueue] at hmail
    split at hmail
    · cases hmail
    · exact hrunning hmail
  | cleaned hqueue =>
    rw [Live.queue_setQueue] at hmail
    split at hmail
    · cases hmail
    · exact hrunning hmail

/-- What a chain holds it held before, or was enqueued just now. -/
theorem Acts.tasks (h : Acts H s s') {recipient : String} {mail : DeliveredMail}
    (hmail : mail ∈ (s'.queue recipient).tasks) : mail ∈ (s.queue recipient).tasks ∨
      H s mail ∧ isInjectableActionable mail = true ∧ recipient = mail.recipient := by
  rcases List.mem_append.1 hmail with hrunning | hwaiting
  · exact .inl (h.running (Option.mem_toList.1 hrunning))
  · exact (h.waiting hwaiting).imp_left (List.mem_append_right _)

/-- An injection that started waited, and is noted with its row. -/
theorem Acts.started_of_mem (h : Acts H s s') {mail : DeliveredMail}
    {current : Option DeliveredMail} (hstarted : .started mail current ∈ s'.trace) :
    .started mail current ∈ s.trace ∨
      current = selectMailBySeq s.db.mail mail.seq ∧
        ∃ recipient, mail ∈ (s.queue recipient).waiting := by
  cases h with
  | woken hpersist => exact .inl (Live.trace_persistEffect hpersist ▸ hstarted)
  | @started recipient _ _ hqueue =>
    rcases List.mem_append.1 hstarted with hstarted | hstarted
    · exact .inl hstarted
    · cases List.mem_singleton.1 hstarted
      refine .inr ⟨rfl, recipient, ?_⟩
      rw [hqueue]
      exact List.mem_cons_self
  | injected _ hpersist =>
    rw [Live.trace_changeEffect, Live.trace_mark, Live.trace_persistEffect hpersist] at hstarted
    rcases List.mem_append.1 hstarted with hstarted | hstarted
    · exact .inl (by simpa using hstarted)
    · cases List.mem_singleton.1 hstarted
  | _ => exact .inl (by simpa [Live.chain] using hstarted)

/-- What each of these preserves, the rest of an operation preserves. -/
theorem ActsOn.preserves {Inv : Live → Prop} (h : ActsOn H s s')
    (hact : ∀ s₁ s₂, s₁.db.mail.inbox = s.db.mail.inbox → Inv s₁ → Acts H s₁ s₂ → Inv s₂)
    (hs : Inv s) : Inv s' ∧ s'.db.mail.inbox = s.db.mail.inbox := by
  induction h with
  | refl => exact ⟨hs, rfl⟩
  | tail _ hlast ih =>
    obtain ⟨hinv, hinbox⟩ := ih
    exact ⟨hact _ _ hinbox hinv hlast, hlast.stored.2.trans hinbox⟩

end

/-! ## Operations -/

namespace LiveOp

/-- What the host does about the mails of an operation. -/
def seams : LiveOp → ℕ → Seams
  | deliver _ seams | forward _ _ seams | resolve _ _ _ seams | advance _ seams => seams
  | _ => fun _ => {}

/-- The database after the commit of an operation. -/
def stored (db : Db) : LiveOp → Db
  | deliver envelope _ => (transaction (InProcessDelivery.deliverWithStatus envelope)).exec db
  | forward held envelope _ => (LiveDelivery.forwardOrRecover held envelope).exec db
  | resolve held envelope relays _ => (LiveDelivery.resolveOrRecover held envelope relays).exec db
  | store call _ => call.exec .live db
  | _ => db

/-- The mails that an operation hands over after its commit, new ones and ones it found. -/
def handed (db : Db) : LiveOp → List DeliveredMail
  | deliver envelope _ =>
    match (transaction (InProcessDelivery.deliverWithStatus envelope) db).1 with
    | .ok result => [result.mail]
    | .error _ => []
  | forward held envelope _ =>
    match (LiveDelivery.forwardOrRecover held envelope db).1 with
    | .ok delivered => [delivered]
    | .error _ => []
  | resolve held envelope relays _ =>
    match (LiveDelivery.resolveOrRecover held envelope relays db).1 with
    | .ok (response, relayRows) => response :: relayRows
    | .error _ => []
  | _ => []

/-- Whether the delivery is replaced by a fresh one. -/
def restarts : LiveOp → Bool
  | restart => true
  | _ => false

end LiveOp

/-- Hand over one mail. -/
def handOver (seams : ℕ → Seams) (mail : DeliveredMail) (s : Live) : Live :=
  s.wakeAndMaybeInject seams mail

theorem handOver_acts {H : Live → DeliveredMail → Prop} {seams : ℕ → Seams}
    {mails : List DeliveredMail} {s : Live}
    (hH : Run.Guarded (handOver seams)
      (fun mail s => ∀ s' : Live, s'.injectQueues = s.injectQueues → H s' mail) mails s) :
    ActsOn H s (Run.after (handOver seams) mails s) := by
  induction mails generalizing s with
  | nil => exact .refl
  | cons mail mails ih => exact (Live.wakeAndMaybeInject_acts hH.1).trans (ih hH.2)

/-- An operation commits what it stores and acts on the mails it hands over. -/
theorem liveStep_acts {H : Live → DeliveredMail → Prop} {op : LiveOp} {s : Live}
    (hop : op.restarts = false)
    (hH : Run.Guarded (handOver op.seams)
      (fun mail s => ∀ s' : Live, s'.injectQueues = s.injectQueues → H s' mail) (op.handed s.db)
      { s with db := op.stored s.db }) :
    ActsOn H { s with db := op.stored s.db } (liveStep op s) := by
  cases op with
  | deliver envelope seams =>
    simp only [LiveOp.handed, LiveOp.stored, Proc.exec] at hH ⊢
    simp only [liveStep, Live.deliver]
    rcases hrun : transaction (InProcessDelivery.deliverWithStatus envelope) s.db with
      ⟨error | result, db⟩
    · exact .refl
    · rw [hrun] at hH
      have hfound := hH.1
      dsimp only
      split
      · exact Live.wakeAndMaybeInject_acts hfound
      · refine Relation.ReflTransGen.trans (Live.shouldRetryLiveEffects_acts result.mail) ?_
        split
        · refine Live.wakeAndMaybeInject_acts fun s' hs' => hfound s' ?_
          rw [hs', Live.injectQueues_shouldRetryLiveEffects]
        · exact .refl
  | forward held envelope seams =>
    simp only [LiveOp.handed, LiveOp.stored, Proc.exec] at hH ⊢
    simp only [liveStep, Live.forward]
    rcases hrun : LiveDelivery.forwardOrRecover held envelope s.db with ⟨error | delivered, db⟩
    · exact .refl
    · rw [hrun] at hH
      exact Live.wakeAndMaybeInject_acts hH.1
  | resolve held envelope relays seams =>
    simp only [LiveOp.handed, LiveOp.stored, Proc.exec] at hH ⊢
    simp only [liveStep, Live.resolve]
    rcases hrun : LiveDelivery.resolveOrRecover held envelope relays s.db with
      ⟨error | ⟨response, relayRows⟩, db⟩
    · exact .refl
    · rw [hrun] at hH
      exact handOver_acts hH
  | store call hcall => exact .refl
  | settle recipient succeeded recorded => exact Live.settle_acts recipient succeeded recorded
  | advance recipient seams => exact Live.advance_acts recipient
  | restart => cases hop

/-- What an operation stores acknowledges nothing. -/
theorem stored_unacknowledging {db : Db} (hdb : Consistent db) (op : LiveOp) :
    Emits (fun _ event => Unacknowledging event) db (op.stored db) := by
  have hwrites : ∀ {db' : Db}, Emits (Writes (fun _ => True) AnyEvent) db db' →
      Emits (fun _ event => Unacknowledging event) db db' :=
    fun h => h.mono fun _ _ hevent => hevent.2
  cases op with
  | deliver envelope seams =>
    refine Proc.exec_transaction .refl fun result db' h => hwrites ?_
    exact InProcessDelivery.deliverWithStatus_emits trivial h
  | forward held envelope seams =>
    rw [LiveOp.stored, forwardOrRecover_exec]
    refine Proc.exec_transaction .refl fun result db' h => hwrites ?_
    exact InProcessDelivery.forward_emits hdb (fun _ _ => trivial) h
  | resolve held envelope relays seams =>
    rw [LiveOp.stored, resolveOrRecover_exec]
    refine Proc.exec_transaction .refl fun result db' h => hwrites ?_
    exact InProcessDelivery.resolveWithRelays_emits hdb (fun _ _ => trivial) (fun _ _ => trivial) h
  | store call hcall => exact MailCall.exec_unacknowledging hdb hcall
  | _ => exact .refl

end Orchestration.Mail
