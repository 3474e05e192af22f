import Orchestration.Mail.LiveOrder

/-!
# Live delivery once

Once the log says that a mail was injected it is not injected again, as long as
no mail is handed over while its injection is under way. An injection that is
under way is remembered by nothing but its chain: the mail counts as queued no
longer, and as injected not yet.
-/

namespace Orchestration.Mail

open Serial

/-- The mail's injection was started and did not settle. -/
def Live.underWay (s : Live) (mail : DeliveredMail) : Bool :=
  (s.queue mail.recipient).running.any (·.seq == mail.seq)

/-- The operation hands over no mail to be injected whose injection is under way, and none
twice. -/
def HandsOnce (op : LiveOp) (s : Live) : Prop :=
  (∀ mail ∈ op.handed s.db, isInjectableActionable mail = true → s.underWay mail = false) ∧
    (((op.handed s.db).filter isInjectableActionable).map (·.seq)).Nodup

instance (op : LiveOp) (s : Live) : Decidable (HandsOnce op s) :=
  inferInstanceAs (Decidable (_ ∧ _))

/-- What is queued is remembered as queued, nothing in a chain was injected, and what was injected
is remembered as injected. -/
structure Once (s : Live) : Prop extends Housed s where
  queued : ∀ recipient, ∀ mail ∈ (s.queue recipient).waiting, ∃ state,
    s.liveEffects mail.seq = some state ∧ state.injectQueued = true
  unrecorded : ∀ recipient, ∀ mail ∈ (s.queue recipient).tasks,
    Injected s.db.mail mail.seq = false
  distinct : ∀ recipient, ((s.queue recipient).tasks.map (·.seq)).Nodup
  remembered : ∀ seq state, s.liveEffects seq = some state → Injected s.db.mail seq = true →
    state.injectSucceeded = true
  recorded : ∀ seq, Injected s.db.mail seq = true ↔ .recorded seq ∈ s.trace
  once : ∀ before mail current, before ++ [.started mail current] <+: s.trace →
    .recorded mail.seq ∉ before

theorem once_fresh (clock : ℕ → ℕ) : Once { db := { clock } } where
  toHoused := housed_fresh (.empty clock) []
  queued _ _ hmail := absurd hmail List.not_mem_nil
  unrecorded _ _ hmail := absurd hmail List.not_mem_nil
  distinct _ := List.nodup_nil
  remembered _ _ hstate := nomatch hstate
  recorded seq := by simp [Injected, selectLiveDeliveryEffect, Table.find?]
  once before mail current hbefore := by simpa using List.prefix_nil.1 hbefore

section

variable {H : Live → DeliveredMail → Prop} {s s' : Live}

/-- Two mails of one number are in the chain of one recipient. -/
theorem Housed.recipient_eq (h : Housed s) {a b : String} {mail mail' : DeliveredMail}
    (hmail : mail ∈ (s.queue a).tasks) (hmail' : mail' ∈ (s.queue b).tasks)
    (hseq : mail.seq = mail'.seq) : a = b := by
  obtain ⟨rfl, row, hrow, hfixed⟩ := h.rows a mail hmail
  obtain ⟨rfl, row', hrow', hfixed'⟩ := h.rows b mail' hmail'
  have hsame : row.seq = row'.seq := by
    rw [seq_of_fixed hfixed, seq_of_fixed hfixed', hseq]
  obtain rfl := DeliveredMail.eq_of_seq_eq hrow hrow' hsame
  exact recipient_of_fixed (hfixed.symm.trans hfixed')

/-- No other mail of any chain has the number of the one that runs. -/
theorem Once.ne_running (h : Once s) {recipient other : String} {mail task : DeliveredMail}
    {waiting : List DeliveredMail} (hqueue : s.queue recipient = ⟨some mail, waiting⟩)
    (htask : task ∈ (s.queue other).tasks) (hne : other = recipient → task ∈ waiting) :
    task.seq ≠ mail.seq := by
  intro hseq
  have hrunning : mail ∈ (s.queue recipient).tasks := by
    rw [hqueue]
    exact List.mem_cons_self
  have hwaiting := hne (h.recipient_eq htask hrunning hseq)
  have hdistinct := h.distinct recipient
  rw [hqueue] at hdistinct
  refine (List.nodup_cons.1 hdistinct).1 (List.mem_map.2 ⟨task, hwaiting, hseq⟩)

/-- Remembering what does not concern the chains. -/
theorem Once.remember (h : Once s) (hdb : s'.db = s.db)
    (hqueue : ∀ recipient, s'.queue recipient = s.queue recipient)
    (hqueued : ∀ recipient, ∀ mail ∈ (s.queue recipient).waiting, ∀ state,
      s.liveEffects mail.seq = some state → state.injectQueued = true →
        ∃ state', s'.liveEffects mail.seq = some state' ∧ state'.injectQueued = true)
    (hremembered : ∀ seq state, s'.liveEffects seq = some state → Injected s.db.mail seq = true →
      state.injectSucceeded = true)
    (htrace : s'.trace = s.trace) : Once s' where
  consistent := hdb ▸ h.consistent
  rows recipient mail hmail := by
    rw [hqueue] at hmail
    rw [hdb]
    exact h.rows recipient mail hmail
  queued recipient mail hmail := by
    rw [hqueue] at hmail
    obtain ⟨state, hstate, hflag⟩ := h.queued recipient mail hmail
    exact hqueued recipient mail hmail state hstate hflag
  unrecorded recipient mail hmail := by
    rw [hqueue] at hmail
    rw [hdb]
    exact h.unrecorded recipient mail hmail
  distinct recipient := by
    rw [hqueue]
    exact h.distinct recipient
  remembered seq state hstate hinjected := by
    rw [hdb] at hinjected
    exact hremembered seq state hstate hinjected
  recorded seq := by
    rw [hdb, htrace]
    exact h.recorded seq
  once := htrace ▸ h.once

theorem Once.load (h : Once s) {mail : DeliveredMail} (hnone : s.liveEffects mail.seq = none) :
    Once (s.setEffect mail.seq (Live.loadedEffect s.db.mail mail)) := by
  refine h.remember rfl (fun _ => rfl) ?_ ?_ rfl
  · intro recipient task htask state hstate hflag
    refine ⟨state, ?_, hflag⟩
    rw [Live.liveEffects_setEffect, if_neg, hstate]
    intro hseq
    rw [hseq, hnone] at hstate
    cases hstate
  · intro seq state hstate hinjected
    rw [Live.liveEffects_setEffect] at hstate
    split at hstate
    · next hseq =>
      subst hseq
      obtain rfl := Option.some.inj hstate
      rw [Injected] at hinjected
      simp [Live.loadedEffect, hinjected]
    · exact h.remembered seq state hstate hinjected

/-- A change of what is remembered that keeps the flags of what waits and of what was injected. -/
theorem Once.change (h : Once s) {seq : ℕ} {change : LiveEffect → LiveEffect}
    (hqueued : ∀ recipient, ∀ mail ∈ (s.queue recipient).waiting, mail.seq = seq →
      ∀ state, state.injectQueued = true → (change state).injectQueued = true)
    (hsucceeded : Injected s.db.mail seq = true → ∀ state, state.injectSucceeded = true →
      (change state).injectSucceeded = true) : Once (s.changeEffect seq change) := by
  refine h.remember rfl (fun _ => rfl) ?_ ?_ rfl
  · intro recipient mail hmail state hstate hflag
    rw [Live.liveEffects_changeEffect]
    split
    · next hseq => exact ⟨change state, by rw [hstate]; rfl, hqueued recipient mail hmail hseq state hflag⟩
    · exact ⟨state, hstate, hflag⟩
  · intro n state hstate hinjected
    rw [Live.liveEffects_changeEffect] at hstate
    split at hstate
    · next hseq =>
      subst hseq
      obtain ⟨old, hold, rfl⟩ := Option.map_eq_some_iff.1 hstate
      exact hsucceeded hinjected old (h.remembered n old hold hinjected)
    · exact h.remembered n state hstate hinjected

/-- An acknowledgement that went through, of a wake or of an injection that runs no longer. -/
theorem Once.acknowledge (h : Once s) {db : Db} {wake injected : Bool} {n : ℕ}
    {trace : List LiveMark} (hemits : Emits AnyEvent s.db db)
    (hinjected : ∀ seq, Injected db.mail seq = (Injected s.db.mail seq || (injected && seq == n)))
    (hgone : injected = true → ∀ recipient, ∀ mail ∈ (s.queue recipient).tasks, mail.seq ≠ n)
    (hrecorded : ∀ seq, .recorded seq ∈ trace ↔ .recorded seq ∈ s.trace ∨ injected = true ∧ seq = n)
    (honce : ∀ before mail current, before ++ [.started mail current] <+: trace →
      .recorded mail.seq ∉ before) :
    Once ({ s with db, trace }.changeEffect n fun state =>
      { state with wakeSucceeded := wake, injectSucceeded := Injected db.mail n }) where
  consistent := h.consistent.emits hemits
  rows recipient mail hmail := by
    obtain ⟨hto, hrow⟩ := h.rows recipient mail hmail
    exact ⟨hto, isRow_of_emits hemits hrow⟩
  queued recipient mail hmail := by
    obtain ⟨state, hstate, hflag⟩ := h.queued recipient mail hmail
    rw [Live.liveEffects_changeEffect]
    split
    · exact ⟨_, congrArg (Option.map _) hstate, hflag⟩
    · exact ⟨state, hstate, hflag⟩
  unrecorded recipient mail hmail := by
    have hfree := h.unrecorded recipient mail hmail
    change Injected db.mail mail.seq = false
    rw [hinjected, hfree]
    cases injected with
    | false => rfl
    | true => simpa using hgone rfl recipient mail hmail
  distinct := h.distinct
  remembered seq state hstate hsome := by
    change Injected db.mail seq = true at hsome
    rw [Live.liveEffects_changeEffect] at hstate
    split at hstate
    · next hseq =>
      subst hseq
      obtain ⟨old, -, rfl⟩ := Option.map_eq_some_iff.1 hstate
      exact hsome
    · next hne =>
      refine h.remembered seq state hstate ?_
      rw [hinjected] at hsome
      simpa [hne] using hsome
  recorded seq := by
    change Injected db.mail seq = true ↔ _ ∈ trace
    rw [hinjected, hrecorded, ← h.recorded]
    simp
  once := honce

theorem Once.wake (h : Once s) {recorded : Bool} {seq : ℕ}
    (hpersist : s.persistEffect recorded { seq, wakeSucceeded := true } = some s') : Once s' := by
  obtain ⟨db, wake, hemits, -, hinjected, rfl⟩ := Live.persistEffect_eq_some hpersist
  exact h.acknowledge hemits hinjected (fun hfalse => nomatch hfalse) (by simp) h.once

/-- The mail of a new task is neither in its chain nor injected. -/
theorem Once.chain (h : Once s) {mail : DeliveredMail} {state : LiveEffect}
    (hrow : IsRow s.db.mail mail) (hfree : s.underWay mail = false)
    (hstate : s.liveEffects mail.seq = some state) (hsucceeded : state.injectSucceeded = false)
    (hqueued : state.injectQueued = false) : Once (s.chain mail) := by
  have hnot : Injected s.db.mail mail.seq = false := by
    rw [Bool.eq_false_iff]
    intro hinjected
    have hremembered := h.remembered _ state hstate hinjected
    rw [hsucceeded] at hremembered
    cases hremembered
  have hnew : mail.seq ∉ (s.queue mail.recipient).tasks.map (·.seq) := by
    intro hmem
    obtain ⟨task, htask, hseq⟩ := List.mem_map.1 hmem
    rcases List.mem_append.1 htask with hrunning | hwaiting
    · rw [Live.underWay, Option.mem_toList.1 hrunning, Option.any_some, hseq,
        beq_self_eq_true] at hfree
      cases hfree
    · obtain ⟨queued, hsome, hflag⟩ := h.queued _ task hwaiting
      rw [hseq, hstate] at hsome
      obtain rfl := Option.some.inj hsome
      rw [hqueued] at hflag
      cases hflag
  have hchain : ∀ recipient, ∀ task ∈ ((s.chain mail).queue recipient).tasks,
      task ∈ (s.queue recipient).tasks ∨ task = mail ∧ recipient = mail.recipient := by
    intro recipient task htask
    rw [Live.queue_chain] at htask
    split at htask
    · next hto =>
      subst hto
      rw [Chain.tasks_enqueue] at htask
      exact (List.mem_append.1 htask).imp_right fun hlast => ⟨List.mem_singleton.1 hlast, rfl⟩
    · exact .inl htask
  have hmark : ∀ before task current, before ++ [.started task current] <+: (s.chain mail).trace →
      before ++ [.started task current] <+: s.trace := by
    intro before task current hbefore
    rcases List.prefix_concat_iff.1 hbefore with heq | hbefore
    · cases List.singleton_inj.1 (List.append_inj' heq rfl).2
    · exact hbefore
  refine ⟨⟨h.consistent, fun recipient task htask => ?_⟩, ?_, fun recipient task htask => ?_, ?_, ?_,
    ?_, fun before task current hbefore => h.once before task current (hmark _ _ _ hbefore)⟩
  · rcases hchain recipient task htask with hold | ⟨rfl, rfl⟩
    · exact h.rows recipient task hold
    · exact ⟨rfl, hrow⟩
  · intro recipient task htask
    change ∃ state, (s.changeEffect mail.seq _).liveEffects task.seq = some state ∧ _
    rw [Live.liveEffects_changeEffect]
    rw [Live.queue_chain] at htask
    split
    · next hseq =>
      rw [hseq, hstate]
      exact ⟨_, rfl, rfl⟩
    · next hne =>
      split at htask
      · next hto =>
        subst hto
        rcases List.mem_append.1 htask with hold | hlast
        · exact h.queued _ task hold
        · exact absurd (congrArg DeliveredMail.seq (List.mem_singleton.1 hlast)) hne
      · exact h.queued _ task htask
  · rcases hchain recipient task htask with hold | ⟨rfl, rfl⟩
    · exact h.unrecorded recipient task hold
    · exact hnot
  · intro recipient
    rw [Live.queue_chain]
    split
    · rw [Chain.tasks_enqueue, List.map_append]
      exact List.nodup_append.2 ⟨h.distinct _, List.nodup_singleton _, fun a ha b hb => by
        rw [List.mem_singleton.1 hb]
        rintro rfl
        exact hnew ha⟩
    · exact h.distinct recipient
  · intro seq remembered hremembered hinjected
    change (s.changeEffect mail.seq _).liveEffects seq = some remembered at hremembered
    rw [Live.liveEffects_changeEffect] at hremembered
    split at hremembered
    · next hseq =>
      subst hseq
      change Injected s.db.mail mail.seq = true at hinjected
      rw [hnot] at hinjected
      cases hinjected
    · exact h.remembered seq remembered hremembered hinjected
  · intro seq
    rw [Live.chain, Live.trace_mark, List.mem_append]
    simpa using h.recorded seq

theorem Once.start (h : Once s) {recipient : String} {mail : DeliveredMail}
    {waiting : List DeliveredMail} {current : Option DeliveredMail}
    (hqueue : s.queue recipient = ⟨none, mail :: waiting⟩) :
    Once ((s.setQueue recipient (some ⟨some mail, waiting⟩)).mark (.started mail current)) := by
  have htasks : ∀ other, ((s.setQueue recipient (some ⟨some mail, waiting⟩)).queue other).tasks =
      (s.queue other).tasks := by
    intro other
    rw [Live.queue_setQueue]
    split
    · next hsame =>
      subst hsame
      rw [hqueue]
      rfl
    · rfl
  have hwaiting : ∀ other,
      ∀ task ∈ ((s.setQueue recipient (some ⟨some mail, waiting⟩)).queue other).waiting,
        task ∈ (s.queue other).waiting := by
    intro other task htask
    rw [Live.queue_setQueue] at htask
    split at htask
    · next hsame =>
      subst hsame
      rw [hqueue]
      exact List.mem_cons_of_mem _ htask
    · exact htask
  have hmail : Injected s.db.mail mail.seq = false := by
    refine h.unrecorded recipient mail ?_
    rw [hqueue]
    exact List.mem_cons_self
  refine ⟨⟨h.consistent, fun other task htask => h.rows other task (htasks other ▸ htask)⟩,
    fun other task htask => h.queued other task (hwaiting other task htask),
    fun other task htask => h.unrecorded other task (htasks other ▸ htask), fun other => ?_,
    h.remembered, fun seq => ?_, fun before task current' hbefore => ?_⟩
  · rw [Live.queue_mark, htasks]
    exact h.distinct other
  · rw [Live.trace_mark, List.mem_append]
    simpa using h.recorded seq
  · rcases List.prefix_concat_iff.1 hbefore with heq | hbefore
    · obtain ⟨rfl, hnote⟩ := List.append_inj' heq rfl
      cases List.singleton_inj.1 hnote
      intro hrecorded
      rw [(h.recorded mail.seq).2 hrecorded] at hmail
      cases hmail
    · exact h.once before task current' hbefore

/-- What runs no longer leaves its chain. -/
theorem Once.settle (h : Once s) {recipient : String} {mail : DeliveredMail}
    {waiting : List DeliveredMail} (hqueue : s.queue recipient = ⟨some mail, waiting⟩) :
    Once ((s.setQueue recipient (some ⟨none, waiting⟩)).mark (.settled mail)) ∧
      ∀ other, ∀ task ∈ (((s.setQueue recipient (some ⟨none, waiting⟩)).mark
        (.settled mail)).queue other).tasks, task.seq ≠ mail.seq := by
  have htasks : ∀ other, ∀ task ∈ ((s.setQueue recipient (some ⟨none, waiting⟩)).queue other).tasks,
      task ∈ (s.queue other).tasks ∧ (other = recipient → task ∈ waiting) := by
    intro other task htask
    rw [Live.queue_setQueue] at htask
    split at htask
    · next hsame =>
      subst hsame
      rw [hqueue]
      exact ⟨List.mem_cons_of_mem _ htask, fun _ => htask⟩
    · next hne => exact ⟨htask, fun heq => absurd heq hne⟩
  have hwaiting : ∀ other, ∀ task ∈ ((s.setQueue recipient (some ⟨none, waiting⟩)).queue other).waiting,
      task ∈ (s.queue other).waiting := by
    intro other task htask
    rw [Live.queue_setQueue] at htask
    split at htask
    · next hsame =>
      subst hsame
      rw [hqueue]
      exact htask
    · exact htask
  refine ⟨⟨⟨h.consistent, fun other task htask => h.rows other task (htasks other task htask).1⟩,
    fun other task htask => h.queued other task (hwaiting other task htask),
    fun other task htask => h.unrecorded other task (htasks other task htask).1, fun other => ?_,
    h.remembered, fun seq => ?_, fun before task current hbefore => ?_⟩, fun other task htask => ?_⟩
  · rw [Live.queue_mark, Live.queue_setQueue]
    split
    · next hsame =>
      subst hsame
      have hdistinct := h.distinct other
      rw [hqueue] at hdistinct
      exact (List.nodup_cons.1 hdistinct).2
    · exact h.distinct other
  · rw [Live.trace_mark, List.mem_append]
    simpa using h.recorded seq
  · rcases List.prefix_concat_iff.1 hbefore with heq | hbefore
    · cases List.singleton_inj.1 (List.append_inj' heq rfl).2
    · exact h.once before task current hbefore
  · obtain ⟨hold, hrest⟩ := htasks other task htask
    exact h.ne_running hqueue hold hrest

theorem Once.act (h : Once s) (hrow : ∀ mail, H s mail → IsRow s.db.mail mail)
    (hfree : ∀ mail, isInjectableActionable mail = true → H s mail → s.underWay mail = false)
    (hact : Acts H s s') : Once s' := by
  cases hact with
  | loaded hnone => exact h.load hnone
  | woken hpersist => exact h.wake hpersist
  | unwoken => exact h.change (fun _ _ _ _ _ hflag => hflag) fun _ _ hflag => hflag
  | chained hH hinjectable hstate hsucceeded hqueued =>
    exact h.chain (hrow _ hH) (hfree _ hinjectable hH) hstate hsucceeded hqueued
  | started hqueue => exact h.start hqueue
  | @returned recipient mail waiting hqueue =>
    refine h.change (fun other task htask hseq => ?_) fun _ _ hflag => hflag
    refine absurd hseq (h.ne_running hqueue (List.mem_append_right _ htask) ?_)
    rintro rfl
    rwa [hqueue] at htask
  | @injected recipient mail waiting _ _ hqueue hpersist =>
    obtain ⟨hsettled, hgone⟩ := h.settle hqueue
    obtain ⟨db, wake, hemits, -, hinjected, rfl⟩ := Live.persistEffect_eq_some hpersist
    have hrecorded := @Once.acknowledge _ hsettled db wake true mail.seq
      (((s.setQueue recipient (some ⟨none, waiting⟩)).mark (.settled mail)).trace ++
        [.recorded mail.seq]) hemits hinjected (fun _ => hgone) (fun seq => by simp) ?_
    · exact hrecorded.change
        (fun other task htask hseq => absurd hseq (hgone other task (List.mem_append_right _ htask)))
        fun _ _ hflag => hflag
    · intro before task current hbefore
      rcases List.prefix_concat_iff.1 hbefore with heq | hbefore
      · cases List.singleton_inj.1 (List.append_inj' heq rfl).2
      · exact hsettled.once before task current hbefore
  | @failed recipient mail waiting hqueue =>
    obtain ⟨hsettled, hgone⟩ := h.settle hqueue
    refine hsettled.change (fun other task htask hseq => ?_) fun hinjected => ?_
    · exact absurd hseq (hgone other task (List.mem_append_right _ htask))
    · refine absurd hinjected ?_
      rw [Bool.not_eq_true]
      refine h.unrecorded recipient mail ?_
      rw [hqueue]
      exact List.mem_cons_self
  | cleaned hqueue =>
    refine h.remember rfl (fun recipient => ?_) (fun _ _ _ state hstate hflag => ⟨state, hstate, hflag⟩)
      h.remembered rfl
    rw [Live.queue_setQueue]
    split
    · next hsame =>
      subst hsame
      exact hqueue.symm
    · rfl

end

/-! ## Runs -/

section

variable {s : Live} {seams : ℕ → Seams} {mail : DeliveredMail}

theorem running_settle {recipient other : String} {succeeded recorded : Bool} {task : DeliveredMail}
    (h : ((s.settle recipient succeeded recorded).queue other).running = some task) :
    (s.queue other).running = some task := by
  unfold Live.settle at h
  split at h
  · next mail waiting hchain =>
    have hsettled : ∀ {s' : Live}, (∀ r, s'.queue r =
        (s.setQueue recipient (some ⟨none, waiting⟩)).queue r) →
        (s'.queue other).running = some task → (s.queue other).running = some task := by
      intro s' hqueue hrunning
      rw [hqueue, Live.queue_setQueue] at hrunning
      split at hrunning
      · cases hrunning
      · exact hrunning
    dsimp only at h
    split at h
    · next s' hpersisted =>
      cases succeeded with
      | true => exact hsettled (fun r => Live.queue_persistEffect hpersisted r) h
      | false => cases hpersisted
    · exact hsettled (fun _ => rfl) h
  · exact h

/-- What runs after a mail was enqueued ran before, or is that mail. -/
theorem running_enqueueInject {other : String} {task : DeliveredMail}
    (h : ((s.enqueueInject seams mail).queue other).running = some task) :
    (s.queue other).running = some task ∨ task = mail := by
  unfold Live.enqueueInject at h
  split at h
  · next hnone =>
    have hchain : (s.chain mail).injectQueues mail.recipient = some ⟨none, [mail]⟩ := by
      simp [Live.chain, Live.setQueue, Live.queue, hnone, Chain.enqueue]
    have hstarted : ∀ {s' : Live}, (∀ r, s'.queue r =
        ((s.chain mail).setQueue mail.recipient (some ⟨some mail, []⟩)).queue r) →
        (s'.queue other).running = some task → (s.queue other).running = some task ∨ task = mail := by
      intro s' hqueue hrunning
      rw [hqueue, Live.queue_setQueue] at hrunning
      split at hrunning
      · exact .inr (Option.some.inj hrunning).symm
      · next hne =>
        rw [Live.queue_chain, if_neg hne] at hrunning
        exact .inl hrunning
    unfold Live.startNext at h
    rw [hchain] at h
    dsimp only at h
    split at h
    · exact hstarted (fun _ => rfl) h
    · have hran := running_settle h
      exact hstarted (fun _ => rfl) hran
    · have hran := running_settle h
      exact hstarted (fun _ => rfl) hran
  · rw [Live.queue_chain] at h
    split at h
    · next hsame =>
      subst hsame
      exact .inl h
    · exact .inl h

theorem running_maybeInject {other : String} {task : DeliveredMail}
    (h : ((s.maybeInject seams mail).queue other).running = some task) :
    (s.queue other).running = some task ∨ task = mail ∧ isInjectableActionable mail = true := by
  have hqueue : (s.effectState mail).2.queue other = s.queue other := by
    rw [Live.queue, Live.queue, Live.injectQueues_effectState]
  unfold Live.maybeInject at h
  dsimp only at h
  split at h
  · next hinject =>
    simp only [Bool.and_eq_true] at hinject
    rcases running_enqueueInject h with hold | rfl
    · exact .inl (hqueue ▸ hold)
    · exact .inr ⟨rfl, hinject.1.1⟩
  · exact .inl (hqueue ▸ h)

theorem running_handOver {other : String} {task : DeliveredMail}
    (h : ((handOver seams mail s).queue other).running = some task) :
    (s.queue other).running = some task ∨ task = mail ∧ isInjectableActionable mail = true := by
  have hqueue : ∀ {s' : Live}, s'.injectQueues = s.injectQueues → s'.queue other = s.queue other := by
    intro s' hs'
    rw [Live.queue, Live.queue, hs']
  unfold handOver Live.wakeAndMaybeInject at h
  dsimp only at h
  split at h
  · rw [← hqueue (@Live.injectQueues_effectState s mail)]
    exact running_maybeInject h
  · split at h
    · next s' hpersisted =>
      split at hpersisted
      · have hs' := (Live.injectQueues_persistEffect hpersisted).trans Live.injectQueues_effectState
        rw [← hqueue hs']
        exact running_maybeInject h
      · cases hpersisted
    · rw [Live.queue_changeEffect, hqueue Live.injectQueues_effectState] at h
      exact .inl h

/-- No mail is under way when its turn comes to be handed over. -/
theorem handOver_free {mails : List DeliveredMail}
    (hfree : ∀ mail ∈ mails, isInjectableActionable mail = true → s.underWay mail = false)
    (hnodup : ((mails.filter isInjectableActionable).map (·.seq)).Nodup)
    {H : DeliveredMail → Prop} (hH : ∀ mail ∈ mails, H mail) :
    Run.Guarded (handOver seams) (fun mail s => ∀ s' : Live, s'.injectQueues = s.injectQueues →
      H mail ∧ (isInjectableActionable mail = true → s'.underWay mail = false)) mails s := by
  induction mails generalizing s with
  | nil => trivial
  | cons mail mails ih =>
    refine ⟨fun s' hs' => ⟨hH mail List.mem_cons_self, fun hinjectable => ?_⟩, ih ?_ ?_ ?_⟩
    · rw [Live.underWay, Live.queue, hs']
      exact hfree mail List.mem_cons_self hinjectable
    · intro other hother hinjectable
      rw [Live.underWay, Bool.eq_false_iff]
      intro hunderWay
      obtain ⟨task, hrunning, hseq⟩ := (Option.any_eq_true _ _).1 hunderWay
      rcases running_handOver hrunning with hold | ⟨rfl, hmail⟩
      · have hnot := hfree other (List.mem_cons_of_mem _ hother) hinjectable
        rw [Live.underWay, hold, Option.any_some, hseq] at hnot
        cases hnot
      · rw [List.filter_cons_of_pos hmail, List.map_cons, List.nodup_cons] at hnodup
        refine hnodup.1 (List.mem_map.2 ⟨other, List.mem_filter.2 ⟨hother, hinjectable⟩, ?_⟩)
        exact (beq_iff_eq.1 hseq).symm
    · refine hnodup.sublist (List.Sublist.map _ (List.Sublist.filter _ ?_))
      exact List.sublist_cons_self mail mails
    · exact fun other hother => hH other (List.mem_cons_of_mem _ hother)

/-- What an operation stores acknowledges nothing. -/
theorem Once.store (h : Once s) {db : Db}
    (hemits : Emits (fun _ event => Unacknowledging event) s.db db) : Once { s with db } where
  consistent := h.consistent.emits hemits
  rows recipient mail hmail := by
    obtain ⟨hto, hrow⟩ := h.rows recipient mail hmail
    exact ⟨hto, isRow_of_emits hemits hrow⟩
  queued := h.queued
  unrecorded recipient mail hmail := by
    rw [injected_of_emits hemits]
    exact h.unrecorded recipient mail hmail
  distinct := h.distinct
  remembered seq state hstate hinjected := by
    rw [injected_of_emits hemits] at hinjected
    exact h.remembered seq state hstate hinjected
  recorded seq := by
    rw [injected_of_emits hemits]
    exact h.recorded seq
  once := h.once

theorem Once.restart (h : Once s) : Once s.restart where
  toHoused := housed_fresh h.consistent _
  queued _ _ hmail := absurd hmail List.not_mem_nil
  unrecorded _ _ hmail := absurd hmail List.not_mem_nil
  distinct _ := List.nodup_nil
  remembered _ _ hstate := nomatch hstate
  recorded seq := by
    rw [Live.restart, List.mem_append]
    simpa using h.recorded seq
  once before mail current hbefore := by
    rcases List.prefix_concat_iff.1 hbefore with heq | hbefore
    · cases List.singleton_inj.1 (List.append_inj' heq rfl).2
    · exact h.once before mail current hbefore

theorem Once.step {op : LiveOp} (h : Once s) (hhands : HandsOnce op s) : Once (liveStep op s) := by
  cases hop : op.restarts with
  | false =>
    have hguard := @handOver_free { s with db := op.stored s.db } op.seams _ hhands.1 hhands.2
      (fun mail => mail ∈ op.handed s.db) fun _ hmail => hmail
    have hstored := h.store (stored_unacknowledging h.consistent op)
    refine (ActsOn.preserves (@liveStep_acts (fun s' mail => mail ∈ op.handed s.db ∧
      (isInjectableActionable mail = true → s'.underWay mail = false)) op s hop hguard) ?_ hstored).1
    intro s₁ s₂ hinbox hs₁ hact
    refine hs₁.act (fun mail hH => ?_) (fun mail hinjectable hH => hH.2 hinjectable) hact
    exact (IsRow.congr hinbox).2 (handed_spec h.consistent hH.1).1
  | true =>
    cases op with
    | restart => exact h.restart
    | _ => cases hop

/-- In a run that hands over no mail whose injection is under way, no mail is injected again after
the log says that it was; injections to one recipient never overlap; and the mails of one recipient
are injected for the first time in the order in which the delivery had enqueued them. -/
theorem live_delivery_once {ops : List LiveOp} {clock : ℕ → ℕ}
    (hrun : Run.Guarded liveStep HandsOnce ops { db := { clock } }) :
    (∀ seq, Injected (liveRun ops { db := { clock } }).db.mail seq = true ↔
      .recorded seq ∈ (liveRun ops { db := { clock } }).trace) ∧
    (∀ before mail current,
      before ++ [.started mail current] <+: (liveRun ops { db := { clock } }).trace →
        .recorded mail.seq ∉ before ∧ inFlight (lane mail.recipient before) = []) ∧
    ∀ before, before <+: (liveRun ops { db := { clock } }).trace → ∀ recipient,
      starts (lane recipient before) <+: enqueues (lane recipient before) ∧
        (starts (lane recipient before)).eraseDups <+:
          (enqueues (lane recipient before)).eraseDups := by
  have honce : Once (liveRun ops { db := { clock } }) :=
    Run.invariant Once (fun op s hhands hs => hs.step hhands) hrun (once_fresh clock)
  have hserialized := liveRun_serialized ops { clock }
  refine ⟨honce.recorded, fun before mail current hbefore => ?_, fun before hbefore recipient => ?_⟩
  · exact ⟨honce.once before mail current hbefore,
      hserialized.inTurn.alone before mail current hbefore⟩
  · have hordered := hserialized.inTurn.ordered before hbefore recipient
    exact ⟨hordered, eraseDups_mono hordered⟩

end

/-- A question that is sent again under its key when no answer comes. -/
def retriedQuestion : MailEnvelope where
  type := .clarifyRequest
  «to» := "coordinator"
  «from» := "builder"
  subject := "port"
  body := "Which port?"
  idempotencyKey := some "clarify:port"

/-- Sent again after its injection succeeded. -/
def retriedAfter : List LiveOp :=
  [.deliver retriedQuestion fun _ => {}, .settle "coordinator" true true,
    .deliver retriedQuestion fun _ => {}, .advance "coordinator" fun _ => {}]

/-- Sent again while its injection is under way. -/
def retriedMeanwhile : List LiveOp :=
  [.deliver retriedQuestion fun _ => {}, .deliver retriedQuestion fun _ => {},
    .settle "coordinator" true true, .advance "coordinator" fun _ => {}]

theorem live_delivery_once_of_retriedAfter :
    (∀ seq, Injected (liveRun retriedAfter { db := .atRest }).db.mail seq = true ↔
      .recorded seq ∈ (liveRun retriedAfter { db := .atRest }).trace) ∧
    (∀ before mail current,
      before ++ [.started mail current] <+: (liveRun retriedAfter { db := .atRest }).trace →
        .recorded mail.seq ∉ before ∧ inFlight (lane mail.recipient before) = []) ∧
    ∀ before, before <+: (liveRun retriedAfter { db := .atRest }).trace → ∀ recipient,
      starts (lane recipient before) <+: enqueues (lane recipient before) ∧
        (starts (lane recipient before)).eraseDups <+:
          (enqueues (lane recipient before)).eraseDups :=
  live_delivery_once (by decide +kernel)

/-- The retry is enqueued behind the injection that is under way, and injected again after that one
was recorded. -/
theorem live_delivery_injects_twice : ¬ ∀ before mail current,
    before ++ [.started mail current] <+: (liveRun retriedMeanwhile { db := .atRest }).trace →
      .recorded mail.seq ∉ before := by
  intro h
  have hagain := h ((liveRun retriedMeanwhile { db := .atRest }).trace.take 5)
    (deliveredRow retriedQuestion 1 0) (some (deliveredRow retriedQuestion 1 0)) (by decide +kernel)
  exact hagain (by decide +kernel)

end Orchestration.Mail
