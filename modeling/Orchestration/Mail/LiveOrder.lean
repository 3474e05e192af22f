import Orchestration.Mail.LiveHandovers

/-!
# Live delivery in order

The chain of a recipient is a serial chain: what it started it started in the
order in which it was enqueued, one injection at a time. The chains are in
memory only, so the order is that of one delivery, from its start to the
restart that ends it.
-/

namespace Orchestration.Mail

open Serial

/-- The marks of one recipient since the last restart, after one mark more. -/
def trackLane (recipient : String) (marks : List (Serial.Mark DeliveredMail)) :
    LiveMark → List (Serial.Mark DeliveredMail)
  | .enqueued mail => if mail.recipient = recipient then marks ++ [.enqueued mail] else marks
  | .started mail _ => if mail.recipient = recipient then marks ++ [.started mail] else marks
  | .settled mail => if mail.recipient = recipient then marks ++ [.settled mail] else marks
  | .recorded _ => marks
  | .restarted => []

/-- What happened to the injections of one recipient since the last restart. -/
def lane (recipient : String) (trace : List LiveMark) : List (Serial.Mark DeliveredMail) :=
  trace.foldl (trackLane recipient) []

@[simp] theorem lane_concat (recipient : String) (trace : List LiveMark) (note : LiveMark) :
    lane recipient (trace ++ [note]) = trackLane recipient (lane recipient trace) note := by
  simp [lane]

/-- Every chain is what the marks of its recipient leave. -/
structure Chained (s : Live) : Prop where
  addressed : ∀ recipient, ∀ mail ∈ (s.queue recipient).tasks, mail.recipient = recipient
  explains : ∀ recipient, Explains (lane recipient s.trace) (s.queue recipient)

/-- At every moment of the trace the injections of a recipient had started in the order they were
enqueued, and none starts while another is in flight. -/
structure InTurn (trace : List LiveMark) : Prop where
  ordered : ∀ before, before <+: trace → ∀ recipient,
    starts (lane recipient before) <+: enqueues (lane recipient before)
  alone : ∀ before mail current, before ++ [.started mail current] <+: trace →
    inFlight (lane mail.recipient before) = []

/-- What happens in turn, one mark after the other. -/
theorem InTurn.concat {trace : List LiveMark} {note : LiveMark} (h : InTurn trace)
    (hordered : ∀ recipient,
      starts (lane recipient (trace ++ [note])) <+: enqueues (lane recipient (trace ++ [note])))
    (halone : ∀ mail current, note = .started mail current →
      inFlight (lane mail.recipient trace) = []) : InTurn (trace ++ [note]) where
  ordered before hbefore recipient := by
    rcases List.prefix_concat_iff.1 hbefore with rfl | hbefore
    · exact hordered recipient
    · exact h.ordered before hbefore recipient
  alone before mail current hbefore := by
    rcases List.prefix_concat_iff.1 hbefore with heq | hbefore
    · obtain ⟨rfl, hnote⟩ := List.append_inj' heq rfl
      exact halone mail current (List.singleton_inj.1 hnote).symm
    · exact h.alone before mail current hbefore

/-- A delivery whose chains are in order, and always were. -/
structure Serialized (s : Live) : Prop extends Chained s where
  inTurn : InTurn s.trace

theorem serialized_fresh {db : Db} : Serialized { db } where
  addressed _ _ hmail := absurd hmail List.not_mem_nil
  explains _ := .nil
  inTurn := by
    constructor
    · intro before hbefore recipient
      rw [List.prefix_nil.1 hbefore]
      exact List.prefix_rfl
    · intro before mail current hbefore
      simpa using List.prefix_nil.1 hbefore

section

variable {H : Live → DeliveredMail → Prop} {s s' : Live}

theorem Serialized.congr (h : Serialized s) (hqueue : ∀ recipient, s'.queue recipient = s.queue recipient)
    (htrace : s'.trace = s.trace) : Serialized s' where
  addressed recipient mail hmail := h.addressed recipient mail (hqueue recipient ▸ hmail)
  explains recipient := by
    rw [hqueue, htrace]
    exact h.explains recipient
  inTurn := htrace ▸ h.inTurn

/-- A mark on the chain of one recipient. -/
theorem Serialized.note {recipient : String} {chain : Serial.Chain DeliveredMail} {note : LiveMark}
    (h : Serialized s) (haddressed : ∀ mail ∈ chain.tasks, mail.recipient = recipient)
    (hexplains : Explains (trackLane recipient (lane recipient s.trace) note) chain)
    (hother : ∀ other, other ≠ recipient →
      trackLane other (lane other s.trace) note = lane other s.trace)
    (halone : ∀ mail current, note = .started mail current →
      inFlight (lane mail.recipient s.trace) = []) :
    Serialized ((s.setQueue recipient (some chain)).mark note) := by
  have hexplained : ∀ other, Explains (lane other (s.trace ++ [note]))
      ((s.setQueue recipient (some chain)).queue other) := by
    intro other
    rw [lane_concat, Live.queue_setQueue]
    split
    · next hsame =>
      subst hsame
      exact hexplains
    · next hne =>
      rw [hother other hne]
      exact h.explains other
  refine ⟨⟨fun other mail hmail => ?_, hexplained⟩, ?_⟩
  · rw [Live.queue_mark, Live.queue_setQueue] at hmail
    split at hmail
    · next hsame =>
      subst hsame
      exact haddressed mail hmail
    · exact h.addressed other mail hmail
  · exact h.inTurn.concat (fun other => (hexplained other).inOrder) halone

theorem Serialized.chain {mail : DeliveredMail} (h : Serialized s) : Serialized (s.chain mail) := by
  have hchanged : Serialized (s.changeEffect mail.seq fun state => { state with injectQueued := true }) :=
    h.congr (fun _ => rfl) rfl
  refine hchanged.note ?_ ?_ (fun other hne => if_neg (Ne.symm hne)) (fun _ _ hnote => nomatch hnote)
  · intro task htask
    rw [Chain.tasks_enqueue] at htask
    rcases List.mem_append.1 htask with htask | htask
    · exact h.addressed _ task htask
    · rw [List.mem_singleton.1 htask]
  · rw [trackLane, if_pos rfl]
    exact (h.explains mail.recipient).enqueue mail

theorem Serialized.start {recipient : String} {mail : DeliveredMail} {waiting : List DeliveredMail}
    {current : Option DeliveredMail} (h : Serialized s)
    (hqueue : s.queue recipient = ⟨none, mail :: waiting⟩) :
    Serialized ((s.setQueue recipient (some ⟨some mail, waiting⟩)).mark (.started mail current)) := by
  have haddressed := h.addressed recipient
  have hexplains := h.explains recipient
  rw [hqueue] at haddressed hexplains
  obtain rfl : mail.recipient = recipient := haddressed mail List.mem_cons_self
  refine h.note haddressed ?_ (fun other hne => if_neg (Ne.symm hne)) ?_
  · rw [trackLane, if_pos rfl]
    exact hexplains.start
  · intro mail' current' hnote
    cases hnote
    exact hexplains.idle

theorem Serialized.settle {recipient : String} {mail : DeliveredMail} {waiting : List DeliveredMail}
    (h : Serialized s) (hqueue : s.queue recipient = ⟨some mail, waiting⟩) :
    Serialized ((s.setQueue recipient (some ⟨none, waiting⟩)).mark (.settled mail)) := by
  have haddressed := h.addressed recipient
  have hexplains := h.explains recipient
  rw [hqueue] at haddressed hexplains
  obtain rfl : mail.recipient = recipient := haddressed mail List.mem_cons_self
  refine h.note (fun task htask => haddressed task (List.mem_cons_of_mem _ htask)) ?_
    (fun other hne => if_neg (Ne.symm hne)) (fun _ _ hnote => nomatch hnote)
  rw [trackLane, if_pos rfl]
  exact hexplains.settle

/-- A mark that is about no chain. -/
theorem Serialized.record (h : Serialized s) (seq : ℕ) : Serialized (s.mark (.recorded seq)) where
  addressed := h.addressed
  explains recipient := by
    rw [Live.trace_mark, lane_concat]
    exact h.explains recipient
  inTurn := by
    refine h.inTurn.concat (fun recipient => ?_) fun _ _ hnote => nomatch hnote
    rw [lane_concat]
    exact (h.explains recipient).inOrder

theorem Serialized.restart (h : Serialized s) : Serialized s.restart where
  addressed _ _ hmail := absurd hmail List.not_mem_nil
  explains recipient := by
    rw [Live.restart, lane_concat]
    exact .nil
  inTurn := by
    refine h.inTurn.concat (fun recipient => ?_) fun _ _ hnote => nomatch hnote
    rw [lane_concat]
    exact List.prefix_rfl

theorem Serialized.act (h : Serialized s) (hact : Acts H s s') : Serialized s' := by
  cases hact with
  | loaded => exact h.congr (fun _ => rfl) rfl
  | woken hpersist =>
    exact h.congr (Live.queue_persistEffect hpersist) (Live.trace_persistEffect hpersist)
  | unwoken => exact h.congr (fun _ => rfl) rfl
  | chained => exact h.chain
  | started hqueue => exact h.start hqueue
  | returned => exact h.congr (fun _ => rfl) rfl
  | injected hqueue hpersist =>
    have hpersisted := (h.settle hqueue).congr (Live.queue_persistEffect hpersist)
      (Live.trace_persistEffect hpersist)
    exact (hpersisted.record _).congr (fun _ => rfl) rfl
  | failed hqueue => exact (h.settle hqueue).congr (fun _ => rfl) rfl
  | cleaned hqueue =>
    refine h.congr (fun recipient => ?_) rfl
    rw [Live.queue_setQueue]
    split
    · next hsame =>
      subst hsame
      exact hqueue.symm
    · rfl

theorem Serialized.step (h : Serialized s) (op : LiveOp) : Serialized (liveStep op s) := by
  cases hop : op.restarts with
  | false =>
    exact liveStep_preserves hop (h.congr (fun _ => rfl) rfl) fun _ _ _ hs₁ hact => hs₁.act hact
  | true =>
    cases op with
    | restart => exact h.restart
    | _ => cases hop

end

theorem liveRun_serialized (ops : List LiveOp) (db : Db) : Serialized (liveRun ops { db }) :=
  Run.always Serialized (fun op _ hs => hs.step op) serialized_fresh

end Orchestration.Mail
