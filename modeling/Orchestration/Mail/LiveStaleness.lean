import Orchestration.Mail.LiveHandovers

/-!
# Stale injections

Whether a mail is to be injected is decided when it is enqueued, and not looked
at again when its turn comes. It is injected while it is outstanding as long as
nothing settles it while it waits.
-/

namespace Orchestration.Mail

/-- The mail at `seq` is actionable, unread, unresolved and not retracted. -/
def Injectable (t : MailTables) (seq : ℕ) : Bool :=
  (selectMailBySeq t seq).any isInjectableActionable

/-- The mail at `seq` waits behind another injection to its recipient. -/
def Live.awaits (s : Live) (seq : ℕ) : Bool :=
  (selectMailBySeq s.db.mail seq).any fun row =>
    (s.queue row.recipient).waiting.any (·.seq == seq)

/-- The operation does not settle the mail at `seq` while it waits, and does not deliver it
together with an answer to it. -/
def LeavesWaiting (seq : ℕ) (op : LiveOp) (s : Live) : Prop :=
  (s.awaits seq = true → Injectable (op.stored s.db).mail seq = true) ∧ op.LeavesRelay seq s.db

instance (seq : ℕ) (op : LiveOp) (s : Live) : Decidable (LeavesWaiting seq op s) :=
  inferInstanceAs (Decidable (_ ∧ _))

theorem Injectable.congr {t t' : MailTables} (h : t'.inbox = t.inbox) (seq : ℕ) :
    Injectable t' seq = Injectable t seq := by
  rw [Injectable, Injectable, select_congr h]

/-- The mail at `seq` is outstanding while it waits, and was whenever its injection started. -/
structure FreshAt (seq : ℕ) (s : Live) : Prop where
  waiting : ∀ recipient, ∀ mail ∈ (s.queue recipient).waiting, mail.seq = seq →
    Injectable s.db.mail seq = true
  started : ∀ mail current, .started mail current ∈ s.trace → mail.seq = seq →
    current.any isInjectableActionable = true

variable {seq : ℕ} {s : Live} {op : LiveOp}

theorem FreshAt.act {s₁ s₂ : Live} (hs : Consistent s.db) (hleaves : op.LeavesRelay seq s.db)
    (h : FreshAt seq s₁) (hinbox : s₁.db.mail.inbox = (op.stored s.db).mail.inbox)
    (hact : Acts (fun _ mail => mail ∈ op.handed s.db) s₁ s₂) : FreshAt seq s₂ where
  waiting recipient mail hmail hseq := by
    rw [Injectable.congr hact.stored.2]
    rcases hact.waiting hmail with hold | ⟨hhanded, hinjectable, rfl⟩
    · exact h.waiting recipient mail hold hseq
    · subst hseq
      have hcurrent := (handed_spec hs hhanded).2 hleaves
      rw [Injectable.congr hinbox, Injectable, hcurrent]
      exact hinjectable
  started mail current hstarted hseq := by
    rcases hact.started_of_mem hstarted with hold | ⟨rfl, recipient, hwaited⟩
    · exact h.started mail current hold hseq
    · subst hseq
      exact h.waiting recipient mail hwaited rfl

/-- What waits is known to wait by its row. -/
theorem Housed.awaits (h : Housed s) {recipient : String} {mail : DeliveredMail}
    (hmail : mail ∈ (s.queue recipient).waiting) : s.awaits mail.seq = true := by
  obtain ⟨rfl, row, hrow, hfixed⟩ := h.rows recipient mail (List.mem_append_right _ hmail)
  have hseq : row.seq = mail.seq := seq_of_fixed hfixed
  have hrecipient := recipient_of_fixed hfixed
  rw [Live.awaits, selectMailBySeq_eq_some.2 ⟨hrow, hseq⟩, Option.any_some, hrecipient,
    List.any_eq_true]
  exact ⟨mail, hmail, beq_self_eq_true _⟩

theorem FreshAt.step (h : FreshAt seq s) (hhoused : Housed s) (hleaves : LeavesWaiting seq op s) :
    FreshAt seq (liveStep op s) := by
  cases hop : op.restarts with
  | false =>
    refine liveStep_preserves hop ?_ fun s₁ s₂ hinbox hs₁ hact =>
      hs₁.act hhoused.consistent hleaves.2 hinbox hact
    refine ⟨fun recipient mail hmail hseq => hleaves.1 ?_, h.started⟩
    rw [← hseq]
    exact hhoused.awaits hmail
  | true =>
    cases op with
    | restart =>
      refine ⟨fun _ _ hmail => absurd hmail List.not_mem_nil, fun mail current hstarted => ?_⟩
      rcases List.mem_append.1 hstarted with hstarted | hstarted
      · exact h.started mail current hstarted
      · cases List.mem_singleton.1 hstarted
    | _ => cases hop

theorem liveRun_freshAt {ops : List LiveOp} (hrun : Run.Guarded liveStep (LeavesWaiting seq) ops s)
    (hhoused : Housed s) (h : FreshAt seq s) : FreshAt seq (liveRun ops s) := by
  have hboth : Housed (liveRun ops s) ∧ FreshAt seq (liveRun ops s) := by
    refine Run.invariant (fun s => Housed s ∧ FreshAt seq s) ?_ hrun ⟨hhoused, h⟩
    rintro op s hleaves ⟨hhoused, hfresh⟩
    exact ⟨hhoused.step op, hfresh.step hhoused hleaves⟩
  exact hboth.2

/-- A mail that nothing settles while it waits is injected only while it is actionable, unread,
unresolved and not retracted. -/
theorem injects_outstanding {ops : List LiveOp} {clock : ℕ → ℕ}
    (hrun : Run.Guarded liveStep (LeavesWaiting seq) ops { db := { clock } })
    {mail : DeliveredMail} {current : Option DeliveredMail}
    (hstarted : .started mail current ∈ (liveRun ops { db := { clock } }).trace)
    (hseq : mail.seq = seq) : ∃ row, current = some row ∧ row.kind = .actionable ∧
      row.read = false ∧ row.resolved = false ∧ row.retracted = false := by
  have hempty : FreshAt seq { db := { clock } } :=
    ⟨fun _ _ hmail => absurd hmail List.not_mem_nil, fun _ _ h => absurd h List.not_mem_nil⟩
  have hfresh := liveRun_freshAt hrun (housed_fresh (.empty clock) []) hempty
  have hcurrent := hfresh.started mail current hstarted hseq
  cases current with
  | none => cases hcurrent
  | some row =>
    simp only [isInjectableActionable, Option.any_some, Bool.and_eq_true, beq_iff_eq,
      Bool.not_eq_true'] at hcurrent
    obtain ⟨⟨⟨hkind, hread⟩, hresolved⟩, hretracted⟩ := hcurrent
    exact ⟨row, rfl, hkind, hread, hresolved, hretracted⟩

/-- The builder asks the coordinator. -/
def portQuestion (subject : String) : MailEnvelope where
  type := .clarifyRequest
  «to» := "coordinator"
  «from» := "builder"
  subject
  body := "Which port?"

/-- Two questions, the second of them behind the first. -/
def asked : List LiveOp :=
  [.deliver (portQuestion "first") fun _ => {}, .deliver (portQuestion "second") fun _ => {}]

/-- The injection of the first succeeds, and the second has its turn. -/
def nextTurn : List LiveOp :=
  [.settle "coordinator" true true, .advance "coordinator" fun _ => {}]

/-- The second question, which is the third event of the log. -/
def secondQuestion : DeliveredMail := deliveredRow (portQuestion "second") 3 0

theorem injects_outstanding_of_nextTurn : ∃ row, some secondQuestion = some row ∧
    row.kind = .actionable ∧ row.read = false ∧ row.resolved = false ∧ row.retracted = false := by
  have hrun : Run.Guarded liveStep (LeavesWaiting 3) (asked ++ nextTurn) { db := .atRest } := by
    decide +kernel
  have hstarted : .started secondQuestion (some secondQuestion) ∈
      (liveRun (asked ++ nextTurn) { db := .atRest }).trace := by
    decide +kernel
  exact injects_outstanding hrun hstarted rfl

/-- The coordinator reads the second question while it waits, and it is injected all the same. -/
theorem injects_read_mail : ¬ ∀ mail current, .started mail current ∈ (liveRun
    (asked ++ .store (.markRead "coordinator" 3) rfl :: nextTurn) { db := .atRest }).trace →
      ∃ row, current = some row ∧ row.kind = .actionable ∧ row.read = false ∧
        row.resolved = false ∧ row.retracted = false := by
  intro h
  obtain ⟨row, hrow, -, hread, -⟩ := h secondQuestion (some { secondQuestion with read := true })
    (by decide +kernel)
  obtain rfl := Option.some.inj hrow
  cases hread

end Orchestration.Mail
