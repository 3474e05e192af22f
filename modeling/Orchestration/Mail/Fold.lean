import Orchestration.Mail.Projector

/-!
# What one mail event does

Each branch of the fold, stated once by what it does to the rows and the links.
The invariants of the inbox are proved from these statements and never from the
fold itself.
-/

namespace Orchestration.Mail

open Fallible

theorem DeliveredMail.eq_of_seq_eq {t : MailTables} {a b : DeliveredMail} (ha : a ∈ t.inbox)
    (hb : b ∈ t.inbox) (h : a.seq = b.seq) : a = b := by
  by_contra hne
  have hsorted : t.inbox.Pairwise fun a b => a.seq ≠ b.seq :=
    t.inbox_sorted.imp fun hlt => Nat.ne_of_lt hlt
  have : Std.Symm fun a b : DeliveredMail => a.seq ≠ b.seq := ⟨fun _ _ hab => hab.symm⟩
  exact hsorted.forall ha hb hne h

theorem selectMailBySeq_eq_some {t : MailTables} {seq : ℕ} {mail : DeliveredMail} :
    selectMailBySeq t seq = some mail ↔ mail ∈ t.inbox ∧ mail.seq = seq := by
  unfold selectMailBySeq
  constructor
  · intro h
    exact ⟨List.mem_of_find?_eq_some h, by simpa using List.find?_some h⟩
  · rintro ⟨hmem, hseq⟩
    cases hfind : t.inbox.find? (·.seq == seq) with
    | none => exact absurd hseq (by simpa using List.find?_eq_none.1 hfind mail hmem)
    | some other =>
      have hother : other.seq = seq := by simpa using List.find?_some hfind
      rw [DeliveredMail.eq_of_seq_eq (List.mem_of_find?_eq_some hfind) hmem
        (hother.trans hseq.symm)]

theorem selectMailBySeq_eq_none {t : MailTables} {seq : ℕ} :
    selectMailBySeq t seq = none ↔ ∀ mail ∈ t.inbox, mail.seq ≠ seq := by
  simp [selectMailBySeq, List.find?_eq_none]

namespace MailTables

theorem mem_updateWhere {t : MailTables} {update : RowUpdate} {p : DeliveredMail → Bool}
    {mail : DeliveredMail} : mail ∈ (t.updateWhere update p).inbox ↔
      ∃ old ∈ t.inbox, mail = if p old then update.run old else old := by
  simp only [updateWhere, RowUpdate.onlyWhere, List.mem_map, eq_comm]

@[simp] theorem forwardLinks_updateWhere {t : MailTables} {update : RowUpdate}
    {p : DeliveredMail → Bool} : (t.updateWhere update p).forwardLinks = t.forwardLinks := rfl

theorem isHeld_iff {t : MailTables} {heldSeq : ℕ} :
    t.isHeld heldSeq = true ↔ ∃ link ∈ t.forwardLinks.rows, link.heldSeq = heldSeq := by
  simp [isHeld]

theorem insertOrIgnore_eq_ok {t t' : MailTables} {row : DeliveredMail} {changed : Bool}
    (h : t.insertOrIgnore row = .ok (t', changed)) :
    (changed = false ∧ t' = t ∧ ∃ old ∈ t.inbox, old.sameKey row = true) ∨
    (changed = true ∧ (∀ old ∈ t.inbox, old.sameKey row = false) ∧
      (∀ old ∈ t.inbox, old.seq ≠ row.seq) ∧ t'.forwardLinks = t.forwardLinks ∧
      ∀ mail, mail ∈ t'.inbox ↔ mail = row ∨ mail ∈ t.inbox) := by
  unfold insertOrIgnore at h
  split at h
  · next hkey =>
    cases h
    exact .inl ⟨rfl, rfl, hkey⟩
  · next hkey =>
    split at h
    · exact nomatch h
    · next hseq =>
      cases h
      have hne : ∀ old ∈ t.inbox, old.seq ≠ row.seq := by simpa using hseq
      refine .inr ⟨rfl, by simpa using hkey, hne, rfl, fun mail => ?_⟩
      simp only [List.mem_append, List.mem_cons, List.mem_filter, decide_eq_true_eq]
      constructor
      · rintro (⟨h, -⟩ | rfl | ⟨h, -⟩)
        · exact .inr h
        · exact .inl rfl
        · exact .inr h
      · rintro (rfl | h)
        · exact .inr (.inl rfl)
        · rcases Nat.lt_or_gt_of_ne (hne mail h) with hlt | hgt
          · exact .inl ⟨h, hlt⟩
          · exact .inr (.inr ⟨h, hgt⟩)

end MailTables

/-- What the arrival of `closer` makes of a row. -/
def answered (closer row : DeliveredMail) : DeliveredMail :=
  if closes row closer ∧ row.retracted = false then { row with resolved := true } else row

theorem kind_of_closes {item closer : DeliveredMail} (h : closes item closer = true) :
    item.kind = .actionable := by
  unfold closes at h
  refine completionPredicate_isSome_iff.1 ?_
  cases hp : completionPredicate item.type with
  | none => simp [hp] at h
  | some _ => rfl

theorem threadId_of_closes {item closer : DeliveredMail} (h : closes item closer = true) :
    closer.threadId = item.threadId := by
  obtain ⟨-, hthread, -, -⟩ := closes_threading h
  simp [DeliveredMail.threadId, threadOf, hthread]

/-- The rows that the fold of a mail resolves are the unretracted ones it answers. -/
theorem run_resolve {closer row : DeliveredMail} (hseq : row.seq ≠ closer.seq) :
    (RowUpdate.onlyWhere (.setResolved true) fun item =>
      isOpenActionableInThread closer.threadId closer.seq item && closes item closer).run row =
        answered closer row := by
  unfold answered RowUpdate.onlyWhere RowUpdate.setResolved
  by_cases hcloses : closes row closer = true
  · have hthread := threadId_of_closes hcloses
    have hkind := kind_of_closes hcloses
    cases hret : row.retracted <;> cases hres : row.resolved <;>
      simp [isOpenActionableInThread, hcloses, hthread, hkind, hret, hres, hseq]
    obtain ⟨_⟩ := row
    simp_all
  · simp [hcloses]

/-- What the forward receipt of `item` makes of a row. -/
def discharged (item row : DeliveredMail) : DeliveredMail :=
  if row.seq = item.seq then { row with resolved := true } else row

/-- What the withdrawal of `row` makes of a row. -/
def withdrawn (row old : DeliveredMail) : DeliveredMail :=
  if old.seq = row.seq then { old with retracted := true } else old

/-- The tables with `row` withdrawn and nothing decided anew yet. -/
def withRetracted (t : MailTables) (row : DeliveredMail) : MailTables :=
  t.updateWhere .setRetracted fun mail => mail.seq == row.seq && mail.sender == row.sender

/-- The row of a mail was added, and the open items it answers were resolved. -/
structure Added (t : MailTables) (closer : DeliveredMail) (t' : MailTables) : Prop where
  fresh : ∀ old ∈ t.inbox, old.sameKey closer = false
  seq_ne : ∀ old ∈ t.inbox, old.seq ≠ closer.seq
  mem : ∀ mail, mail ∈ t'.inbox ↔ mail = closer ∨ ∃ old ∈ t.inbox, mail = answered closer old
  links : t'.forwardLinks = t.forwardLinks

/-- One folded mail event, by what it did. -/
inductive Applied (t : MailTables) (event : StoredEvent MailEvent) : MailTables → Prop where
  | collapsed {type : MailType} {payload : MailPayload} {recipient sender : String}
      {old : DeliveredMail} (hpayload : event.payload = .mail type payload)
      (hscope : mailRecipientForScope event.scope = .ok recipient)
      (hactor : event.actor = some sender) (hold : old ∈ t.inbox)
      (hkey : old.sameKey (mailRow event recipient sender type payload) = true) :
      Applied t event t
  | added {type : MailType} {payload : MailPayload} {recipient sender : String}
      {t' : MailTables} (hpayload : event.payload = .mail type payload)
      (hscope : mailRecipientForScope event.scope = .ok recipient)
      (hactor : event.actor = some sender)
      (hadded : Added t (mailRow event recipient sender type payload) t') : Applied t event t'
  | read {seq : ℕ} {recipient : String} (hpayload : event.payload = .read seq) :
      Applied t event
        (t.updateWhere .setRead fun mail => mail.seq == seq && mail.recipient == recipient)
  | retracted {row : DeliveredMail} (hpayload : event.payload = .retracted row.seq)
      (hrow : row ∈ t.inbox) (hreview : isReviewMail row = false) :
      Applied t event (recomputeResolvedAfterRetractingCloser (withRetracted t row) row)
  | cleared {p : DeliveredMail → Bool}
      (hpayload : event.payload = .recipientCleared ∨
        ∃ sender, event.payload = .recipientSenderCleared sender)
      (hp : ∀ mail, p mail = true → mail.kind = .actionable ∧ isReviewMail mail = false) :
      Applied t event (t.updateWhere .setRetracted p)
  | forwarded {item forwarded : DeliveredMail} {forwardedTo : String} {t' : MailTables}
      (hpayload : event.payload = .forwarded item.seq forwardedTo)
      (hitem : item ∈ t.inbox) (hunretracted : item.retracted = false)
      (htype : item.type = .escalation ∨ item.type = .clarifyRequest)
      (hforwarded : (t.inbox.filter fun mail =>
        mail.sender == item.recipient && mail.recipient == forwardedTo &&
          mail.type == .escalation && mail.causationId == some (toString item.seq) &&
          mail.correlationId == some item.threadId).getLast? = some forwarded)
      (hheld : t.isHeld item.seq = false)
      (hinbox : ∀ mail, mail ∈ t'.inbox ↔ ∃ old ∈ t.inbox, mail = discharged item old)
      (hlinks : t'.forwardLinks.rows = t.forwardLinks.rows ++
        [⟨forwarded.seq, item.seq, item.recipient, forwardedTo⟩]) : Applied t event t'
  | liveEffect {effect : MailLiveEffect} {t' : MailTables}
      (hpayload : event.payload = .liveEffect effect) (hinbox : t'.inbox = t.inbox)
      (hlinks : t'.forwardLinks = t.forwardLinks) : Applied t event t'

theorem applied_mail {t t' : MailTables} {event : StoredEvent MailEvent} {type : MailType}
    {payload : MailPayload} (hpayload : event.payload = .mail type payload)
    (h : applyMail t event type payload = .ok t') : Applied t event t' := by
  simp only [applyMail, bind_eq_ok, orThrow_eq_ok] at h
  obtain ⟨sender, hactor, recipient, hscope, ⟨t₁, changed⟩, hinsert, h⟩ := h
  rcases MailTables.insertOrIgnore_eq_ok hinsert with
    ⟨rfl, rfl, old, hold, hkey⟩ | ⟨rfl, hfresh, hseq, hlinks, hinbox⟩
  · obtain rfl := pure_eq_ok.1 h
    exact .collapsed hpayload hscope hactor hold hkey
  · obtain rfl := pure_eq_ok.1 h
    refine .added hpayload hscope hactor ⟨hfresh, hseq, fun mail => ?_, hlinks⟩
    rw [MailTables.mem_updateWhere]
    constructor
    · rintro ⟨old, hold, rfl⟩
      rcases (hinbox old).1 hold with rfl | hold
      · exact .inl (if_neg (by simp [isOpenActionableInThread, mailRow]))
      · exact .inr ⟨old, hold, run_resolve (hseq old hold)⟩
    · rintro (rfl | ⟨old, hold, rfl⟩)
      · exact ⟨_, (hinbox _).2 (.inl rfl),
          (if_neg (by simp [isOpenActionableInThread, mailRow])).symm⟩
      · exact ⟨old, (hinbox old).2 (.inr hold), (run_resolve (hseq old hold)).symm⟩

theorem applied_retracted {t t' : MailTables} {event : StoredEvent MailEvent} {seq : ℕ}
    (hpayload : event.payload = .retracted seq)
    (h : applyRetractReceipt t event seq = .ok t') : Applied t event t' := by
  simp only [applyRetractReceipt, bind_eq_ok, orThrow_eq_ok, refuse_eq_ok, pure_eq_ok,
    Decidable.not_not] at h
  obtain ⟨sender, -, -, -, row, hrow, -, rfl, -, hreview, rfl⟩ := h
  obtain ⟨hmem, rfl⟩ := selectMailBySeq_eq_some.1 hrow
  exact .retracted hpayload hmem (by simpa using hreview)

theorem applied_forwarded {t t' : MailTables} {event : StoredEvent MailEvent} {seq : ℕ}
    {forwardedTo : String} (hpayload : event.payload = .forwarded seq forwardedTo)
    (h : applyForwardReceipt t event seq forwardedTo = .ok t') : Applied t event t' := by
  simp only [applyForwardReceipt, bind_eq_ok, orThrow_eq_ok, refuse_eq_ok, not_or,
    Decidable.not_not, not_and_or, Bool.not_eq_true] at h
  obtain ⟨holder, -, -, -, item, hitem, -, ⟨rfl, hkind, hunretracted⟩, -, htype, forwarded,
    hforwarded, -, hheld, hlink⟩ := h
  obtain ⟨hmem, rfl⟩ := selectMailBySeq_eq_some.1 hitem
  obtain ⟨links, hinsert, hpure⟩ := bind_eq_ok.1 hlink
  rw [orThrow_eq_ok] at hinsert
  obtain rfl := pure_eq_ok.1 hpure
  refine .forwarded hpayload hmem hunretracted htype hforwarded hheld (fun mail => ?_)
    (Table.insert?_eq_some.1 hinsert).2
  change mail ∈ (t.updateWhere _ _).inbox ↔ _
  simp only [MailTables.mem_updateWhere]
  refine exists_congr fun old => and_congr_right fun hold => ?_
  unfold discharged
  by_cases hseq : old.seq = item.seq
  · obtain rfl := DeliveredMail.eq_of_seq_eq hold hmem hseq
    simp [hkind, RowUpdate.setResolved]
  · simp [hseq]

/-- The fold of a mail event does one of these things. -/
theorem applied_of_apply {t t' : MailTables} {event : StoredEvent MailEvent}
    (h : MailProjector.apply t event = .ok t') : Applied t event t' := by
  unfold MailProjector.apply at h
  split at h
  · next hpayload => exact applied_mail hpayload h
  · next seq hpayload =>
    simp only [applyReadReceipt, bind_eq_ok, pure_eq_ok] at h
    obtain ⟨recipient, -, rfl⟩ := h
    exact .read hpayload
  · next hpayload => exact applied_forwarded hpayload h
  · next hpayload => exact applied_retracted hpayload h
  · next hpayload =>
    simp only [applyRecipientClearedReceipt, bind_eq_ok, pure_eq_ok] at h
    obtain ⟨recipient, -, -, -, rfl⟩ := h
    refine .cleared (.inl hpayload) fun mail hmail => ?_
    simp only [Bool.and_eq_true, beq_iff_eq, Bool.not_eq_true'] at hmail
    exact ⟨hmail.1.1.2, hmail.2⟩
  · next sender hpayload =>
    simp only [applyRecipientSenderClearedReceipt, bind_eq_ok, pure_eq_ok] at h
    obtain ⟨recipient, -, -, -, rfl⟩ := h
    refine .cleared (.inr ⟨sender, hpayload⟩) fun mail hmail => ?_
    simp only [Bool.and_eq_true, beq_iff_eq, Bool.not_eq_true'] at hmail
    exact ⟨hmail.1.1.2, hmail.2⟩
  · next effect hpayload =>
    simp only [applyLiveEffectReceipt, bind_eq_ok, pure_eq_ok] at h
    obtain ⟨-, -, -, -, rfl⟩ := h
    exact .liveEffect hpayload rfl rfl

/-! ## Reopening -/

/-- `closer` names `item` as its cause, in any spelling of its number. -/
def namesCause (closer item : DeliveredMail) : Prop :=
  closer.causationId.bind Js.safeInteger? = some (item.seq : ℤ)

instance (closer item : DeliveredMail) : Decidable (namesCause closer item) :=
  inferInstanceAs (Decidable (_ = _))

/-- Whether `item` is discharged without the withdrawn `closer`. -/
def stillDischarged (t : MailTables) (closer item : DeliveredMail) : Bool :=
  (t.deleteLink closer.seq).isHeld item.seq || t.inbox.any fun candidate =>
    candidate.seq != item.seq && !candidate.retracted && closes item candidate

/-- What the withdrawal of `closer` makes of a row: the item it names is decided anew. -/
def reopened (t : MailTables) (closer row : DeliveredMail) : DeliveredMail :=
  if namesCause closer row ∧ row.kind = .actionable ∧ row.retracted = false then
    { row with resolved := stillDischarged t closer row }
  else row

@[simp] theorem forwardLinks_recompute {t : MailTables} {closer : DeliveredMail} :
    (recomputeResolvedAfterRetractingCloser t closer).forwardLinks =
      (t.deleteLink closer.seq).forwardLinks := by
  unfold recomputeResolvedAfterRetractingCloser
  dsimp only
  repeat' first | rfl | split

theorem closes_eq_of_predicate {item candidate : DeliveredMail}
    {predicate : DeliveredMail → DeliveredMail → Bool}
    (h : completionPredicate item.type = some predicate) :
    predicate item candidate = closes item candidate := by
  simp [closes, h]

/-- Setting the flag of one row. -/
theorem mem_setResolved {t : MailTables} {item mail : DeliveredMail} {resolved : Bool}
    (hitem : item ∈ t.inbox) :
    mail ∈ (t.updateWhere (.setResolved resolved) (·.seq == item.seq)).inbox ↔
      ∃ old ∈ t.inbox, mail = if old = item then { old with resolved } else old := by
  rw [MailTables.mem_updateWhere]
  refine exists_congr fun old => and_congr_right fun hold => ?_
  by_cases hseq : old.seq = item.seq
  · obtain rfl := DeliveredMail.eq_of_seq_eq hold hitem hseq
    simp [RowUpdate.setResolved]
  · have hne : old ≠ item := fun h => hseq (congrArg DeliveredMail.seq h)
    simp [hseq, hne]

/-- A withdrawn mail reopens at most the item it names. -/
theorem mem_recompute {t : MailTables} {closer mail : DeliveredMail} :
    mail ∈ (recomputeResolvedAfterRetractingCloser t closer).inbox ↔
      ∃ old ∈ t.inbox, mail = reopened t closer old := by
  have hsame : (∀ old ∈ t.inbox,
      ¬ (namesCause closer old ∧ old.kind = .actionable ∧ old.retracted = false)) →
        (mail ∈ t.inbox ↔ ∃ old ∈ t.inbox, mail = reopened t closer old) := by
    intro hp
    constructor
    · intro hmail
      exact ⟨mail, hmail, (if_neg (hp mail hmail)).symm⟩
    · rintro ⟨old, hold, rfl⟩
      rwa [reopened, if_neg (hp old hold)]
  unfold recomputeResolvedAfterRetractingCloser
  dsimp only
  split
  · next hnone => exact hsame fun old _ h => by simp [namesCause, hnone] at h
  · next itemSeq hsome =>
    split
    · next hnone =>
      refine hsame fun old hold h => ?_
      have hne : (old.seq : ℤ) ≠ itemSeq := by simpa using List.find?_eq_none.1 hnone old hold
      exact hne (Option.some.inj (h.1.symm.trans hsome))
    · next item hfind =>
      have hitem : item ∈ t.inbox := List.mem_of_find?_eq_some hfind
      have hseq : (item.seq : ℤ) = itemSeq := by simpa using List.find?_some hfind
      have hnames : ∀ old ∈ t.inbox, namesCause closer old ↔ old = item := by
        intro old hold
        rw [namesCause, hsome, ← hseq]
        constructor
        · intro h
          exact DeliveredMail.eq_of_seq_eq hold hitem (by exact_mod_cast (Option.some.inj h).symm)
        · rintro rfl
          rfl
      split
      · next hskip =>
        refine hsame fun old hold h => ?_
        obtain rfl := (hnames old hold).1 h.1
        exact hskip.elim (fun hk => hk h.2.1) fun hr => by simp [h.2.2] at hr
      · next hopen =>
        obtain ⟨hkind, hret⟩ : item.kind = .actionable ∧ item.retracted = false := by
          simpa [not_or] using hopen
        have hrow : ∀ resolved, stillDischarged t closer item = resolved → ∀ old ∈ t.inbox,
            (if old = item then { old with resolved } else old) = reopened t closer old := by
          rintro _ rfl old hold
          unfold reopened
          by_cases heq : old = item
          · subst heq
            simp [hnames, hold, hkind, hret]
          · rw [if_neg heq, if_neg fun h => heq ((hnames old hold).1 h.1)]
        have hset : ∀ resolved, stillDischarged t closer item = resolved →
            (mail ∈ ((t.deleteLink closer.seq).updateWhere (.setResolved resolved)
              (·.seq == item.seq)).inbox ↔
                ∃ old ∈ t.inbox, mail = reopened t closer old) := by
          intro resolved hresolved
          rw [mem_setResolved (t := t.deleteLink closer.seq) hitem]
          exact exists_congr fun old => and_congr_right fun hold => by
            rw [hrow resolved hresolved old hold]
        split
        · next hheld => exact hset true (by simp [stillDischarged, hheld])
        · next hheld =>
          split
          · next hnone =>
            have hsome := completionPredicate_isSome_iff.2 hkind
            simp [hnone] at hsome
          · next predicate hpredicate =>
            refine hset _ ?_
            rw [stillDischarged, Bool.eq_false_iff.2 hheld, Bool.false_or]
            refine congrArg t.inbox.any (funext fun candidate => ?_)
            rw [closes_eq_of_predicate hpredicate]
            by_cases hcloses : closes item candidate = true
            · simp [hcloses, threadId_of_closes hcloses]
            · simp [hcloses]

/-! ## Rows stay -/

theorem fixed_answered (closer row : DeliveredMail) : (answered closer row).fixed = row.fixed := by
  unfold answered
  split <;> rfl

theorem fixed_reopened (t : MailTables) (closer row : DeliveredMail) :
    (reopened t closer row).fixed = row.fixed := by
  unfold reopened
  split <;> rfl

theorem mem_withRetracted {t : MailTables} {row mail : DeliveredMail} (hrow : row ∈ t.inbox) :
    mail ∈ (withRetracted t row).inbox ↔ ∃ old ∈ t.inbox, mail = withdrawn row old := by
  rw [withRetracted, MailTables.mem_updateWhere]
  refine exists_congr fun old => and_congr_right fun hold => ?_
  unfold withdrawn
  by_cases hseq : old.seq = row.seq
  · obtain rfl := DeliveredMail.eq_of_seq_eq hold hrow hseq
    simp [RowUpdate.setRetracted]
  · simp [hseq]

theorem fixed_withdrawn (row old : DeliveredMail) : (withdrawn row old).fixed = old.fixed := by
  unfold withdrawn
  split <;> rfl

theorem fixed_discharged (item row : DeliveredMail) :
    (discharged item row).fixed = row.fixed := by
  unfold discharged
  split <;> rfl

/-- Every fold maps the rows one by one, keeping their fixed columns, and may add the row of
the event. -/
theorem Applied.rows {t t' : MailTables} {event : StoredEvent MailEvent}
    (h : Applied t event t') :
    ∃ (f : DeliveredMail → DeliveredMail) (added : DeliveredMail → Prop),
      (∀ row, (f row).fixed = row.fixed) ∧
      (∀ row, added row → row.seq = event.seq ∧ ∃ type payload, event.payload = .mail type payload) ∧
      ∀ mail, mail ∈ t'.inbox ↔ added mail ∨ ∃ old ∈ t.inbox, mail = f old := by
  have hupdate : ∀ {update : RowUpdate} {p : DeliveredMail → Bool} {mail : DeliveredMail},
      mail ∈ (t.updateWhere update p).inbox ↔
        False ∨ ∃ old ∈ t.inbox, mail = (update.onlyWhere p).run old := by
    intro update p mail
    simp [MailTables.updateWhere, eq_comm]
  cases h with
  | collapsed => exact ⟨id, fun _ => False, fun _ => rfl, fun _ h => h.elim, by simp⟩
  | added hpayload hscope hactor hadded =>
    exact ⟨answered _, (· = _), fixed_answered _, by rintro _ rfl; exact ⟨rfl, _, _, hpayload⟩,
      hadded.mem⟩
  | read =>
    exact ⟨(RowUpdate.onlyWhere .setRead _).run, fun _ => False, RowUpdate.fixed_run _, fun _ h => h.elim,
      fun _ => hupdate⟩
  | @retracted row hpayload hrow hreview =>
    refine ⟨fun old => reopened (withRetracted t row) row (withdrawn row old), fun _ => False,
      fun old => (fixed_reopened _ _ _).trans (fixed_withdrawn row old), fun _ h => h.elim,
      fun mail => ?_⟩
    rw [mem_recompute, false_or]
    constructor
    · rintro ⟨mid, hmid, rfl⟩
      obtain ⟨old, hold, rfl⟩ := (mem_withRetracted hrow).1 hmid
      exact ⟨old, hold, rfl⟩
    · rintro ⟨old, hold, rfl⟩
      exact ⟨_, (mem_withRetracted hrow).2 ⟨old, hold, rfl⟩, rfl⟩
  | cleared =>
    exact ⟨(RowUpdate.onlyWhere .setRetracted _).run, fun _ => False, RowUpdate.fixed_run _,
      fun _ h => h.elim, fun _ => hupdate⟩
  | @forwarded item _ _ _ _ _ _ _ _ _ hinbox _ =>
    exact ⟨discharged item, fun _ => False, fixed_discharged item, fun _ h => h.elim, by simpa using hinbox⟩
  | liveEffect _ hinbox _ => exact ⟨id, fun _ => False, fun _ => rfl, fun _ h => h.elim, by simp [hinbox]⟩

end Orchestration.Mail
