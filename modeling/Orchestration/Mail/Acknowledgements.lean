import Orchestration.Mail.Links

/-!
# Acknowledgements

The receipts by which a live delivery records that a wake or an injection
succeeded, as the fold keeps them. A flag that is set stays set, no other event
touches one, and an acknowledgement touches no mail.
-/

namespace Orchestration.Mail

open Fallible Transaction

/-- The log says that the mail was injected. -/
def Injected (t : MailTables) (seq : ℕ) : Bool :=
  (selectLiveDeliveryEffect t seq).any (·.injectSucceeded)

/-- What the log says of a mail after an acknowledgement of it. -/
def acknowledged (t : MailTables) (effect : MailLiveEffect) : LiveEffectRow where
  mailSeq := effect.seq
  wakeSucceeded := effect.wakeSucceeded || (selectLiveDeliveryEffect t effect.seq).any (·.wakeSucceeded)
  injectSucceeded := effect.injectSucceeded || Injected t effect.seq

@[simp] theorem liveEffects_updateWhere (t : MailTables) (update : RowUpdate)
    (p : DeliveredMail → Bool) : (t.updateWhere update p).liveEffects = t.liveEffects := rfl

theorem liveEffects_insertOrIgnore {t : MailTables} {row : DeliveredMail}
    {result : MailTables × Bool} (h : t.insertOrIgnore row = .ok result) :
    result.1.liveEffects = t.liveEffects := by
  unfold MailTables.insertOrIgnore at h
  split at h
  · cases h
    rfl
  · split at h
    · cases h
    · cases h
      rfl

@[simp] theorem liveEffects_recompute (t : MailTables) (closer : DeliveredMail) :
    (recomputeResolvedAfterRetractingCloser t closer).liveEffects = t.liveEffects := by
  simp only [recomputeResolvedAfterRetractingCloser]
  repeat' split
  all_goals rfl

/-- An event that acknowledges nothing leaves the flags alone. -/
theorem liveEffects_of_apply {t t' : MailTables} {event : StoredEvent MailEvent}
    (hpayload : ∀ effect, event.payload ≠ .liveEffect effect)
    (h : MailProjector.apply t event = .ok t') : t'.liveEffects = t.liveEffects := by
  unfold MailProjector.apply at h
  split at h
  · simp only [applyMail, bind_eq_ok] at h
    obtain ⟨_, -, _, -, ⟨mid, changed⟩, hinsert, h⟩ := h
    have hmid := liveEffects_insertOrIgnore hinsert
    cases changed with
    | true =>
      obtain rfl := pure_eq_ok.1 h
      exact hmid
    | false =>
      obtain rfl := pure_eq_ok.1 h
      exact hmid
  · simp only [applyReadReceipt, bind_eq_ok, pure_eq_ok] at h
    obtain ⟨_, -, rfl⟩ := h
    rfl
  · simp only [applyForwardReceipt, MailTables.insertLink, bind_eq_ok, pure_eq_ok] at h
    obtain ⟨-, -, -, -, -, -, -, -, -, -, -, -, -, -, _, -, rfl⟩ := h
    rfl
  · simp only [applyRetractReceipt, bind_eq_ok, pure_eq_ok] at h
    obtain ⟨-, -, -, -, -, -, -, -, -, -, rfl⟩ := h
    rw [liveEffects_recompute, liveEffects_updateWhere]
  · simp only [applyRecipientClearedReceipt, bind_eq_ok, pure_eq_ok] at h
    obtain ⟨-, -, -, -, rfl⟩ := h
    rfl
  · simp only [applyRecipientSenderClearedReceipt, bind_eq_ok, pure_eq_ok] at h
    obtain ⟨-, -, -, -, rfl⟩ := h
    rfl
  · next effect hlive => exact absurd hlive (hpayload effect)

/-- An acknowledgement sets the flags of its mail, and of no other. -/
theorem select_of_apply {t t' : MailTables} {event : StoredEvent MailEvent}
    {effect : MailLiveEffect} (hpayload : event.payload = .liveEffect effect)
    (h : MailProjector.apply t event = .ok t') (seq : ℕ) :
    selectLiveDeliveryEffect t' seq =
      if seq = effect.seq then some (acknowledged t effect) else selectLiveDeliveryEffect t seq := by
  simp only [MailProjector.apply, hpayload, applyLiveEffectReceipt, bind_eq_ok, pure_eq_ok] at h
  obtain ⟨-, -, -, -, rfl⟩ := h
  simp only [selectLiveDeliveryEffect, Table.find?_upsert, acknowledged, Injected]
  split
  · next hseq =>
    subst hseq
    cases hfind : t.liveEffects.find? effect.seq with
    | none => simp
    | some row =>
      obtain ⟨-, hkey⟩ := Table.find?_eq_some.1 hfind
      simp [← hkey]
  · rfl

section

variable {db db' : Db} {event : NewEvent Payload}

theorem liveEffects_of_commit (hevent : Unacknowledging event) (h : db.commit event = .ok db') :
    db'.mail.liveEffects = db.mail.liveEffects := by
  cases hpayload : event.payload with
  | mail payload =>
    obtain ⟨payload', hschema, happly⟩ := apply_of_commit hpayload h
    refine liveEffects_of_apply (fun effect heffect => ?_) happly
    have hreceipt : ∀ type p, payload ≠ .mail type p := by
      rintro type p rfl
      simp only [mailSchemas, bind_eq_ok, pure_eq_ok] at hschema
      obtain ⟨_, -, rfl⟩ := hschema
      simp [StoredEvent.withPayload] at heffect
    obtain rfl := mailSchemas_receipt hreceipt hschema
    exact hevent effect (hpayload.trans (congrArg Payload.mail heffect))
  | _ => rw [mail_of_commit (by simp [hpayload]) h]

theorem injected_of_commit (hevent : Unacknowledging event) (h : db.commit event = .ok db')
    (seq : ℕ) : Injected db'.mail seq = Injected db.mail seq := by
  rw [Injected, Injected, selectLiveDeliveryEffect, selectLiveDeliveryEffect,
    liveEffects_of_commit hevent h]

/-- What acknowledges nothing changes nothing about which mail was injected. -/
theorem injected_of_emits (h : Emits (fun _ event => Unacknowledging event) db db') (seq : ℕ) :
    Injected db'.mail seq = Injected db.mail seq :=
  h.preserves (fun s => Injected s.mail seq = Injected db.mail seq)
    (fun _ _ _ hevent hs hcommit => (injected_of_commit hevent hcommit seq).trans hs) rfl

/-- An acknowledgement that was persisted is the flags of its mail, and leaves the inbox alone. -/
theorem persistEffect_spec {effect : MailLiveEffect} {row : LiveEffectRow}
    (h : LiveDelivery.persistEffect effect db = .ok (row, db')) :
    Emits AnyEvent db db' ∧ db'.mail.inbox = db.mail.inbox ∧ row = acknowledged db.mail effect ∧
      ∀ seq, Injected db'.mail seq =
        (Injected db.mail seq || (effect.injectSucceeded && seq == effect.seq)) := by
  obtain ⟨_, mid, hmail, h⟩ := Tx.bind_eq_ok.1 h
  obtain ⟨e, he, -, hcommit⟩ := recordMail_eq_ok.1 hmail
  rw [reading_bind, Tx.liftM_eq_ok, orThrow_eq_ok] at h
  obtain ⟨hrow, rfl⟩ := h
  simp only [makeMailLiveEffectEvent, bind_eq_ok, pure_eq_ok] at he
  obtain ⟨payload, hmake, rfl⟩ := he
  obtain rfl := mailSchemas_receipt (by simp) hmake
  obtain ⟨payload', hschema, happly⟩ := apply_of_commit rfl hcommit
  obtain rfl := mailSchemas_receipt (by simp) hschema
  have hselect := select_of_apply rfl happly
  refine ⟨.single trivial hcommit, ?_, ?_, fun seq => ?_⟩
  · simp only [MailProjector.apply, StoredEvent.withPayload, applyLiveEffectReceipt, bind_eq_ok,
      pure_eq_ok] at happly
    obtain ⟨-, -, -, -, hmail⟩ := happly
    rw [← hmail]
  · rw [hselect, if_pos rfl] at hrow
    exact (Option.some.inj hrow).symm
  · rw [Injected, hselect]
    by_cases hseq : seq = effect.seq
    · subst hseq
      simp [acknowledged, Injected, Bool.or_comm]
    · simp [hseq, Injected]

end

end Orchestration.Mail
