import Orchestration.Store.Log

/-!
# The session store

A session is recorded or ended in one transaction, which checks it against the
active sessions, appends the event and folds it.
-/

namespace Orchestration.Session

open Fallible Transaction

/-- The projectors of a session store. -/
def sessionProjectors : List Projector := [.session]

/-- A session event as the project log carries it. -/
def toProject (event : NewEvent SessionEvent) : NewEvent Payload :=
  event.withPayload (.session event.payload)

def recordSession (rec : SessionCreated) : StoreTx SessionRecord := do
  let db ← get
  whenSome (ε := String) (selectSession db.sessions rec.agentId) fun existing =>
    throw (s!"openSessionStore.recordSession: agent '{rec.agentId}' already has an active " ++
      s!"session '{existing.pane}' — refusing duplicate host without an explicit session.ended " ++
      "event.")
  whenSome (ε := String) (selectSessionByPane db.sessions rec.pane) fun existingPane =>
    throw (s!"openSessionStore.recordSession: pane '{rec.pane}' is already hosted by agent " ++
      s!"'{existingPane.agentId}' — refusing duplicate pane claim by '{rec.agentId}'.")
  let event ← makeSessionCreatedEvent rec
  let _ ← record sessionProjectors (toProject event)
  let db ← get
  orThrow (selectSession db.sessions rec.agentId)
    s!"openSessionStore.recordSession: row missing after projection (agentId='{rec.agentId}')"

def endSession (agentId pane : String) : StoreTx SessionRecord := do
  let db ← get
  let existing ← orThrow (selectSession db.sessions agentId)
    s!"openSessionStore.endSession: agent '{agentId}' has no active session."
  refuse (existing.pane ≠ pane)
    (s!"openSessionStore.endSession: pane '{pane}' does not match active session " ++
      s!"'{existing.pane}' for agent '{agentId}'.")
  let event ← makeSessionEndedEvent { agentId, pane }
  let _ ← record sessionProjectors (toProject event)
  let db ← get
  refuse (selectSession db.sessions agentId).isSome
    s!"openSessionStore.endSession: row still active after projection (agentId='{agentId}')"
  return existing

/-! ## What the operations commit -/

/-- The store appends nothing but session events. -/
def SessionEvents : EventClass := fun _ event => ∃ payload, event.payload = .session payload

/-- Recording a session event with the store's projectors is committing it. -/
theorem record_session {event : NewEvent SessionEvent} {db db' : Db} {stored : StoredEvent Payload}
    (h : record sessionProjectors (toProject event) db = .ok (stored, db')) :
    db.commit (toProject event) = .ok db' := by
  have howns : Owns sessionProjectors (toProject event).payload := rfl
  exact ((record_eq_ok howns).1 h).2

theorem recordSession_spec {rec : SessionCreated} {db db' : Db} {row : SessionRecord}
    (h : recordSession rec db = .ok (row, db')) : Emits SessionEvents db db' := by
  rw [recordSession, Tx.get_bind] at h
  obtain ⟨_, -, h⟩ := Tx.liftM_bind_eq_ok.1 h
  obtain ⟨_, -, h⟩ := Tx.liftM_bind_eq_ok.1 h
  obtain ⟨event, -, h⟩ := Tx.liftM_bind_eq_ok.1 h
  obtain ⟨_, mid, hrecord, h⟩ := Tx.bind_eq_ok.1 h
  rw [Tx.get_bind, Tx.liftM_eq_ok] at h
  exact h.2 ▸ Emits.single ⟨_, rfl⟩ (record_session hrecord)

theorem endSession_spec {agentId pane : String} {db db' : Db} {row : SessionRecord}
    (h : endSession agentId pane db = .ok (row, db')) : Emits SessionEvents db db' := by
  rw [endSession, Tx.get_bind] at h
  obtain ⟨_, -, h⟩ := Tx.liftM_bind_eq_ok.1 h
  obtain ⟨_, -, h⟩ := Tx.liftM_bind_eq_ok.1 h
  obtain ⟨event, -, h⟩ := Tx.liftM_bind_eq_ok.1 h
  obtain ⟨_, mid, hrecord, h⟩ := Tx.bind_eq_ok.1 h
  rw [Tx.get_bind] at h
  obtain ⟨_, -, h⟩ := Tx.liftM_bind_eq_ok.1 h
  rw [Tx.pure_eq_ok] at h
  exact h.2 ▸ Emits.single ⟨_, rfl⟩ (record_session hrecord)

/-- The rows after a session began. -/
theorem rows_of_created {rec : SessionCreated} {e : NewEvent SessionEvent} {db db' : Db}
    (he : makeSessionCreatedEvent rec = .ok e) (h : db.commit (toProject e) = .ok db') :
    ∀ row ∈ db'.sessions.sessions.rows,
      row ∈ db.sessions.sessions.rows ∨ row.agentId = rec.agentId := by
  simp only [makeSessionCreatedEvent, bind_eq_ok, pure_eq_ok] at he
  obtain ⟨-, -, rfl⟩ := he
  obtain ⟨hfolded, -⟩ := folded_of_commit h
  generalize db'.toProjections = t at hfolded ⊢
  cases hfolded with
  | session hpayload happly =>
    cases hpayload
    obtain ⟨-, -, happly⟩ := bind_eq_ok.1 happly
    obtain ⟨-, -, happly⟩ := bind_eq_ok.1 happly
    obtain ⟨sessions, hinsert, happly⟩ := bind_eq_ok.1 happly
    rw [← pure_eq_ok.1 happly]
    intro row hrow
    rw [(Table.insert?_eq_some.1 (orThrow_eq_ok.1 hinsert)).2] at hrow
    cases List.mem_append.1 hrow with
    | inl hold => exact .inl hold
    | inr hnew =>
      obtain rfl := List.mem_singleton.1 hnew
      exact .inr rfl
  | mail hpayload | review hpayload | worktree hpayload | usage hpayload | cost hpayload
  | placement hpayload | toolUsage hpayload | plan hpayload | roles hpayload
  | archive hpayload => cases hpayload

/-- The rows after a session ended. -/
theorem rows_of_ended {rec : SessionEnded} {e : NewEvent SessionEvent} {db db' : Db}
    (he : makeSessionEndedEvent rec = .ok e) (h : db.commit (toProject e) = .ok db') :
    ∀ row ∈ db'.sessions.sessions.rows,
      row ∈ db.sessions.sessions.rows ∧ row.agentId ≠ rec.agentId := by
  simp only [makeSessionEndedEvent, bind_eq_ok, pure_eq_ok] at he
  obtain ⟨-, -, rfl⟩ := he
  obtain ⟨hfolded, -⟩ := folded_of_commit h
  generalize db'.toProjections = t at hfolded ⊢
  cases hfolded with
  | session hpayload happly =>
    cases hpayload
    obtain ⟨existing, hexisting, hrest⟩ := bind_eq_ok.1 happly
    obtain ⟨_, hpane, hrest⟩ := bind_eq_ok.1 hrest
    rw [← pure_eq_ok.1 hrest]
    intro row hrow
    obtain ⟨hold, hne⟩ := Table.mem_filter.1 hrow
    exact ⟨hold, by simpa using hne⟩
  | mail hpayload | review hpayload | worktree hpayload | usage hpayload | cost hpayload
  | placement hpayload | toolUsage hpayload | plan hpayload | roles hpayload
  | archive hpayload => cases hpayload

theorem recordSession_rows {rec : SessionCreated} {db db' : Db} {row : SessionRecord}
    (h : recordSession rec db = .ok (row, db')) :
    db'.roster = db.roster ∧ ∀ row ∈ db'.sessions.sessions.rows,
      row ∈ db.sessions.sessions.rows ∨ row.agentId = rec.agentId := by
  have hroster : db.toProjections.Same db'.toProjections .roster :=
    (recordSession_spec h).same fun s event hevent => by
      obtain ⟨payload, hpayload⟩ := hevent
      rw [hpayload]
      exact fun heq => nomatch heq
  refine ⟨hroster, ?_⟩
  rw [recordSession, Tx.get_bind] at h
  obtain ⟨_, -, h⟩ := Tx.liftM_bind_eq_ok.1 h
  obtain ⟨_, -, h⟩ := Tx.liftM_bind_eq_ok.1 h
  obtain ⟨event, hevent, h⟩ := Tx.liftM_bind_eq_ok.1 h
  obtain ⟨_, mid, hrecord, h⟩ := Tx.bind_eq_ok.1 h
  rw [Tx.get_bind, Tx.liftM_eq_ok] at h
  rw [h.2]
  exact rows_of_created hevent (record_session hrecord)

theorem endSession_rows {agentId pane : String} {db db' : Db} {row : SessionRecord}
    (h : endSession agentId pane db = .ok (row, db')) :
    db'.roster = db.roster ∧ ∀ row ∈ db'.sessions.sessions.rows,
      row ∈ db.sessions.sessions.rows ∧ row.agentId ≠ agentId := by
  have hroster : db.toProjections.Same db'.toProjections .roster :=
    (endSession_spec h).same fun s event hevent => by
      obtain ⟨payload, hpayload⟩ := hevent
      rw [hpayload]
      exact fun heq => nomatch heq
  refine ⟨hroster, ?_⟩
  rw [endSession, Tx.get_bind] at h
  obtain ⟨_, -, h⟩ := Tx.liftM_bind_eq_ok.1 h
  obtain ⟨_, -, h⟩ := Tx.liftM_bind_eq_ok.1 h
  obtain ⟨event, hevent, h⟩ := Tx.liftM_bind_eq_ok.1 h
  obtain ⟨_, mid, hrecord, h⟩ := Tx.bind_eq_ok.1 h
  rw [Tx.get_bind] at h
  obtain ⟨_, -, h⟩ := Tx.liftM_bind_eq_ok.1 h
  rw [Tx.pure_eq_ok] at h
  rw [← h.2]
  exact rows_of_ended hevent (record_session hrecord)

/-! ## Calls -/

/-- A call of the session store. -/
inductive SessionCall where
  | recordSession (rec : SessionCreated)
  | endSession (agentId pane : String)
deriving DecidableEq, Repr

/-- The database after a call. -/
def SessionCall.exec : SessionCall → Db → Db
  | recordSession rec => (transaction (Session.recordSession rec)).exec
  | endSession agentId pane => (transaction (Session.endSession agentId pane)).exec

theorem SessionCall.exec_emits {db : Db} (call : SessionCall) :
    Emits SessionEvents db (call.exec db) := by
  cases call with
  | recordSession rec => exact Proc.exec_transaction .refl fun _ _ h => recordSession_spec h
  | endSession agentId pane => exact Proc.exec_transaction .refl fun _ _ h => endSession_spec h

end Orchestration.Session
