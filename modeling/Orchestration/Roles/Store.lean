import Orchestration.Store.Log

/-!
# The roster store

An agent is recorded or removed in one transaction, which checks it against the
roster, appends the event and folds it.
-/

namespace Orchestration.Roles

open Fallible Transaction

/-- The projectors of a roster store. -/
def rosterProjectors : List Projector := [.roster]

/-- A roster event as the project log carries it. -/
def toProject (event : NewEvent RolesEvent) : NewEvent Payload :=
  event.withPayload (.roles event.payload)

/-- Record a registration; an agent registered so already is handed back. -/
def recordAgent (rec : AgentRegistered) : StoreTx AgentRecord := do
  let db ← get
  match ← validateAgentRegistration db.roster rec with
  | some existing => return existing
  | none =>
    let event ← makeAgentRegisteredEvent rec
    let _ ← record rosterProjectors (toProject event)
    let db ← get
    orThrow (selectAgent db.roster rec.agentId)
      s!"openRosterStore.recordAgent: row missing after projection (agentId='{rec.agentId}')"

/-- Remove a registered agent that is nobody's parent. -/
def removeAgent (agentId : String) : StoreTx AgentRecord := do
  let db ← get
  let existing ← validateAgentRemoval db.roster agentId
  let event ← makeAgentRemovedEvent agentId
  let _ ← record rosterProjectors (toProject event)
  let db ← get
  refuse (selectAgent db.roster agentId).isSome
    s!"openRosterStore.removeAgent: row remained after projection (agentId='{agentId}')"
  return existing

/-! ## What the operations commit -/

/-- The store appends nothing but roster events. -/
def RosterEvents : EventClass := fun _ event => ∃ payload, event.payload = .roles payload

/-- Recording a roster event with the store's projectors is committing it. -/
theorem record_roster {event : NewEvent RolesEvent} {db db' : Db} {stored : StoredEvent Payload}
    (h : record rosterProjectors (toProject event) db = .ok (stored, db')) :
    db.commit (toProject event) = .ok db' := by
  have howns : Owns rosterProjectors (toProject event).payload := rfl
  exact ((record_eq_ok howns).1 h).2

theorem recordAgent_spec {rec : AgentRegistered} {db db' : Db} {row : AgentRecord}
    (h : recordAgent rec db = .ok (row, db')) : Emits RosterEvents db db' := by
  rw [recordAgent, Tx.get_bind] at h
  obtain ⟨checked, -, h⟩ := Tx.liftM_bind_eq_ok.1 h
  cases checked with
  | some existing =>
    rw [Tx.pure_eq_ok] at h
    exact h.2 ▸ .refl
  | none =>
    obtain ⟨event, -, h⟩ := Tx.liftM_bind_eq_ok.1 h
    obtain ⟨_, mid, hrecord, h⟩ := Tx.bind_eq_ok.1 h
    rw [Tx.get_bind, Tx.liftM_eq_ok] at h
    exact h.2 ▸ Emits.single ⟨_, rfl⟩ (record_roster hrecord)

/-- The row of a committed registration. -/
theorem selectAgent_of_registered {rec : AgentRegistered} {e : NewEvent RolesEvent} {db db' : Db}
    (he : makeAgentRegisteredEvent rec = .ok e) (h : db.commit (toProject e) = .ok db') :
    ∃ row, selectAgent db'.roster rec.agentId = some row ∧ row.parent = rec.parent ∧
      row.role = rec.role := by
  simp only [makeAgentRegisteredEvent, bind_eq_ok, pure_eq_ok] at he
  obtain ⟨-, -, rfl⟩ := he
  obtain ⟨hfolded, -⟩ := folded_of_commit h
  generalize db'.toProjections = t at hfolded ⊢
  cases hfolded with
  | roles hpayload hschema happly =>
    cases hpayload
    obtain ⟨checked, hchecked, happly⟩ := bind_eq_ok.1 happly
    cases checked with
    | some existing =>
      rw [← pure_eq_ok.1 happly]
      exact validateAgentRegistration_again hchecked
    | none =>
      obtain ⟨roster, hinsert, happly⟩ := bind_eq_ok.1 happly
      rw [orThrow_eq_ok] at hinsert
      rw [← pure_eq_ok.1 happly, selectAgent, Table.find?_insert? hinsert, if_pos rfl]
      exact ⟨_, rfl, rfl, rfl⟩
  | mail hpayload | review hpayload | worktree hpayload | usage hpayload | cost hpayload
  | placement hpayload | toolUsage hpayload | plan hpayload | session hpayload
  | archive hpayload => cases hpayload

/-- A recorded agent is in the roster as it was registered. -/
theorem selectAgent_of_recorded {rec : AgentRegistered} {db db' : Db} {row : AgentRecord}
    (h : recordAgent rec db = .ok (row, db')) :
    ∃ row, selectAgent db'.roster rec.agentId = some row ∧ row.parent = rec.parent ∧
      row.role = rec.role := by
  rw [recordAgent, Tx.get_bind] at h
  obtain ⟨checked, hchecked, h⟩ := Tx.liftM_bind_eq_ok.1 h
  cases checked with
  | some existing =>
    rw [Tx.pure_eq_ok] at h
    exact h.2 ▸ validateAgentRegistration_again hchecked
  | none =>
    obtain ⟨event, hevent, h⟩ := Tx.liftM_bind_eq_ok.1 h
    obtain ⟨_, mid, hrecord, h⟩ := Tx.bind_eq_ok.1 h
    rw [Tx.get_bind, Tx.liftM_eq_ok] at h
    exact h.2 ▸ selectAgent_of_registered hevent (record_roster hrecord)

/-- Every agent of a roster has a parent. -/
theorem parent_ne_of_consistent {db : Db} (h : Consistent db) :
    ∀ row ∈ db.roster.roster.rows, row.parent ≠ "" := by
  refine foldEvents_induction (fun _ t => ∀ row ∈ t.roster.roster.rows, row.parent ≠ "") ?_ ?_
    h.replayed
  · intro row hrow
    exact absurd hrow List.not_mem_nil
  · intro events t event t' ht hfold row hrow
    cases foldEvent_roster hfold with
    | inr hother =>
      rw [hother.2] at hrow
      exact ht row hrow
    | inl hroster =>
      obtain ⟨payload, -, hschema, happly⟩ := hroster
      cases payload with
      | removed agentId =>
        obtain ⟨_, -, happly⟩ := bind_eq_ok.1 happly
        rw [← pure_eq_ok.1 happly] at hrow
        exact ht row (Table.mem_filter.1 hrow).1
      | registered rec =>
        obtain ⟨checked, -, happly⟩ := bind_eq_ok.1 happly
        cases checked with
        | some existing =>
          rw [← pure_eq_ok.1 happly] at hrow
          exact ht row hrow
        | none =>
          obtain ⟨roster, hinsert, happly⟩ := bind_eq_ok.1 happly
          rw [← pure_eq_ok.1 happly] at hrow
          change row ∈ roster.rows at hrow
          rw [(Table.insert?_eq_some.1 (orThrow_eq_ok.1 hinsert)).2] at hrow
          cases List.mem_append.1 hrow with
          | inl hold => exact ht row hold
          | inr hnew =>
            obtain rfl := List.mem_singleton.1 hnew
            obtain ⟨_, hvalid, -⟩ := bind_eq_ok.1 hschema
            simp only [agentRegisteredSchema, bind_eq_ok, minLength1_eq_ok] at hvalid
            obtain ⟨-, -, -, -, -, -, hparent⟩ := hvalid
            exact hparent

/-- A removal that returns committed one event for an agent that passed the check. -/
theorem removeAgent_spec {agentId : String} {db db' : Db} {row : AgentRecord}
    (h : removeAgent agentId db = .ok (row, db')) : Emits RosterEvents db db' := by
  rw [removeAgent, Tx.get_bind] at h
  obtain ⟨existing, -, h⟩ := Tx.liftM_bind_eq_ok.1 h
  obtain ⟨event, -, h⟩ := Tx.liftM_bind_eq_ok.1 h
  obtain ⟨_, mid, hrecord, h⟩ := Tx.bind_eq_ok.1 h
  rw [Tx.get_bind] at h
  obtain ⟨_, -, h⟩ := Tx.liftM_bind_eq_ok.1 h
  rw [Tx.pure_eq_ok] at h
  exact h.2 ▸ Emits.single ⟨_, rfl⟩ (record_roster hrecord)

/-- A registration takes no row away. -/
theorem recordAgent_keeps {rec : AgentRegistered} {db db' : Db} {row : AgentRecord}
    (h : recordAgent rec db = .ok (row, db')) :
    db'.sessions = db.sessions ∧ ∀ agentId, (selectAgent db.roster agentId).isSome = true →
      (selectAgent db'.roster agentId).isSome = true := by
  have hemits := recordAgent_spec h
  have hsessions : db.toProjections.Same db'.toProjections .session :=
    hemits.same fun s event hevent => by
      obtain ⟨payload, hpayload⟩ := hevent
      rw [hpayload]
      exact fun heq => nomatch heq
  refine ⟨hsessions, fun agentId hsome => ?_⟩
  rw [recordAgent, Tx.get_bind] at h
  obtain ⟨checked, -, h⟩ := Tx.liftM_bind_eq_ok.1 h
  cases checked with
  | some existing =>
    rw [Tx.pure_eq_ok] at h
    rwa [← h.2]
  | none =>
    obtain ⟨event, hevent, h⟩ := Tx.liftM_bind_eq_ok.1 h
    obtain ⟨_, mid, hrecord, h⟩ := Tx.bind_eq_ok.1 h
    rw [Tx.get_bind, Tx.liftM_eq_ok] at h
    rw [h.2]
    obtain ⟨-, t, hfold, rfl⟩ := commit_eq_ok.1 (record_roster hrecord)
    cases foldEvent_roster hfold with
    | inr hother =>
      rw [← hother.2] at hsome
      exact hsome
    | inl hroster =>
      obtain ⟨payload, hpayload, -, happly⟩ := hroster
      simp only [makeAgentRegisteredEvent, bind_eq_ok, pure_eq_ok] at hevent
      obtain ⟨-, -, rfl⟩ := hevent
      cases hpayload
      obtain ⟨checked, -, happly⟩ := bind_eq_ok.1 happly
      show (selectAgent t.roster agentId).isSome = true
      cases checked with
      | some existing =>
        rw [← pure_eq_ok.1 happly]
        exact hsome
      | none =>
        obtain ⟨roster, hinsert, happly⟩ := bind_eq_ok.1 happly
        rw [← pure_eq_ok.1 happly, selectAgent, Table.find?_insert? (orThrow_eq_ok.1 hinsert)]
        split
        · rfl
        · exact hsome

/-- A removal takes one row away. -/
theorem removeAgent_keeps {agentId : String} {db db' : Db} {row : AgentRecord}
    (h : removeAgent agentId db = .ok (row, db')) :
    db'.sessions = db.sessions ∧ ∀ other, other ≠ agentId →
      selectAgent db'.roster other = selectAgent db.roster other := by
  have hsessions : db.toProjections.Same db'.toProjections .session :=
    (removeAgent_spec h).same fun s event hevent => by
      obtain ⟨payload, hpayload⟩ := hevent
      rw [hpayload]
      exact fun heq => nomatch heq
  refine ⟨hsessions, fun other hne => ?_⟩
  rw [removeAgent, Tx.get_bind] at h
  obtain ⟨existing, -, h⟩ := Tx.liftM_bind_eq_ok.1 h
  obtain ⟨event, hevent, h⟩ := Tx.liftM_bind_eq_ok.1 h
  obtain ⟨_, mid, hrecord, h⟩ := Tx.bind_eq_ok.1 h
  rw [Tx.get_bind] at h
  obtain ⟨_, -, h⟩ := Tx.liftM_bind_eq_ok.1 h
  rw [Tx.pure_eq_ok] at h
  rw [← h.2]
  obtain ⟨-, t, hfold, rfl⟩ := commit_eq_ok.1 (record_roster hrecord)
  cases foldEvent_roster hfold with
  | inr hother => exact congrArg (fun roster => selectAgent roster other) hother.2
  | inl hroster =>
    obtain ⟨payload, hpayload, -, happly⟩ := hroster
    simp only [makeAgentRemovedEvent, bind_eq_ok, pure_eq_ok] at hevent
    obtain ⟨-, -, rfl⟩ := hevent
    cases hpayload
    obtain ⟨_, -, happly⟩ := bind_eq_ok.1 happly
    show selectAgent t.roster other = _
    rw [← pure_eq_ok.1 happly, selectAgent, Table.find?_filter, selectAgent]
    cases hfind : db.roster.roster.find? other with
    | none => rfl
    | some row =>
      have hkey : row.agentId = other := (Table.find?_eq_some.1 hfind).2
      rw [Option.filter_some, if_pos]
      simpa [hkey] using hne

/-! ## Calls -/

/-- A call of the roster store. -/
inductive RosterCall where
  | recordAgent (rec : AgentRegistered)
  | removeAgent (agentId : String)
deriving DecidableEq, Repr

/-- The database after a call. -/
def RosterCall.exec : RosterCall → Db → Db
  | recordAgent rec => (transaction (Roles.recordAgent rec)).exec
  | removeAgent agentId => (transaction (Roles.removeAgent agentId)).exec

theorem RosterCall.exec_emits {db : Db} (call : RosterCall) :
    Emits RosterEvents db (call.exec db) := by
  cases call with
  | recordAgent rec => exact Proc.exec_transaction .refl fun _ _ h => recordAgent_spec h
  | removeAgent agentId => exact Proc.exec_transaction .refl fun _ _ h => removeAgent_spec h

end Orchestration.Roles
