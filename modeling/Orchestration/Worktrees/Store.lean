import Orchestration.Mail.Appends

/-!
# The worktree store

Sandboxes, baselines and finishes, each recorded by one transaction. A finish
can take the mail that reports it along: both are committed or neither is.
-/

namespace Orchestration.Worktrees

open Fallible Transaction
open Orchestration.Mail (MailEnvelope DeliveredMail MailEvent makeMailEvent selectMailBySeq)

/-- The projectors of a worktree store. -/
def worktreeProjectors : List Projector := [.worktrees]

/-- A worktree event as the project log carries it. -/
def toProject (event : NewEvent WorktreeEvent) : NewEvent Payload :=
  event.withPayload (.worktree event.payload)

/-- What every operation of the worktree store does first. -/
def ensureTables : StoreTx Unit := do
  let db ← get
  set { db with worktrees := ensureWorktreeTables (finishEvents db.events) db.worktrees }

/-- A read of the worktree tables. -/
def reading {α : Type} (read : WorktreeTables → α) : StoreTx α := do
  ensureTables
  let db ← get
  return read db.worktrees

theorem ensureTables_bind {db : Db} {α : Type} {f : Unit → StoreTx α} :
    (ensureTables >>= f) db = f () db := by
  simp only [ensureTables, ensureWorktreeTables_eq]
  rfl

theorem reading_bind {db : Db} {α β : Type} {read : WorktreeTables → α} {f : α → StoreTx β} :
    (reading read >>= f) db = f (read db.worktrees) db := by
  rw [reading, bind_assoc, ensureTables_bind]
  rfl

/-- Build a worktree event, append it, fold it and read a row back. -/
def recordAndRead {α : Type} (event : Except String (NewEvent WorktreeEvent))
    (read : WorktreeTables → Option α) (missing : String) : StoreTx α := do
  ensureTables
  let event ← event
  let _ ← record worktreeProjectors (toProject event)
  let row ← reading read
  orThrow row missing

/-! ## Operations -/

def recordWorktree (rec : WorktreeCreated) : StoreTx WorktreeRecord :=
  recordAndRead (makeWorktreeCreatedEvent rec) (selectWorktree · rec.branch)
    s!"openWorktreeStore.recordWorktree: row missing after projection (branch='{rec.branch}')"

def recordBaseline (b : BaselineCaptured) : StoreTx Baseline :=
  recordAndRead (makeBaselineCapturedEvent b) (selectBaseline · b.branch)
    s!"openWorktreeStore.recordBaseline: row missing after projection (branch='{b.branch}')"

/-- Record a sandbox and its baseline, together. -/
def recordWorktreeAndBaseline (rec : WorktreeCreated) (b : BaselineCaptured) :
    StoreTx (WorktreeRecord × Baseline) := do
  ensureTables
  let created ← makeWorktreeCreatedEvent rec
  let captured ← makeBaselineCapturedEvent b
  let _ ← recordAll worktreeProjectors ([created, captured].map toProject)
  let worktree ← reading (selectWorktree · rec.branch)
  let baseline ← reading (selectBaseline · b.branch)
  let missing : String :=
    "openWorktreeStore.recordWorktreeAndBaseline: row missing after projection " ++
      s!"(branch='{rec.branch}')"
  let worktree ← orThrow worktree missing
  let baseline ← orThrow baseline missing
  return (worktree, baseline)

def recordFinish (f : FinishRecorded) : StoreTx FinishRecord :=
  recordAndRead (makeFinishRecordedEvent f) (selectFinish · f.branch)
    s!"openWorktreeStore.recordFinish: row missing after projection (branch='{f.branch}')"

/-- A finish and its mail fold with the projectors of both. -/
def finishProjectors : List Projector := [.worktrees, .mail]

/-- Record a finish and the mail that reports it, together. -/
def recordFinishAndWorkerDone (f : FinishRecorded) (workerDone : MailEnvelope) :
    StoreTx (FinishRecord × DeliveredMail) := do
  ensureTables
  let finish ← makeFinishRecordedEvent f
  let mail ← makeMailEvent workerDone
  let stored ← recordAll finishProjectors [toProject finish, Mail.toProject mail]
  let finish ← reading (selectFinish · f.branch)
  let mail ← Mail.reading (selectMailBySeq · ((stored[1]?.map (·.seq)).getD 0))
  let missing : String :=
    "openWorktreeStore.recordFinishAndWorkerDone: row missing after projection " ++
      s!"(branch='{f.branch}')"
  let finish ← orThrow finish missing
  let mail ← orThrow mail missing
  return (finish, mail)

/-- Tear down a sandbox. `teardown` is what git and the file system make of the recorded sandbox:
it is removed, or the failure stops the operation before anything is recorded. -/
def removeWorktree (branch : String) (teardown : WorktreeRecord → Except String Unit) :
    StoreProc WorktreeRecord := do
  let recorded ← transaction (reading (selectWorktree · branch))
  let recorded ← orThrow recorded
    s!"openWorktreeStore.removeWorktree: no worktree recorded for branch '{branch}'."
  teardown recorded
  transaction
    (recordAndRead (makeWorktreeRemovedEvent branch) (selectWorktree · branch)
      s!"openWorktreeStore.removeWorktree: row missing after projection (branch='{branch}')")

/-! ## What the operations commit -/

/-- The store appends worktree events, and the mail that reports a finish. -/
def WorktreeEvents : EventClass := fun _ event =>
  (∃ payload, event.payload = .worktree payload) ∨
    ∃ type payload, event.payload = .mail (.mail type payload)

section

variable {db db' : Db}

theorem recordAndRead_spec {α : Type} {event : Except String (NewEvent WorktreeEvent)}
    {read : WorktreeTables → Option α} {missing : String} {row : α}
    (h : recordAndRead event read missing db = .ok (row, db')) :
    ∃ e, event = .ok e ∧ db.commit (toProject e) = .ok db' := by
  rw [recordAndRead, ensureTables_bind] at h
  obtain ⟨e, he, h⟩ := Tx.liftM_bind_eq_ok.1 h
  obtain ⟨_, mid, hrecord, h⟩ := Tx.bind_eq_ok.1 h
  rw [reading_bind, Tx.liftM_eq_ok] at h
  have howns : Owns worktreeProjectors (toProject e).payload := rfl
  exact ⟨e, he, h.2 ▸ ((record_eq_ok howns).1 hrecord).2⟩

theorem recordWorktreeAndBaseline_spec {rec : WorktreeCreated} {b : BaselineCaptured} {result}
    (h : recordWorktreeAndBaseline rec b db = .ok (result, db')) :
    ∃ created captured, makeWorktreeCreatedEvent rec = .ok created ∧
      makeBaselineCapturedEvent b = .ok captured ∧
      db.commitAll [toProject created, toProject captured] = .ok db' := by
  rw [recordWorktreeAndBaseline, ensureTables_bind] at h
  simp only [Tx.liftM_bind_eq_ok] at h
  obtain ⟨created, hcreated, captured, hcaptured, h⟩ := h
  obtain ⟨_, mid, hrecord, h⟩ := Tx.bind_eq_ok.1 h
  simp only [reading_bind, Tx.liftM_bind_eq_ok, Tx.pure_eq_ok] at h
  obtain ⟨_, -, _, -, -, rfl⟩ := h
  have howns : ∀ event ∈ [created, captured].map toProject,
      Owns worktreeProjectors event.payload := by
    intro event hevent
    obtain ⟨e, -, rfl⟩ := List.mem_map.1 hevent
    rfl
  exact ⟨created, captured, hcreated, hcaptured, (recordAll_commitAll howns hrecord).2⟩

/-- The row of a committed creation. -/
theorem selectWorktree_of_created {rec : WorktreeCreated} {e : NewEvent WorktreeEvent}
    (he : makeWorktreeCreatedEvent rec = .ok e) (h : db.commit (toProject e) = .ok db') :
    ∃ row, selectWorktree db'.worktrees rec.branch = some row ∧ row.removed = false ∧
      row.agent = rec.agent ∧ row.path = rec.path := by
  simp only [makeWorktreeCreatedEvent, bind_eq_ok, pure_eq_ok] at he
  obtain ⟨payload, hschema, rfl⟩ := he
  obtain rfl := worktreeSchemas_eq hschema
  obtain ⟨hfolded, -⟩ := folded_of_commit h
  generalize db'.toProjections = t at hfolded ⊢
  cases hfolded with
  | worktree hpayload hschema happly =>
    cases hpayload
    have hrows := WorktreeProjector.rows_of_apply happly
    rw [WorktreeTables.applyRows_eq] at hrows
    exact find?_applyCreated hrows
  | mail hpayload | review hpayload | usage hpayload | cost hpayload | placement hpayload
  | toolUsage hpayload | plan hpayload | roles hpayload | session hpayload | archive hpayload =>
    cases hpayload

/-- A committed baseline leaves the sandboxes alone. -/
theorem worktrees_of_captured {b : BaselineCaptured} {e : NewEvent WorktreeEvent}
    (he : makeBaselineCapturedEvent b = .ok e) (h : db.commit (toProject e) = .ok db') :
    db'.worktrees.worktrees = db.worktrees.worktrees := by
  simp only [makeBaselineCapturedEvent, bind_eq_ok, pure_eq_ok] at he
  obtain ⟨payload, hschema, rfl⟩ := he
  obtain rfl := worktreeSchemas_eq hschema
  obtain ⟨hfolded, -⟩ := folded_of_commit h
  generalize db'.toProjections = t at hfolded ⊢
  cases hfolded with
  | worktree hpayload hschema happly =>
    cases hpayload
    have hrows := WorktreeProjector.rows_of_apply happly
    rw [WorktreeTables.applyRows_eq] at hrows
    obtain ⟨baselines, -, hbaselines⟩ := bind_eq_ok.1 hrows
    rw [← pure_eq_ok.1 hbaselines]
  | mail hpayload | review hpayload | usage hpayload | cost hpayload | placement hpayload
  | toolUsage hpayload | plan hpayload | roles hpayload | session hpayload | archive hpayload =>
    cases hpayload

/-- A recorded sandbox is live. -/
theorem selectWorktree_of_recorded {rec : WorktreeCreated} {b : BaselineCaptured} {result}
    (h : recordWorktreeAndBaseline rec b db = .ok (result, db')) :
    ∃ row, selectWorktree db'.worktrees rec.branch = some row ∧ row.removed = false ∧
      row.agent = rec.agent ∧ row.path = rec.path := by
  obtain ⟨created, captured, hcreated, hcaptured, hcommit⟩ := recordWorktreeAndBaseline_spec h
  obtain ⟨mid, hmid, hrest⟩ := Db.commitAll_cons.1 hcommit
  obtain ⟨last, hlast, hnil⟩ := Db.commitAll_cons.1 hrest
  cases hnil
  rw [selectWorktree, worktrees_of_captured hcaptured hlast]
  exact selectWorktree_of_created hcreated hmid

theorem recordFinishAndWorkerDone_spec {f : FinishRecorded} {workerDone : MailEnvelope} {result}
    (h : recordFinishAndWorkerDone f workerDone db = .ok (result, db')) :
    ∃ finish mail, makeFinishRecordedEvent f = .ok finish ∧ makeMailEvent workerDone = .ok mail ∧
      db.commitAll [toProject finish, Mail.toProject mail] = .ok db' := by
  rw [recordFinishAndWorkerDone, ensureTables_bind] at h
  simp only [Tx.liftM_bind_eq_ok] at h
  obtain ⟨finish, hfinish, mail, hmail, h⟩ := h
  obtain ⟨stored, mid, hrecord, h⟩ := Tx.bind_eq_ok.1 h
  simp only [reading_bind, Mail.reading_bind, Tx.liftM_bind_eq_ok, Tx.pure_eq_ok] at h
  obtain ⟨_, -, _, -, -, rfl⟩ := h
  have howns : ∀ event ∈ [toProject finish, Mail.toProject mail],
      Owns finishProjectors event.payload := by
    intro event hevent
    rcases List.mem_cons.1 hevent with rfl | hevent
    · rfl
    · rw [List.mem_singleton.1 hevent]
      rfl
  exact ⟨finish, mail, hfinish, hmail, (recordAll_commitAll howns hrecord).2⟩

/-- Nothing happened, or the removal of `branch` was committed. -/
def Removes (branch : String) (db db' : Db) : Prop :=
  db' = db ∨ ∃ e, makeWorktreeRemovedEvent branch = .ok e ∧ db.commit (toProject e) = .ok db'

theorem readOnly_reading {α : Type} {read : WorktreeTables → α} :
    Proc.ReadOnly (transaction (reading read) : StoreProc α) := by
  refine Proc.readOnly_transaction fun s row s' h => ?_
  rw [← bind_pure (reading _), reading_bind, Tx.pure_eq_ok] at h
  exact h.2.symm

theorem removeWorktree_spec {branch : String} {teardown : WorktreeRecord → Except String Unit} :
    Removes branch db ((removeWorktree branch teardown).exec db) := by
  have hrefl : Removes branch db db := .inl rfl
  refine Proc.exec_bind ?_ ?_
  · intro e s' h
    exact .inl (readOnly_reading.atomic db e s' h)
  · intro recorded s' h
    obtain rfl : s' = db := by
      have hexec := @readOnly_reading _ (selectWorktree · branch) db
      rwa [Proc.exec, h] at hexec
    refine Proc.exec_liftM_bind hrefl fun _ _ => Proc.exec_liftM_bind hrefl fun _ _ => ?_
    exact Proc.exec_transaction hrefl fun row last hlast => .inr (recordAndRead_spec hlast)

end

/-! ## Calls -/

/-- A call of the worktree store. -/
inductive WorktreeCall where
  | recordWorktree (rec : WorktreeCreated)
  | recordBaseline (b : BaselineCaptured)
  | recordWorktreeAndBaseline (rec : WorktreeCreated) (b : BaselineCaptured)
  | recordFinish (f : FinishRecorded)
  | recordFinishAndWorkerDone (f : FinishRecorded) (workerDone : MailEnvelope)
  | removeWorktree (branch : String) (teardown : WorktreeRecord → Except String Unit)
  | read

/-- The database after a call. -/
def WorktreeCall.exec : WorktreeCall → Db → Db
  | recordWorktree rec => (transaction (Worktrees.recordWorktree rec)).exec
  | recordBaseline b => (transaction (Worktrees.recordBaseline b)).exec
  | recordWorktreeAndBaseline rec b => (transaction (Worktrees.recordWorktreeAndBaseline rec b)).exec
  | recordFinish f => (transaction (Worktrees.recordFinish f)).exec
  | recordFinishAndWorkerDone f workerDone =>
    (transaction (Worktrees.recordFinishAndWorkerDone f workerDone)).exec
  | removeWorktree branch teardown => (Worktrees.removeWorktree branch teardown).exec
  | read => (transaction ensureTables).exec

theorem WorktreeCall.exec_emits {db : Db} (call : WorktreeCall) :
    Emits WorktreeEvents db (call.exec db) := by
  have hevent : ∀ {db : Db} (e : NewEvent WorktreeEvent), WorktreeEvents db (toProject e) :=
    fun e => .inl ⟨e.payload, rfl⟩
  have hone : ∀ {α : Type} {event : Except String (NewEvent WorktreeEvent)}
      {read : WorktreeTables → Option α} {missing : String} {row : α} {db' : Db},
      recordAndRead event read missing db = .ok (row, db') → Emits WorktreeEvents db db' := by
    intro α event read missing row db' h
    obtain ⟨e, -, hcommit⟩ := recordAndRead_spec h
    exact Emits.single (hevent e) hcommit
  cases call with
  | recordWorktree rec => exact Proc.exec_transaction .refl fun _ _ h => hone h
  | recordBaseline b => exact Proc.exec_transaction .refl fun _ _ h => hone h
  | recordFinish f => exact Proc.exec_transaction .refl fun _ _ h => hone h
  | recordWorktreeAndBaseline rec b =>
    refine Proc.exec_transaction .refl fun result db' h => ?_
    obtain ⟨created, captured, -, -, hcommit⟩ := recordWorktreeAndBaseline_spec h
    refine Emits.of_commitAll (fun e he s => ?_) hcommit
    rcases List.mem_cons.1 he with rfl | he
    · exact hevent created
    · exact List.mem_singleton.1 he ▸ hevent captured
  | recordFinishAndWorkerDone f workerDone =>
    refine Proc.exec_transaction .refl fun result db' h => ?_
    obtain ⟨finish, mail, -, hmail, hcommit⟩ := recordFinishAndWorkerDone_spec h
    refine Emits.of_commitAll (fun e he s => ?_) hcommit
    rcases List.mem_cons.1 he with rfl | he
    · exact hevent finish
    · simp only [makeMailEvent, bind_eq_ok, pure_eq_ok] at hmail
      obtain ⟨payload, -, rfl⟩ := hmail
      exact List.mem_singleton.1 he ▸ .inr ⟨_, payload, rfl⟩
  | removeWorktree branch teardown =>
    rcases @removeWorktree_spec db branch teardown with hsame | ⟨e, -, hcommit⟩
    · change Emits WorktreeEvents db ((Worktrees.removeWorktree branch teardown).exec db)
      rw [hsame]
    · exact Emits.single (hevent e) hcommit
  | read =>
    refine Proc.exec_transaction .refl fun result db' h => ?_
    rw [← bind_pure ensureTables, ensureTables_bind, Tx.pure_eq_ok] at h
    exact h.2 ▸ .refl

end Orchestration.Worktrees
