import Orchestration.Conductor.SlingTool
import Orchestration.Plans.NewestBranch
import Orchestration.Plans.Readiness

/-!
# Work that counts as done

The readiness of a phase and the cap on children take a branch for merged when a `PASS` is stored
for it. The verdict is stored under the names of the branches only, so it stays when the branch
is finished again or created anew. Where no such branch has a standing `PASS`, what they count is
current work.
-/

namespace Orchestration.Replay

open Fallible
open Conductor (capChildren)
open Plans (InLogOrder ListedBefore NewestBranch PhaseStatusContext PhaseStatusOutput branchMerged
  created_of_foldEvents lastCreation lastCreation_concat lastCreation_concat_created
  lastCreation_mem newestBranch_of_resolve phaseStatusTool resolveAgentBranch selectPlan)
open Review (ReviewEvent ReviewRow ReviewTables Verdict)
open Worktrees (FinishRecorded WorktreeCreated WorktreeEvent)

/-! ## Current work -/

/-- The event creates the branch or finishes it. -/
def renews (branch : String) (event : StoredEvent Payload) : Bool :=
  match event.payload with
  | .worktree (.created rec) => rec.branch == branch
  | .worktree (.finish f) => f.branch == branch
  | _ => false

def recordsPass (target branch : String) (event : StoredEvent Payload) : Bool :=
  match event.payload with
  | .review (.verdict v) => v.verdict == .pass && v.target == target && v.branch == branch
  | _ => false

/-- A `PASS` was recorded after the branch was last created or finished. -/
def FreshPass (events : List (StoredEvent Payload)) (target branch : String) : Prop :=
  ∃ pass ∈ events, recordsPass target branch pass = true ∧
    ∀ renewal ∈ events, renews branch renewal = true → renewal.seq < pass.seq

instance (events : List (StoredEvent Payload)) (target branch : String) :
    Decidable (FreshPass events target branch) :=
  inferInstanceAs (Decidable (∃ pass ∈ events, _ ∧ _))

/-- The newest branch of the agent has a fresh `PASS`. -/
def CurrentlyMerged (db : Db) (target agent : String) : Prop :=
  ∃ branch, NewestBranch db.events agent branch ∧ FreshPass db.events target branch

/-- What is reported as ready, and what the cap counts as merged, is current work. -/
structure CountsOnlyCurrentWork (db : Db) : Prop where
  readiness : ∀ ctx taskId out, phaseStatusTool ctx taskId db = .ok out →
    ∃ plan, selectPlan db.plans taskId = some plan ∧
      ∀ row ∈ out.phases, row.ready = true → ∃ phase ∈ plan.phases,
        phase.phaseId = row.phaseId ∧ phase.verifiedPass = some true ∧
        ∀ owner, phase.owner = some owner → ∀ child ∈ db.roster.roster.rows,
          child.parent = owner → child.role ≠ .reviewer →
            ∃ target, NewestBranch db.events owner target ∧
              CurrentlyMerged db target child.agentId
  cap : ∀ parent target, ∀ child ∈ capChildren db parent,
    branchMerged db.review (some target) child.branch = true →
      CurrentlyMerged db target child.childId

/-! ## The guard -/

/-- A `PASS` is stored for the branch. -/
def Standing (db : Db) (branch : String) : Prop :=
  ∃ row ∈ db.review.reviews.rows, row.branch = branch ∧ row.verdict = some .pass

instance (db : Db) (branch : String) : Decidable (Standing db branch) :=
  inferInstanceAs (Decidable (∃ row ∈ _, _ ∧ _))

/-- Created now, the sandbox is listed after the others of its agent. -/
def ListedLast (db : Db) (rec : WorktreeCreated) : Prop :=
  ∀ row ∈ db.worktrees.worktrees.rows, row.agent.isSome = true → row.agent = rec.agent →
    row.branch ≠ rec.branch →
      ListedBefore row.createdTs row.branch (db.clock db.nextSeq) rec.branch

instance (db : Db) (rec : WorktreeCreated) : Decidable (ListedLast db rec) :=
  inferInstanceAs (Decidable (∀ row ∈ _, _))

/-- A branch with a standing `PASS` is neither created nor finished, and sandboxes are created in
the order in which they are listed. -/
def renewable (db : Db) (payload : Payload) : Prop :=
  match payload with
  | .worktree (.created rec) => ¬ Standing db rec.branch ∧ ListedLast db rec
  | .worktree (.finish f) => ¬ Standing db f.branch
  | _ => True

def Renewable : EventClass := fun db event => renewable db event.payload

/-- The same, of the call that is about to record the event. -/
def Renews (call : StoreCall) (db : Db) : Prop :=
  match call with
  | .worktree (.recordWorktree rec) => renewable db (.worktree (.created rec))
  | .worktree (.recordWorktreeAndBaseline rec _) => renewable db (.worktree (.created rec))
  | .worktree (.recordFinish f) => renewable db (.worktree (.finish f))
  | .worktree (.recordFinishAndWorkerDone f _) => renewable db (.worktree (.finish f))
  | _ => True

instance decidableRenewable (db : Db) (payload : Payload) : Decidable (renewable db payload) :=
  match payload with
  | .worktree (.created _) => inferInstanceAs (Decidable (_ ∧ _))
  | .worktree (.finish _) => inferInstanceAs (Decidable (¬ _))
  | .worktree (.baseline _) | .worktree (.removed _) => .isTrue trivial
  | .mail _ | .review _ | .dispatch _ | .plan _ | .roles _ | .session _ | .archive _ =>
    .isTrue trivial

instance decidableRenews (call : StoreCall) (db : Db) : Decidable (Renews call db) :=
  match call with
  | .worktree (.recordWorktree rec) | .worktree (.recordWorktreeAndBaseline rec _) =>
    decidableRenewable db (.worktree (.created rec))
  | .worktree (.recordFinish f) | .worktree (.recordFinishAndWorkerDone f _) =>
    decidableRenewable db (.worktree (.finish f))
  | .worktree (.recordBaseline _) | .worktree (.removeWorktree _ _) | .worktree .read =>
    .isTrue trivial
  | .mail _ _ | .review _ | .dispatch _ | .plan _ | .roster _ | .session _ | .archive _ =>
    .isTrue trivial

section

variable {db db' : Db}

/-! ## Stored verdicts -/

/-- A stored verdict was stored before, or it is the verdict that was folded. -/
theorem verdict_of_apply {t t' : ReviewTables} {event : StoredEvent ReviewEvent}
    (h : Review.ReviewProjector.apply t event = .ok t') {row : ReviewRow}
    (hrow : row ∈ t'.reviews.rows) {verdict : Verdict} (hverdict : row.verdict = some verdict) :
    (∃ old ∈ t.reviews.rows, old.key = row.key ∧ old.verdict = some verdict) ∨
      ∃ v, event.payload = .verdict v ∧ v.verdict = verdict ∧ row.key = (v.target, v.branch) := by
  -- Of the events that are no verdicts, none stores one, and all but a request keep what is stored.
  have hquiet : ∀ {new : ReviewRow} {update : Table.Update ReviewRow.key},
      row ∈ (t.reviews.upsert new update).rows → new.verdict = none →
      (∀ r, (update.run r).verdict = none ∨ (update.run r).verdict = r.verdict) →
        ∃ old ∈ t.reviews.rows, old.key = row.key ∧ old.verdict = some verdict := by
    intro new update hmem hnew hupdate
    rcases Table.mem_upsert hmem with hold | ⟨old, hold, -, rfl⟩ | rfl
    · exact ⟨row, hold, rfl, hverdict⟩
    · rcases hupdate old with hnone | hsame
      · rw [hnone] at hverdict
        cases hverdict
      · exact ⟨old, hold, (update.keeps old).symm, hsame ▸ hverdict⟩
    · rw [hnew] at hverdict
      cases hverdict
  cases hp : event.payload with
  | requested r =>
    simp only [Review.ReviewProjector.apply, hp, Review.applyRequested] at h
    cases hid : t.reviewRequestIds.find? r.reviewId with
    | some existing =>
      simp only [hid, bind_eq_ok, pure_eq_ok] at h
      obtain ⟨-, -, -, -, rfl⟩ := h
      exact .inl ⟨row, hrow, rfl, hverdict⟩
    | none =>
      simp only [hid, bind_eq_ok, pure_eq_ok] at h
      obtain ⟨ids, -, rfl⟩ := h
      exact .inl (hquiet hrow rfl fun _ => .inl rfl)
  | verdict v =>
    simp only [Review.ReviewProjector.apply, hp, Review.applyVerdict, bind_eq_ok, pure_eq_ok] at h
    obtain ⟨-, -, -, -, rfl⟩ := h
    rcases Table.mem_upsert hrow with hold | ⟨old, -, hkey, rfl⟩ | rfl
    · exact .inl ⟨row, hold, rfl, hverdict⟩
    · exact .inr ⟨v, rfl, Option.some.inj hverdict, hkey⟩
    · exact .inr ⟨v, rfl, Option.some.inj hverdict, rfl⟩
  | strike s =>
    simp only [Review.ReviewProjector.apply, hp, Review.applyStrike] at h
    split at h
    · obtain rfl := pure_eq_ok.1 h
      exact .inl ⟨row, hrow, rfl, hverdict⟩
    · simp only [bind_eq_ok, pure_eq_ok] at h
      obtain ⟨strikes, -, rfl⟩ := h
      exact .inl (hquiet hrow rfl fun _ => .inr rfl)
  | serialized m =>
    simp only [Review.ReviewProjector.apply, hp] at h
    obtain rfl := pure_eq_ok.1 h
    exact .inl (hquiet hrow rfl fun _ => .inr rfl)
  | override o =>
    simp only [Review.ReviewProjector.apply, hp] at h
    obtain rfl := pure_eq_ok.1 h
    exact .inl (hquiet hrow rfl fun _ => .inr rfl)

theorem FreshPass.concat {events : List (StoredEvent Payload)} {target branch : String}
    (h : FreshPass events target branch) {event : StoredEvent Payload}
    (hother : renews branch event = false) : FreshPass (events ++ [event]) target branch := by
  obtain ⟨pass, hpass, hpasses, hfresh⟩ := h
  refine ⟨pass, List.mem_append_left _ hpass, hpasses, fun renewal hrenewal hrenews => ?_⟩
  rcases List.mem_append.1 hrenewal with hold | hnew
  · exact hfresh renewal hold hrenews
  · rw [List.mem_singleton.1 hnew, hother] at hrenews
    cases hrenews

/-! ## The invariant -/

/-- Every standing `PASS` is newer than what it covers, and the sandboxes of an agent are listed
in the order of the log. -/
structure Counted (db : Db) : Prop where
  consistent : Consistent db
  ordered : InLogOrder db.events
  fresh : ∀ row ∈ db.review.reviews.rows, row.verdict = some .pass →
    FreshPass db.events row.target row.branch

theorem Counted.empty (clock : ℕ → ℕ) : Counted { clock } := by
  refine ⟨.empty clock, fun branch branch' created created' h => ?_, fun row hrow => ?_⟩
  · cases h
  · cases hrow

/-- A new creation is listed after the other sandboxes of its agent. -/
theorem Counted.order (h : Counted db) {rec : WorktreeCreated} (hlast : ListedLast db rec)
    {event : StoredEvent Payload} (hevent : event.payload = .worktree (.created rec))
    (hseq : event.seq = db.nextSeq) (hts : event.ts = db.clock db.nextSeq) :
    InLogOrder (db.events ++ [event]) := by
  have hcreated := created_of_foldEvents h.consistent.replayed
  have hbelow : ∀ {branch created}, lastCreation db.events branch = some created →
      created.seq < db.nextSeq := by
    intro branch created hcreation
    obtain ⟨-, stored, hstored, -, hsame⟩ := lastCreation_mem hcreation
    exact hsame ▸ (h.consistent.seq_le hstored).2
  intro branch branch' created created' hcreation hcreation' hsome hagent hlt
  rw [lastCreation_concat_created hevent] at hcreation hcreation'
  split at hcreation
  · obtain rfl := Option.some.inj hcreation
    -- Nothing comes after the last event.
    have hupper : created'.seq ≤ event.seq := by
      split at hcreation'
      · obtain rfl := Option.some.inj hcreation'
        exact Nat.le_refl _
      · exact hseq ▸ Nat.le_of_lt (hbelow hcreation')
    exact absurd hlt (Nat.not_lt.2 hupper)
  · next hne =>
    split at hcreation'
    · next hbranch' =>
      obtain rfl := Option.some.inj hcreation'
      subst hbranch'
      obtain ⟨row, hrow, rfl, hrowAgent, hrowTs⟩ := hcreated.row hcreation
      have hlisted := hlast row hrow (hrowAgent ▸ hsome) (hrowAgent.trans hagent) hne
      rw [hrowTs] at hlisted
      rw [show (event.withPayload rec).ts = db.clock db.nextSeq from hts]
      exact hlisted
    · exact h.ordered branch branch' created created' hcreation hcreation' hsome hagent hlt

/-- A branch that may be renewed has no standing `PASS`. -/
theorem not_standing {event : NewEvent Payload} (hevent : Renewable db event) {branch : String}
    (hrenews : renews branch (db.stored event) = true) : ¬ Standing db branch := by
  have hpayload : (db.stored event).payload = event.payload := rfl
  rw [renews, hpayload] at hrenews
  rw [Renewable] at hevent
  cases hp : event.payload with
  | worktree payload =>
    rw [hp] at hrenews hevent
    cases payload with
    | created rec => exact beq_iff_eq.1 hrenews ▸ hevent.1
    | finish f => exact beq_iff_eq.1 hrenews ▸ hevent
    | baseline _ | removed _ => cases hrenews
  | mail _ | review _ | dispatch _ | plan _ | roles _ | session _ | archive _ =>
    rw [hp] at hrenews
    cases hrenews

theorem Counted.commit (h : Counted db) {event : NewEvent Payload} (hevent : Renewable db event)
    (hcommit : db.commit event = .ok db') : Counted db' := by
  obtain ⟨hfolded, hevents⟩ := folded_of_commit hcommit
  have hpayload : (db.stored event).payload = event.payload := rfl
  refine ⟨h.consistent.commit hcommit, ?_, fun row hrow hpass => ?_⟩
  · rw [hevents]
    by_cases hcreates : ∃ rec, event.payload = .worktree (.created rec)
    · obtain ⟨rec, hrec⟩ := hcreates
      rw [Renewable, hrec] at hevent
      exact h.order hevent.2 (hpayload.trans hrec) rfl rfl
    · have hother : ∀ rec, (db.stored event).payload ≠ .worktree (.created rec) :=
        fun rec hrec => hcreates ⟨rec, hrec⟩
      intro branch branch' created created' hcreation hcreation'
      rw [lastCreation_concat hother] at hcreation hcreation'
      exact h.ordered branch branch' created created' hcreation hcreation'
  · rw [hevents]
    obtain ⟨-, t, hfold, rfl⟩ := commit_eq_ok.1 hcommit
    rcases foldEvent_review hfold with ⟨payload, hreview, happly⟩ | ⟨-, hsame⟩
    · have hquiet : ∀ branch, renews branch (db.stored event) = false := by
        intro branch
        rw [renews, hreview]
      rcases verdict_of_apply happly hrow hpass with ⟨old, hold, hkey, holdPass⟩ |
        ⟨v, hv, hverdict, hkey⟩
      · obtain ⟨htarget, hbranch⟩ := Prod.mk.inj hkey
        rw [← htarget, ← hbranch]
        exact (h.fresh old hold holdPass).concat (hquiet _)
      · obtain ⟨htarget, hbranch⟩ := Prod.mk.inj hkey
        have hv : payload = .verdict v := hv
        refine ⟨db.stored event, List.mem_append_right _ List.mem_cons_self, ?_, ?_⟩
        · simp [recordsPass, hreview, hv, hverdict, htarget, hbranch]
        · intro renewal hrenewal hrenews
          rcases List.mem_append.1 hrenewal with hold | hnew
          · exact (h.consistent.seq_le hold).2
          · rw [List.mem_singleton.1 hnew, hquiet] at hrenews
            cases hrenews
    · have hrow : row ∈ db.review.reviews.rows := hsame ▸ hrow
      have hstanding : Standing db row.branch := ⟨row, hrow, rfl, hpass⟩
      refine (h.fresh row hrow hpass).concat (Bool.eq_false_iff.2 fun hrenews => ?_)
      exact not_standing hevent hrenews hstanding

theorem renewable_of_other {payload : Payload} (h : payload.projector ≠ .worktrees) :
    renewable db payload := by
  cases payload with
  | worktree payload => exact absurd rfl h
  | mail _ | review _ | dispatch _ | plan _ | roles _ | session _ | archive _ => trivial

/-- The worktree store appends one event, if any. -/
theorem emits_recordAndRead {α : Type} {event : Except String (NewEvent WorktreeEvent)}
    {read : Worktrees.WorktreeTables → Option α} {missing : String}
    (h : ∀ e, event = .ok e → renewable db (.worktree e.payload)) :
    Emits Renewable db
      ((Transaction.transaction (Worktrees.recordAndRead event read missing)).exec db) := by
  refine Transaction.Proc.exec_transaction .refl fun row db' hrecord => ?_
  obtain ⟨e, he, hcommit⟩ := Worktrees.recordAndRead_spec hrecord
  have hevent : Renewable db (Worktrees.toProject e) := h e he
  exact Emits.single hevent hcommit

/-- A worktree event carries what it was made of. -/
theorem payload_of_make {payload : WorktreeEvent} {make : WorktreeEvent → NewEvent WorktreeEvent}
    (hmake : ∀ payload, (make payload).payload = payload) {e : NewEvent WorktreeEvent}
    (h : (do let payload ← Worktrees.worktreeSchemas payload; return make payload) = .ok e) :
    e.payload = payload := by
  obtain ⟨accepted, hschema, he⟩ := bind_eq_ok.1 h
  obtain rfl := Worktrees.worktreeSchemas_eq hschema
  rw [← pure_eq_ok.1 he, hmake]

/-- What a call appends is as permitted as the call. -/
theorem emits_renewable (hdb : Consistent db) {call : StoreCall} (h : Renews call db) :
    Emits Renewable db (call.exec db) := by
  have hother : ∀ {call : StoreCall}, Projector.worktrees ∉ call.folders →
      Emits Renewable db (call.exec db) := by
    intro call hfolders
    refine (call.exec_folders hdb).mono fun s event hevent => renewable_of_other fun hsame => ?_
    exact hfolders (hsame ▸ hevent)
  cases call with
  | worktree call =>
    cases call with
    | recordWorktree rec =>
      refine emits_recordAndRead fun e he => ?_
      rw [payload_of_make (fun _ => rfl) he]
      exact h
    | recordFinish f =>
      refine emits_recordAndRead fun e he => ?_
      rw [payload_of_make (fun _ => rfl) he]
      exact h
    | recordBaseline b =>
      refine emits_recordAndRead fun e he => ?_
      rw [payload_of_make (fun _ => rfl) he]
      trivial
    | recordWorktreeAndBaseline rec b =>
      refine Transaction.Proc.exec_transaction .refl fun result db' hrecord => ?_
      obtain ⟨created, captured, hcreated, hcaptured, hcommit⟩ :=
        Worktrees.recordWorktreeAndBaseline_spec hrecord
      obtain ⟨mid, hmid, hrest⟩ := Db.commitAll_cons.1 hcommit
      have hfirst : Renewable db (Worktrees.toProject created) := by
        rw [Renewable, Worktrees.toProject, NewEvent.withPayload,
          payload_of_make (fun _ => rfl) hcreated]
        exact h
      refine .head ⟨_, hfirst, hmid⟩ (Emits.of_commitAll (fun event hevent s => ?_) hrest)
      rw [List.mem_singleton.1 hevent, Renewable, Worktrees.toProject, NewEvent.withPayload,
        payload_of_make (fun _ => rfl) hcaptured]
      trivial
    | recordFinishAndWorkerDone f workerDone =>
      refine Transaction.Proc.exec_transaction .refl fun result db' hrecord => ?_
      obtain ⟨finish, mail, hfinish, -, hcommit⟩ := Worktrees.recordFinishAndWorkerDone_spec hrecord
      obtain ⟨mid, hmid, hrest⟩ := Db.commitAll_cons.1 hcommit
      have hfirst : Renewable db (Worktrees.toProject finish) := by
        rw [Renewable, Worktrees.toProject, NewEvent.withPayload,
          payload_of_make (fun _ => rfl) hfinish]
        exact h
      refine .head ⟨_, hfirst, hmid⟩ (Emits.of_commitAll (fun event hevent s => ?_) hrest)
      rw [List.mem_singleton.1 hevent]
      trivial
    | removeWorktree branch teardown =>
      rcases @Worktrees.removeWorktree_spec db branch teardown with hsame | ⟨e, he, hcommit⟩
      · refine (?_ : Emits Renewable db ((Worktrees.removeWorktree branch teardown).exec db))
        rw [hsame]
      · refine Emits.single ?_ hcommit
        rw [Renewable, Worktrees.toProject, NewEvent.withPayload,
          payload_of_make (fun _ => rfl) he]
        trivial
    | read =>
      refine Transaction.Proc.exec_transaction .refl fun result db' hread => ?_
      rw [← bind_pure Worktrees.ensureTables, Worktrees.ensureTables_bind,
        Transaction.Tx.pure_eq_ok] at hread
      exact hread.2 ▸ .refl
  | mail _ _ | review _ | dispatch _ | plan _ | roster _ | session _ | archive _ =>
    exact hother (by simp [StoreCall.folders])

theorem Counted.call (h : Counted db) {call : StoreCall} (hcall : Renews call db) :
    Counted (call.exec db) :=
  (emits_renewable h.consistent hcall).preserves Counted
    (fun _ _ _ hevent hs hcommit => hs.commit hevent hcommit) h

/-! ## What is counted -/

/-- A branch that is taken for merged is merged. -/
theorem Counted.merged (h : Counted db) {target agent : String} (hmerged :
    branchMerged db.review (some target) (resolveAgentBranch db.worktrees agent) = true) :
    CurrentlyMerged db target agent := by
  cases hbranch : resolveAgentBranch db.worktrees agent with
  | none =>
    rw [hbranch] at hmerged
    cases hmerged
  | some branch =>
    rw [hbranch] at hmerged
    obtain ⟨record, hrecord, hpass⟩ := (Option.any_eq_true _ _).1 hmerged
    obtain ⟨row, hrow, hrest⟩ := Option.bind_eq_some_iff.1 hrecord
    obtain ⟨verdict, hverdict, hread⟩ := Option.bind_eq_some_iff.1 hrest
    rw [if_pos (.inl rfl)] at hread
    obtain rfl := Option.some.inj hread
    obtain ⟨hmem, hkey⟩ := Table.find?_eq_some.1 hrow
    obtain ⟨rfl, rfl⟩ := Prod.mk.inj hkey
    have hverdict : row.verdict = some .pass := by
      rw [hverdict]
      exact congrArg some (beq_iff_eq.1 hpass)
    exact ⟨row.branch, newestBranch_of_resolve (created_of_foldEvents h.consistent.replayed)
      h.ordered hbranch, h.fresh row hmem hverdict⟩

theorem Counted.countsOnlyCurrentWork (h : Counted db) : CountsOnlyCurrentWork db := by
  refine ⟨fun ctx taskId out hout => ?_, fun parent target child hchild hmerged => ?_⟩
  · obtain ⟨plan, hplan, rfl⟩ := Plans.phaseStatusTool_eq_ok hout
    refine ⟨plan, hplan, fun row hrow hready => ?_⟩
    obtain ⟨phase, hphase, hid, hfold⟩ := Plans.mem_phaseStatusOutput hrow
    obtain ⟨hchildren, hverified⟩ := Plans.phase_ready_iff.1 (hfold.symm.trans hready)
    refine ⟨phase, hphase, hid, hverified, fun owner howner child hchild hparent hrole => ?_⟩
    have hmerged := hchildren owner howner child hchild hparent hrole
    cases htarget : resolveAgentBranch db.worktrees owner with
    | none =>
      rw [htarget] at hmerged
      cases hmerged
    | some target =>
      rw [htarget] at hmerged
      exact ⟨target, newestBranch_of_resolve (created_of_foldEvents h.consistent.replayed)
        h.ordered htarget, h.merged hmerged⟩
  · obtain ⟨a, -, rfl⟩ := List.mem_map.1 hchild
    exact h.merged hmerged

end

/-- Where no branch with a standing `PASS` is created or finished again, and sandboxes are listed
in the order of their creation, only current work counts as ready or as merged. -/
theorem only_current_work_counts (clock : ℕ → ℕ) (calls : List StoreCall)
    (h : Run.Guarded StoreCall.exec Renews calls { clock }) :
    CountsOnlyCurrentWork (storeRun calls { clock }) :=
  (Run.invariant Counted (fun _ _ hcall hs => hs.call hcall) h
    (.empty clock)).countsOnlyCurrentWork

/-- The one phase of a plan, which a lead owns. -/
def parserPhase : Plans.PhaseNode where
  phaseId := "P1"
  name := "parser"
  owner := some "lead"
  deps := []
  criteria := []

def parserFinish (commitSha : String) : FinishRecorded where
  branch := "parser"
  baseSha := "a0"
  commitSha
  tests := []
  agent := some "worker"

/-- A worker finishes its branch, the branch passes its review, and the phase is verified. -/
def passedParser : List StoreCall := [
  .roster (.recordAgent { agentId := "main", role := .coordinator, parent := Mail.OPERATOR }),
  .roster (.recordAgent { agentId := "lead", role := .lead, parent := "main" }),
  .roster (.recordAgent { agentId := "worker", role := .implementer, parent := "lead" }),
  .plan (.recordDraft ⟨"T1", "parse", [], [parserPhase]⟩ "main"),
  .worktree (.recordWorktree {
    branch := "plan", baseRef := "main", baseSha := "a0", path := "/w/plan", parent := "main"
    agent := some "lead" }),
  .worktree (.recordWorktree {
    branch := "parser", baseRef := "plan", baseSha := "a0", path := "/w/parser", parent := "lead"
    agent := some "worker" }),
  .worktree (.recordFinish (parserFinish "b1")),
  .review (.recordReviewRequested {
    reviewId := "r1", target := "plan", branch := "parser", requestedBy := "lead" }),
  .review (.recordVerdict {
    reviewId := "r1", target := "plan", branch := "parser", reviewer := "reviewer@r1"
    verdict := .pass }),
  .plan (.recordPhaseVerified ⟨"T1", "P1", "b1", true⟩ "reviewer")]

theorem only_current_work_counts_parserWork :
    CountsOnlyCurrentWork (storeRun passedParser .atRest) :=
  only_current_work_counts (fun _ => 0) passedParser (by decide +kernel)

/-- The worker finishes its branch once more. -/
def refinishedParser : Db :=
  storeRun (passedParser ++ [.worktree (.recordFinish (parserFinish "b2"))]) .atRest

theorem lead_branch {branch : String} (h : NewestBranch refinishedParser.events "lead" branch) :
    branch = "plan" := by
  obtain ⟨created, hcreated, hagent, rfl⟩ := h.mem
  have honly : ∀ created ∈ refinishedParser.events.filterMap Plans.creation,
      created.payload.agent = some "lead" → created.payload.branch = "plan" := by decide +kernel
  exact honly created hcreated hagent

theorem worker_branch {branch : String}
    (h : NewestBranch refinishedParser.events "worker" branch) : branch = "parser" := by
  obtain ⟨created, hcreated, hagent, rfl⟩ := h.mem
  have honly : ∀ created ∈ refinishedParser.events.filterMap Plans.creation,
      created.payload.agent = some "worker" → created.payload.branch = "parser" := by
    decide +kernel
  exact honly created hcreated hagent

/-- The phase is still ready. -/
theorem refinished_ready : ∃ out,
    phaseStatusTool { agent := "main" } "T1" refinishedParser = .ok out ∧ (∃ row ∈ out.phases, row.ready = true) ∧
    ∀ plan, selectPlan refinishedParser.plans "T1" = some plan →
      ∀ phase ∈ plan.phases, phase.owner = some "lead" := by
  have hplans : (selectPlan refinishedParser.plans "T1").map (·.phases.map
      fun phase => (phase.owner, phase.verifiedPass)) = some [(some "lead", some true)] := by
    decide +kernel
  have hrole : Issues.assertToolCallerRole "co_phase_status" refinishedParser.roster "main"
    [.coordinator, .lead] = .ok () := by decide +kernel
  have hmerged : ∀ child ∈ refinishedParser.roster.roster.rows, child.parent = "lead" →
      child.role ≠ .reviewer → branchMerged refinishedParser.review
        (resolveAgentBranch refinishedParser.worktrees "lead")
        (resolveAgentBranch refinishedParser.worktrees child.agentId) = true := by
    decide +kernel
  obtain ⟨plan, hplan, hphases⟩ := Option.map_eq_some_iff.1 hplans
  obtain ⟨phase, hsingle, hfields⟩ := List.map_eq_singleton_iff.1 hphases
  obtain ⟨howner, hverified⟩ := Prod.mk.inj hfields
  refine ⟨_, Plans.phaseStatusTool_of_plan hrole hplan, ?_, fun plan' hplan' => ?_⟩
  · have hphase : phase ∈ plan.phases := hsingle ▸ List.mem_cons_self
    obtain ⟨row, hrow, -, hreported⟩ := Plans.exists_mem_phaseStatusOutput hphase
    refine ⟨row, hrow, hreported.trans (Plans.phase_ready_iff.2 ⟨fun owner h => ?_, hverified⟩)⟩
    obtain rfl := Option.some.inj (howner.symm.trans h)
    exact hmerged
  · obtain rfl := Option.some.inj (hplan.symm.trans hplan')
    simpa [hsingle] using howner

/-- Nothing has passed what the worker finished last. -/
theorem refinished_work_counts :
    ¬ ∀ clock calls, CountsOnlyCurrentWork (storeRun calls { clock }) := by
  intro hcurrent
  have hcounts : CountsOnlyCurrentWork refinishedParser := hcurrent _ _
  obtain ⟨out, hout, ⟨row, hrow, hready⟩, howned⟩ := refinished_ready
  obtain ⟨plan, hplan, hrows⟩ := hcounts.readiness _ _ _ hout
  obtain ⟨phase, hphase, -, -, hchildren⟩ := hrows row hrow hready
  obtain ⟨worker, hworker, hid, hparent, himplements⟩ :
      ∃ child ∈ refinishedParser.roster.roster.rows, child.agentId = "worker" ∧
        child.parent = "lead" ∧ child.role ≠ .reviewer := by decide +kernel
  obtain ⟨target, htarget, branch, hbranch, hfresh⟩ :=
    hchildren "lead" (howned plan hplan phase hphase) worker hworker hparent himplements
  rw [hid] at hbranch
  obtain rfl := lead_branch htarget
  obtain rfl := worker_branch hbranch
  have hstale : ¬ FreshPass refinishedParser.events "plan" "parser" := by decide +kernel
  exact hstale hfresh

end Orchestration.Replay
