import Mathlib.Logic.Relation
import Orchestration.Store.Project

/-!
# The log and what is folded from it

Whatever a store does to the database is a list of committed events. From that
follow the facts every store shares: the log is numbered without gaps, and the
projections are the fold of the whole log.
-/

namespace Orchestration

open Fallible Transaction

namespace Db

/-- The events of one batch as the log stores them. -/
def storedAll (db : Db) : List (NewEvent Payload) → List (StoredEvent Payload)
  | [] => []
  | event :: events => db.stored event :: (db.push event).storedAll events

@[simp] theorem commitAll_nil (db : Db) : db.commitAll [] = .ok db := rfl

theorem commitAll_cons {event : NewEvent Payload} {events : List (NewEvent Payload)}
    {db db' : Db} : db.commitAll (event :: events) = .ok db' ↔
      ∃ mid, db.commit event = .ok mid ∧ mid.commitAll events = .ok db' := by
  rw [commitAll, List.foldlM_cons, bind_eq_ok]
  rfl

theorem commitAll_append {events events' : List (NewEvent Payload)} {db db' : Db} :
    db.commitAll (events ++ events') = .ok db' ↔
      ∃ mid, db.commitAll events = .ok mid ∧ mid.commitAll events' = .ok db' := by
  rw [commitAll, List.foldlM_append, bind_eq_ok]
  rfl

end Db

theorem foldEvents_append {events events' : List (StoredEvent Payload)} {t t' : Projections} :
    foldEvents t (events ++ events') = .ok t' ↔
      ∃ mid, foldEvents t events = .ok mid ∧ foldEvents mid events' = .ok t' := by
  rw [foldEvents, List.foldlM_append, bind_eq_ok]
  rfl

theorem foldEvents_cons {event : StoredEvent Payload} {events : List (StoredEvent Payload)}
    {t t' : Projections} : foldEvents t (event :: events) = .ok t' ↔
      ∃ mid, foldEvent t event = .ok mid ∧ foldEvents mid events = .ok t' := by
  rw [foldEvents, List.foldlM_cons, bind_eq_ok]
  rfl

/-- What holds of the empty log and is kept by every folded event holds of every fold. -/
theorem foldEvents_induction (Inv : List (StoredEvent Payload) → Projections → Prop)
    (empty : Inv [] {})
    (step : ∀ events t event t', Inv events t → foldEvent t event = .ok t' →
      Inv (events ++ [event]) t')
    {events : List (StoredEvent Payload)} {t : Projections}
    (h : foldEvents {} events = .ok t) : Inv events t := by
  induction events using List.reverseRecOn generalizing t with
  | nil => cases h; exact empty
  | append_singleton events event ih =>
    obtain ⟨mid, hmid, hlast⟩ := foldEvents_append.1 h
    obtain ⟨t', ht', hnil⟩ := foldEvents_cons.1 hlast
    cases hnil
    exact step events mid event t (ih hmid) ht'

/-- What folding one event did: the projector of its domain folded the payload the schema
accepted, and every other projection is as it was. -/
inductive Folded (t : Projections) (event : StoredEvent Payload) : Projections → Prop where
  | mail {payload payload' : Mail.MailEvent} {tables : Mail.MailTables}
      (hpayload : event.payload = .mail payload) (hschema : Mail.mailSchemas payload = .ok payload')
      (happly : Mail.MailProjector.apply t.mail (event.withPayload payload') = .ok tables) :
      Folded t event { t with mail := tables }
  | review {payload : Review.ReviewEvent} {tables : Review.ReviewTables}
      (hpayload : event.payload = .review payload)
      (hschema : Review.reviewSchemas payload = .ok payload)
      (happly : Review.ReviewProjector.apply t.review (event.withPayload payload) = .ok tables) :
      Folded t event { t with review := tables }
  | worktree {payload : Worktrees.WorktreeEvent} {tables : Worktrees.WorktreeTables}
      (hpayload : event.payload = .worktree payload)
      (hschema : Worktrees.worktreeSchemas payload = .ok payload)
      (happly : Worktrees.WorktreeProjector.apply [] t.worktrees (event.withPayload payload) =
        .ok tables) :
      Folded t event { t with worktrees := tables }
  | usage {obs : Dispatch.UsageObserved} {tables : Dispatch.UsageTables}
      (hpayload : event.payload = .dispatch (.usageObserved obs))
      (happly : Dispatch.UsageProjector.apply t.usage (event.withPayload (.usageObserved obs)) obs =
        .ok tables) : Folded t event { t with usage := tables }
  | cost {payload : Dispatch.DispatchEvent} {tables : Dispatch.CostTables}
      (hpayload : event.payload = .dispatch payload)
      (happly : Dispatch.CostProjector.apply [] t.cost (event.withPayload payload) = .ok tables)
      (hcost : event.payload.projector = .cost) : Folded t event { t with cost := tables }
  | placement {decided : Dispatch.PlacementDecided} {tables : Dispatch.PlacementTables}
      (hpayload : event.payload = .dispatch (.placementDecided decided))
      (happly : Dispatch.PlacementProjector.apply t.placement
        (event.withPayload (.placementDecided decided)) decided = .ok tables) :
      Folded t event { t with placement := tables }
  | toolUsage {inv : Dispatch.ToolInvoked} {tables : Dispatch.ToolUsageTables}
      (hpayload : event.payload = .dispatch (.toolInvoked inv))
      (happly : Dispatch.ToolUsageProjector.apply t.toolUsage
        (event.withPayload (.toolInvoked inv)) inv = .ok tables) :
      Folded t event { t with toolUsage := tables }
  | plan {payload : Plans.PlanEvent} {tables : Plans.PlansTables}
      (hpayload : event.payload = .plan payload)
      (happly : Plans.PlansProjector.apply t.plans (event.withPayload payload) = .ok tables) :
      Folded t event { t with plans := tables }
  | roles {payload : Roles.RolesEvent} {tables : Roles.RosterTables}
      (hpayload : event.payload = .roles payload)
      (hschema : Roles.rolesSchemas payload = .ok payload)
      (happly : Roles.RosterProjector.apply t.roster (event.withPayload payload) = .ok tables) :
      Folded t event { t with roster := tables }
  | session {payload : Session.SessionEvent} {tables : Session.SessionTables}
      (hpayload : event.payload = .session payload)
      (happly : Session.SessionProjector.apply t.sessions (event.withPayload payload) =
        .ok tables) : Folded t event { t with sessions := tables }
  | archive {payload : Archive.ArchiveEvent} {tables : Archive.ArchiveTables}
      (hpayload : event.payload = .archive payload)
      (happly : Archive.ArchiveProjector.apply t.archive (event.withPayload payload) =
        .ok tables) : Folded t event { t with archive := tables }

theorem folded_of_foldEvent {t t' : Projections} {event : StoredEvent Payload}
    (h : foldEvent t event = .ok t') : Folded t event t' := by
  simp only [foldEvent, decode, bind_eq_ok, pure_eq_ok, upcast_eq_ok] at h
  obtain ⟨_, ⟨_, ⟨-, rfl⟩, payload, hschema, rfl⟩, happly⟩ := h
  cases hp : event.payload <;> rw [hp] at hschema <;>
    obtain ⟨payload', haccept, h⟩ := bind_eq_ok.1 hschema <;>
    obtain rfl := pure_eq_ok.1 h
  case mail =>
    obtain ⟨tables, htables, h⟩ := bind_eq_ok.1 happly
    obtain rfl := pure_eq_ok.1 h
    exact .mail hp haccept htables
  case review =>
    obtain ⟨tables, htables, h⟩ := bind_eq_ok.1 happly
    obtain rfl := pure_eq_ok.1 h
    obtain rfl := Review.reviewSchemas_eq haccept
    exact .review hp haccept htables
  case worktree =>
    obtain ⟨tables, htables, h⟩ := bind_eq_ok.1 happly
    obtain rfl := pure_eq_ok.1 h
    obtain rfl := Worktrees.worktreeSchemas_eq haccept
    exact .worktree hp haccept htables
  case plan =>
    obtain ⟨tables, htables, h⟩ := bind_eq_ok.1 happly
    obtain rfl := pure_eq_ok.1 h
    obtain rfl := Plans.plansSchemas_eq haccept
    exact .plan hp htables
  case roles =>
    obtain ⟨tables, htables, h⟩ := bind_eq_ok.1 happly
    obtain rfl := pure_eq_ok.1 h
    obtain rfl := Roles.rolesSchemas_eq haccept
    exact .roles hp haccept htables
  case session =>
    obtain ⟨tables, htables, h⟩ := bind_eq_ok.1 happly
    obtain rfl := pure_eq_ok.1 h
    obtain rfl := Session.sessionSchemas_eq haccept
    exact .session hp htables
  case archive =>
    obtain ⟨tables, htables, h⟩ := bind_eq_ok.1 happly
    obtain rfl := pure_eq_ok.1 h
    obtain rfl := Archive.archiveSchemas_eq haccept
    exact .archive hp htables
  case dispatch payload =>
    obtain rfl := Dispatch.dispatchSchemas_eq haccept
    cases payload' <;>
      obtain ⟨tables, htables, h⟩ := bind_eq_ok.1 happly <;>
      obtain rfl := pure_eq_ok.1 h
    case usageObserved => exact .usage hp htables
    case costRecorded => exact .cost hp htables (by rw [hp]; rfl)
    case costNearBudget => exact .cost hp htables (by rw [hp]; rfl)
    case toolInvoked => exact .toolUsage hp htables
    case placementDecided => exact .placement hp htables

/-- A committed event is the last of the log, and it was folded. -/
theorem folded_of_commit {db db' : Db} {event : NewEvent Payload}
    (h : db.commit event = .ok db') :
    Folded db.toProjections (db.stored event) db'.toProjections ∧
      db'.events = db.events ++ [db.stored event] := by
  obtain ⟨-, t, ht, rfl⟩ := commit_eq_ok.1 h
  exact ⟨folded_of_foldEvent ht, rfl⟩

/-- The read model of one projector is the same. -/
def Projections.Same (t t' : Projections) : Projector → Prop
  | .mail => t'.mail = t.mail
  | .review => t'.review = t.review
  | .worktrees => t'.worktrees = t.worktrees
  | .usage => t'.usage = t.usage
  | .cost => t'.cost = t.cost
  | .placement => t'.placement = t.placement
  | .toolUsage => t'.toolUsage = t.toolUsage
  | .plans => t'.plans = t.plans
  | .roster => t'.roster = t.roster
  | .session => t'.sessions = t.sessions
  | .archive => t'.archive = t.archive

theorem Projections.Same.refl (t : Projections) (p : Projector) : t.Same t p := by
  cases p <;> rfl

theorem Projections.Same.trans {t t' t'' : Projections} {p : Projector} (h : t.Same t' p)
    (h' : t'.Same t'' p) : t.Same t'' p := by
  cases p <;> exact Eq.trans h' h

/-- An event of another projector leaves a read model alone. -/
theorem same_of_commit {db db' : Db} {event : NewEvent Payload} {p : Projector}
    (hp : event.payload.projector ≠ p) (h : db.commit event = .ok db') :
    db.toProjections.Same db'.toProjections p := by
  have hstored : (db.stored event).payload.projector ≠ p := hp
  obtain ⟨hfolded, -⟩ := folded_of_commit h
  generalize db'.toProjections = t at hfolded ⊢
  cases hfolded with
  | cost hpayload happly hcost =>
    rw [hcost] at hstored
    cases p <;> first | rfl | exact absurd rfl hstored
  | mail hpayload | review hpayload | worktree hpayload | usage hpayload | placement hpayload
  | toolUsage hpayload | plan hpayload | roles hpayload | session hpayload | archive hpayload =>
    rw [hpayload] at hstored
    cases p <;> first | rfl | exact absurd rfl hstored

theorem nextSeq_of_commit {db db' : Db} {event : NewEvent Payload}
    (h : db.commit event = .ok db') : db'.nextSeq = db.nextSeq + 1 := by
  simp [Db.nextSeq, (folded_of_commit h).2]

/-- A fold changes the review tables by folding one review event, or not at all. -/
theorem foldEvent_review {t t' : Projections} {event : StoredEvent Payload}
    (h : foldEvent t event = .ok t') :
    (∃ payload, event.payload = .review payload ∧
      Review.ReviewProjector.apply t.review (event.withPayload payload) = .ok t'.review) ∨
    ((∀ payload, event.payload ≠ .review payload) ∧ t'.review = t.review) := by
  cases folded_of_foldEvent h with
  | review hpayload _ happly => exact .inl ⟨_, hpayload, happly⟩
  | mail hpayload | worktree hpayload | usage hpayload | cost hpayload | placement hpayload
  | toolUsage hpayload | plan hpayload | roles hpayload | session hpayload | archive hpayload =>
    exact .inr ⟨by simp [hpayload], rfl⟩

/-- A fold changes the mail tables by folding one mail event, or not at all. -/
theorem foldEvent_mail {t t' : Projections} {event : StoredEvent Payload}
    (h : foldEvent t event = .ok t') :
    (∃ payload payload', event.payload = .mail payload ∧
      Mail.mailSchemas payload = .ok payload' ∧
      Mail.MailProjector.apply t.mail (event.withPayload payload') = .ok t'.mail) ∨
    ((∀ payload, event.payload ≠ .mail payload) ∧ t'.mail = t.mail) := by
  cases folded_of_foldEvent h with
  | mail hpayload hschema happly => exact .inl ⟨_, _, hpayload, hschema, happly⟩
  | review hpayload | worktree hpayload | usage hpayload | cost hpayload | placement hpayload
  | toolUsage hpayload | plan hpayload | roles hpayload | session hpayload | archive hpayload =>
    exact .inr ⟨by simp [hpayload], rfl⟩

/-- A fold changes the plan tables by folding one plan event, or not at all. -/
theorem foldEvent_plan {t t' : Projections} {event : StoredEvent Payload}
    (h : foldEvent t event = .ok t') :
    (∃ payload, event.payload = .plan payload ∧
      Plans.PlansProjector.apply t.plans (event.withPayload payload) = .ok t'.plans) ∨
    ((∀ payload, event.payload ≠ .plan payload) ∧ t'.plans = t.plans) := by
  cases folded_of_foldEvent h with
  | plan hpayload happly => exact .inl ⟨_, hpayload, happly⟩
  | mail hpayload | review hpayload | worktree hpayload | usage hpayload | cost hpayload
  | placement hpayload | toolUsage hpayload | roles hpayload | session hpayload
  | archive hpayload => exact .inr ⟨by simp [hpayload], rfl⟩

/-- A fold changes the roster by folding one roster event, or not at all. -/
theorem foldEvent_roster {t t' : Projections} {event : StoredEvent Payload}
    (h : foldEvent t event = .ok t') :
    (∃ payload, event.payload = .roles payload ∧ Roles.rolesSchemas payload = .ok payload ∧
      Roles.RosterProjector.apply t.roster (event.withPayload payload) = .ok t'.roster) ∨
    ((∀ payload, event.payload ≠ .roles payload) ∧ t'.roster = t.roster) := by
  cases folded_of_foldEvent h with
  | roles hpayload hschema happly => exact .inl ⟨_, hpayload, hschema, happly⟩
  | mail hpayload | review hpayload | worktree hpayload | usage hpayload | cost hpayload
  | placement hpayload | toolUsage hpayload | plan hpayload | session hpayload
  | archive hpayload => exact .inr ⟨by simp [hpayload], rfl⟩

/-- Appending a batch numbers it; folding the batch afterwards is committing it event by event,
because no projector reads the log. -/
theorem append_commitAll {events : List (NewEvent Payload)} {db db₁ : Db}
    {stored : List (StoredEvent Payload)} (h : append events db = .ok (stored, db₁)) :
    stored = db.storedAll events ∧ db₁.toProjections = db.toProjections ∧
      ∀ t t', foldEvents t stored = .ok t' →
        Db.commitAll { db with toProjections := t } events =
          .ok { db₁ with toProjections := t' } := by
  induction events generalizing db stored with
  | nil =>
    simp only [append, List.mapM_nil, Tx.pure_eq_ok] at h
    obtain ⟨rfl, rfl⟩ := h
    refine ⟨rfl, rfl, fun t t' ht => ?_⟩
    cases ht
    rfl
  | cons event events ih =>
    simp only [append, List.mapM_cons, Tx.bind_eq_ok, Tx.pure_eq_ok, insertEvent_eq_ok] at h
    obtain ⟨_, _, ⟨hle, rfl, rfl⟩, rest, _, hrest, rfl, rfl⟩ := h
    obtain ⟨hstored, hproj, hfold⟩ := ih hrest
    refine ⟨by rw [hstored]; rfl, hproj, fun t t' ht => ?_⟩
    obtain ⟨mid, hmid, ht'⟩ := foldEvents_cons.1 ht
    exact Db.commitAll_cons.2 ⟨_, commit_eq_ok.2 ⟨hle, mid, hmid, rfl⟩, hfold mid t' ht'⟩

theorem forM_applyStored {projectors : List Projector} {stored : List (StoredEvent Payload)}
    (howns : ∀ event ∈ stored, Owns projectors event.payload) {db db' : Db} {u : PUnit}
    (h : stored.forM (applyStored projectors) db = .ok (u, db')) :
    ∃ t, foldEvents db.toProjections stored = .ok t ∧ db' = { db with toProjections := t } := by
  induction stored generalizing db with
  | nil =>
    simp only [List.forM_eq_forM, List.forM_nil, Tx.pure_eq_ok] at h
    exact ⟨db.toProjections, rfl, h.2.symm⟩
  | cons event stored ih =>
    simp only [List.forM_eq_forM, List.forM_cons, Tx.bind_eq_ok] at h
    obtain ⟨_, mid, hevent, hrest⟩ := h
    obtain ⟨t, ht, rfl⟩ := (applyStored_eq_ok (howns event List.mem_cons_self)).1 hevent
    obtain ⟨t', ht', rfl⟩ := ih (fun e he => howns e (List.mem_cons_of_mem _ he)) hrest
    exact ⟨t', foldEvents_cons.2 ⟨t, ht, ht'⟩, rfl⟩

theorem storedAll_payload {events : List (NewEvent Payload)} (db : Db) {P : Payload → Prop}
    (h : ∀ event ∈ events, P event.payload) : ∀ event ∈ db.storedAll events, P event.payload := by
  induction events generalizing db with
  | nil => intro event hevent; cases hevent
  | cons e events ih =>
    intro event hevent
    rcases List.mem_cons.1 hevent with rfl | hevent
    · exact h e List.mem_cons_self
    · exact ih _ (fun e he => h e (List.mem_cons_of_mem _ he)) event hevent

/-- Recording a batch with a store's own projectors is committing it. -/
theorem recordAll_commitAll {projectors : List Projector} {events : List (NewEvent Payload)}
    (howns : ∀ event ∈ events, Owns projectors event.payload) {db db' : Db}
    {stored : List (StoredEvent Payload)} (h : recordAll projectors events db = .ok (stored, db')) :
    stored = db.storedAll events ∧ db.commitAll events = .ok db' := by
  simp only [recordAll, Tx.bind_eq_ok, Tx.pure_eq_ok] at h
  obtain ⟨_, mid, happend, _, _, hfold, rfl, rfl⟩ := h
  obtain ⟨hstored, hproj, hcommit⟩ := append_commitAll happend
  have howns' := storedAll_payload db howns
  rw [← hstored] at howns'
  obtain ⟨t, ht, rfl⟩ := forM_applyStored howns' hfold
  rw [hproj] at ht
  exact ⟨hstored, hcommit db.toProjections t ht⟩

/-- The numbers of a batch do not depend on what is folded. -/
theorem storedAll_projections (events : List (NewEvent Payload)) (db : Db) (t : Projections) :
    Db.storedAll { db with toProjections := t } events = db.storedAll events := by
  induction events generalizing db with
  | nil => rfl
  | cons event events ih => exact congrArg (db.stored event :: ·) (ih (db.push event))

/-- A batch that can be committed is numbered as its events are, whatever was folded before. -/
theorem append_of_commitAll {events : List (NewEvent Payload)} {db db' : Db}
    (h : db.commitAll events = .ok db') (t : Projections) :
    append events { db with toProjections := t } =
        .ok (db.storedAll events, { db' with toProjections := t }) ∧
      foldEvents db.toProjections (db.storedAll events) = .ok db'.toProjections := by
  induction events generalizing db with
  | nil =>
    cases h
    exact ⟨rfl, rfl⟩
  | cons event events ih =>
    obtain ⟨mid, hcommit, hrest⟩ := Db.commitAll_cons.1 h
    obtain ⟨hroom, tables, hfold, rfl⟩ := commit_eq_ok.1 hcommit
    obtain ⟨happend, hfolds⟩ := ih hrest
    rw [storedAll_projections events (db.push event) tables] at happend hfolds
    refine ⟨?_, foldEvents_cons.2 ⟨tables, hfold, hfolds⟩⟩
    simp only [append, List.mapM_cons] at happend ⊢
    refine Tx.bind_eq_ok.2 ⟨_, _, insertEvent_eq_ok.2 ⟨hroom, rfl, rfl⟩, ?_⟩
    exact Tx.bind_eq_ok.2 ⟨_, _, happend, rfl⟩

theorem forM_applyStored_of_fold {projectors : List Projector}
    {stored : List (StoredEvent Payload)} (howns : ∀ event ∈ stored, Owns projectors event.payload)
    {db : Db} {t : Projections} (h : foldEvents db.toProjections stored = .ok t) :
    stored.forM (applyStored projectors) db = .ok (⟨⟩, { db with toProjections := t }) := by
  induction stored generalizing db with
  | nil =>
    cases h
    rfl
  | cons event stored ih =>
    obtain ⟨mid, hfold, hrest⟩ := foldEvents_cons.1 h
    simp only [List.forM_eq_forM, List.forM_cons] at ih ⊢
    refine Tx.bind_eq_ok.2 ⟨⟨⟩, { db with toProjections := mid }, ?_, ?_⟩
    · exact (applyStored_eq_ok (howns event List.mem_cons_self)).2 ⟨mid, hfold, rfl⟩
    · exact @ih (fun e he => howns e (List.mem_cons_of_mem _ he)) { db with toProjections := mid } hrest

/-- Events that can be committed one after the other can be recorded as a batch. -/
theorem recordAll_of_commitAll {projectors : List Projector} {events : List (NewEvent Payload)}
    (howns : ∀ event ∈ events, Owns projectors event.payload) {db db' : Db}
    (h : db.commitAll events = .ok db') :
    recordAll projectors events db = .ok (db.storedAll events, db') := by
  obtain ⟨happend, hfold⟩ := append_of_commitAll h db.toProjections
  refine Tx.bind_eq_ok.2 ⟨_, _, happend, ?_⟩
  refine Tx.bind_eq_ok.2 ⟨⟨⟩, _, forM_applyStored_of_fold (storedAll_payload db howns) hfold, ?_⟩
  rfl

/-! ## What a transaction emits -/

/-- What a store may append, in the state it appends it to. -/
abbrev EventClass := Db → NewEvent Payload → Prop

/-- Any event whatever. -/
def AnyEvent : EventClass := fun _ _ => True

/-- One committed event of the class `P`. -/
def Commits (P : EventClass) (db db' : Db) : Prop :=
  ∃ event, P db event ∧ db.commit event = .ok db'

/-- Some committed events, one after the other, each of the class `P` when it was appended. -/
abbrev Emits (P : EventClass) : Db → Db → Prop := Relation.ReflTransGen (Commits P)

namespace Emits

variable {P Q : EventClass} {db db' : Db}

theorem single {event : NewEvent Payload} (hP : P db event) (h : db.commit event = .ok db') :
    Emits P db db' :=
  Relation.ReflTransGen.single ⟨event, hP, h⟩

theorem mono (hPQ : ∀ db event, P db event → Q db event) (h : Emits P db db') :
    Emits Q db db' := by
  refine Relation.ReflTransGen.mono ?_ _ _ h
  rintro db _ ⟨event, hP, hcommit⟩
  exact ⟨event, hPQ db event hP, hcommit⟩

/-- What every committed event of a class preserves, a transaction that emits only that class
preserves. -/
theorem preserves (Inv : Db → Prop) (h : Emits P db db')
    (step : ∀ event s s', P s event → Inv s → s.commit event = .ok s' → Inv s') (hs : Inv db) :
    Inv db' := by
  induction h with
  | refl => exact hs
  | tail _ hlast ih =>
    obtain ⟨event, hP, hcommit⟩ := hlast
    exact step event _ _ hP ih hcommit

/-- A transaction leaves the read models alone that fold none of its events. -/
theorem same {p : Projector} (h : Emits P db db')
    (hP : ∀ s event, P s event → event.payload.projector ≠ p) :
    db.toProjections.Same db'.toProjections p := by
  refine h.preserves (fun s => db.toProjections.Same s.toProjections p) ?_ (.refl _ p)
  intro event s s' hevent hs hcommit
  exact hs.trans (same_of_commit (hP s event hevent) hcommit)

/-- A batch whose every event is of the class in whatever state it is appended to. -/
theorem of_commitAll {events : List (NewEvent Payload)} (hP : ∀ event ∈ events, ∀ s, P s event)
    (h : db.commitAll events = .ok db') : Emits P db db' := by
  induction events generalizing db with
  | nil => cases h; exact .refl
  | cons event events ih =>
    obtain ⟨mid, hmid, hrest⟩ := Db.commitAll_cons.1 h
    exact .head ⟨event, hP event List.mem_cons_self db, hmid⟩
      (ih (fun e he => hP e (List.mem_cons_of_mem _ he)) hrest)

end Emits

/-! ## The log of a reachable database -/

/-- The log is numbered from 1, every number is a safe integer, and the projections are the fold
of the log. -/
structure Consistent (db : Db) : Prop where
  numbered : db.events.map (·.seq) = List.range' 1 db.events.length
  length_le : db.events.length ≤ Js.maxSafeInteger
  replayed : foldEvents {} db.events = .ok db.toProjections

theorem Consistent.empty (clock : ℕ → ℕ) : Consistent { clock } where
  numbered := rfl
  length_le := Nat.zero_le _
  replayed := rfl

theorem Consistent.commit {db db' : Db} {event : NewEvent Payload} (h : Consistent db)
    (hcommit : db.commit event = .ok db') : Consistent db' := by
  obtain ⟨hle, t, ht, rfl⟩ := commit_eq_ok.1 hcommit
  refine ⟨?_, ?_, ?_⟩
  · simp only [Db.push, List.map_append, h.numbered, List.length_append, List.map_singleton,
      List.length_singleton, Db.stored, Db.nextSeq]
    rw [List.range'_concat, Nat.one_mul, Nat.add_comm 1]
  · simpa [Db.push, Db.nextSeq] using hle
  · exact foldEvents_append.2 ⟨db.toProjections, h.replayed, foldEvents_cons.2 ⟨t, ht, rfl⟩⟩

theorem Consistent.commitAll {db db' : Db} {events : List (NewEvent Payload)} (h : Consistent db)
    (hcommit : db.commitAll events = .ok db') : Consistent db' := by
  induction events generalizing db with
  | nil => cases hcommit; exact h
  | cons event events ih =>
    obtain ⟨mid, hmid, hrest⟩ := Db.commitAll_cons.1 hcommit
    exact ih (h.commit hmid) hrest

theorem Consistent.emits {P : EventClass} {db db' : Db} (h : Consistent db)
    (hemits : Emits P db db') : Consistent db' :=
  hemits.preserves Consistent (fun _ _ _ _ hs hcommit => hs.commit hcommit) h

theorem Consistent.sorted {db : Db} (h : Consistent db) :
    db.events.Pairwise fun a b => a.seq < b.seq := by
  have hseqs : (db.events.map (·.seq)).Pairwise (· < ·) := by
    rw [h.numbered]
    exact List.pairwise_lt_range'
  exact List.pairwise_map.1 hseqs

theorem Consistent.seq_le {db : Db} (h : Consistent db) {event : StoredEvent Payload}
    (hevent : event ∈ db.events) : 0 < event.seq ∧ event.seq < db.nextSeq := by
  have hmem : event.seq ∈ List.range' 1 db.events.length := by
    rw [← h.numbered]
    exact List.mem_map_of_mem hevent
  rw [List.mem_range'_1] at hmem
  exact ⟨hmem.1, by simpa [Db.nextSeq, Nat.add_comm] using hmem.2⟩

end Orchestration
