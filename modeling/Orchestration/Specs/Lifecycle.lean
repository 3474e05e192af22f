import Orchestration.Library.Run
import Orchestration.Specs.Store

/-!
# The life of a spec

Whoever drafts, locks and archives, and however the checks of one call fall between the steps of
the others: the log tells of every spec a draft, then at most one lock and at most one archival,
and the record is what they say. The content never changes, and what is locked has criteria that
can be checked.
-/

namespace Orchestration.Specs

open EventStore Fallible Transaction
open Plans (SpecState)

/-! ## One event -/

/-- What the log tells of one task, and the record that it leads to. -/
inductive History : List (Entry SpecEvent) → Option StoredSpec → Prop where
  | none : History [] none
  | draft (rec : SpecDrafted) (actor : String) (seq ts : ℕ) :
    History [⟨.drafted rec actor, seq, ts⟩] (some (rec.row ts))
  | lock {log : List (Entry SpecEvent)} {spec : StoredSpec} (rec : SpecLocked) (seq ts : ℕ)
    (h : History log (some spec)) (hstate : spec.state = .draft) :
    History (log ++ [⟨.locked rec, seq, ts⟩]) (some ((rec.set ts).run spec))
  | archive {log : List (Entry SpecEvent)} {spec : StoredSpec} (rec : SpecArchived) (seq ts : ℕ)
    (h : History log (some spec)) (hstate : spec.state ≠ .archived) :
    History (log ++ [⟨.archived rec, seq, ts⟩]) (some ((SpecArchived.set ts).run spec))

/-- How an event that does not repeat changes the record of its task. -/
inductive Turns (entry : Entry SpecEvent) : Option StoredSpec → StoredSpec → Prop where
  | draft {rec : SpecDrafted} {actor : String} (hevent : entry.event = .drafted rec actor) :
    Turns entry none (rec.row entry.ts)
  | lock {rec : SpecLocked} {spec : StoredSpec} (hevent : entry.event = .locked rec)
    (hstate : spec.state = .draft) : Turns entry (some spec) ((rec.set entry.ts).run spec)
  | archive {rec : SpecArchived} {spec : StoredSpec} (hevent : entry.event = .archived rec)
    (hstate : spec.state ≠ .archived) :
    Turns entry (some spec) ((SpecArchived.set entry.ts).run spec)

section

variable {t t' : SpecRows} {entry : Entry SpecEvent}

/-- An update of one task changes the record of that task. -/
theorem selectSpec_updateWhere {taskId k : String} {update : Table.Update StoredSpec.taskId} :
    selectSpec (t.updateWhere (·.taskId == taskId) update) k =
      if k = taskId then (selectSpec t k).map update.run else selectSpec t k := by
  rw [selectSpec, Table.find?_updateWhere]
  cases hfind : t.find? k with
  | none => simp [selectSpec, hfind]
  | some spec =>
    have hkey : spec.taskId = k := (Table.find?_eq_some.1 hfind).2
    rw [selectSpec, hfind, Option.map_some, Option.map_some]
    by_cases hk : k = taskId
    · rw [if_pos hk, if_pos (by rw [hkey, hk, beq_self_eq_true])]
    · rw [if_neg hk, if_neg (by rw [hkey]; exact fun h => hk (beq_iff_eq.1 h))]

theorem validate_drafted {rec : SpecDrafted} {actor : String}
    (h : validateSpecTransition t (.drafted rec actor) = .ok none) :
    selectSpec t rec.taskId = none := by
  cases hselect : selectSpec t rec.taskId with
  | none => rfl
  | some existing =>
    simp only [validateSpecTransition, SpecEvent.taskId, hselect] at h
    split at h
    · exact nomatch pure_eq_ok.1 h
    · exact (throw_eq_ok.1 h).elim

theorem validate_locked {rec : SpecLocked}
    (h : validateSpecTransition t (.locked rec) = .ok none) :
    ∃ existing, selectSpec t rec.taskId = some existing ∧ existing.state = .draft := by
  cases hselect : selectSpec t rec.taskId with
  | none =>
    simp only [validateSpecTransition, SpecEvent.taskId, hselect] at h
    exact (throw_eq_ok.1 h).elim
  | some existing =>
    refine ⟨existing, rfl, ?_⟩
    simp only [validateSpecTransition, SpecEvent.taskId, hselect] at h
    split at h
    · exact (throw_eq_ok.1 h).elim
    · split at h
      · exact nomatch pure_eq_ok.1 h
      · exact (throw_eq_ok.1 h).elim
    · next hstate => exact hstate

theorem validate_archived {rec : SpecArchived}
    (h : validateSpecTransition t (.archived rec) = .ok none) :
    ∃ existing, selectSpec t rec.taskId = some existing ∧ existing.state ≠ .archived := by
  cases hselect : selectSpec t rec.taskId with
  | none =>
    simp only [validateSpecTransition, SpecEvent.taskId, hselect] at h
    exact (throw_eq_ok.1 h).elim
  | some existing =>
    refine ⟨existing, rfl, ?_⟩
    simp only [validateSpecTransition, SpecEvent.taskId, hselect] at h
    split at h
    · exact nomatch pure_eq_ok.1 h
    · next hstate => exact hstate

/-- An event that does not repeat turns the record of its task, and leaves the others alone. -/
theorem turns_of_step (hnone : validateSpecTransition t entry.event = .ok none)
    (h : specs.step t entry = .ok t') :
    ∃ spec, Turns entry (selectSpec t entry.event.taskId) spec ∧
      ∀ k, selectSpec t' k = if k = entry.event.taskId then some spec else selectSpec t k := by
  have happly : SpecsProjector.apply t entry = .ok t' := (Projection.step_eq_ok.1 h).2
  obtain ⟨found, hfound, hrest⟩ := bind_eq_ok.1 happly
  obtain rfl := Except.ok.inj (hnone.symm.trans hfound)
  have hupdated : ∀ {taskId : String} {existing : StoredSpec}
      {update : Table.Update StoredSpec.taskId}, selectSpec t taskId = some existing → ∀ k,
        selectSpec (t.updateWhere (·.taskId == taskId) update) k =
          if k = taskId then some (update.run existing) else selectSpec t k := by
    intro taskId existing update hselect k
    rw [selectSpec_updateWhere]
    split
    · next hk => rw [hk, hselect, Option.map_some]
    · rfl
  cases hevent : entry.event with
  | drafted rec actor =>
    rw [hevent] at hnone hrest
    refine ⟨rec.row entry.ts, ?_, fun k => ?_⟩
    · change Turns entry (selectSpec t rec.taskId) _
      rw [validate_drafted hnone]
      exact .draft hevent
    · exact Table.find?_insert? (orThrow_eq_ok.1 hrest)
  | locked rec =>
    rw [hevent] at hnone hrest
    obtain rfl := pure_eq_ok.1 hrest
    obtain ⟨existing, hselect, hstate⟩ := validate_locked hnone
    refine ⟨(rec.set entry.ts).run existing, ?_, hupdated hselect⟩
    change Turns entry (selectSpec t rec.taskId) _
    rw [hselect]
    exact .lock hevent hstate
  | archived rec =>
    rw [hevent] at hnone hrest
    obtain rfl := pure_eq_ok.1 hrest
    obtain ⟨existing, hselect, hstate⟩ := validate_archived hnone
    refine ⟨(SpecArchived.set entry.ts).run existing, ?_, hupdated hselect⟩
    change Turns entry (selectSpec t rec.taskId) _
    rw [hselect]
    exact .archive hevent hstate

end

theorem History.turn {log : List (Entry SpecEvent)} {entry : Entry SpecEvent}
    {old : Option StoredSpec} {spec : StoredSpec} (h : History log old)
    (hturns : Turns entry old spec) : History (log ++ [entry]) (some spec) := by
  obtain ⟨event, seq, ts⟩ := entry
  cases hturns with
  | draft hevent =>
    cases h
    obtain rfl : event = _ := hevent
    exact .draft _ _ seq ts
  | lock hevent hstate =>
    obtain rfl : event = _ := hevent
    exact .lock _ seq ts h hstate
  | archive hevent hstate =>
    obtain rfl : event = _ := hevent
    exact .archive _ seq ts h hstate

/-! ## What a spec keeps -/

def rank : SpecState → ℕ
  | .draft => 0
  | .locked => 1
  | .archived => 2

/-- The later record has the content of the earlier one, and all that had been done to it. -/
structure Keeps (spec spec' : StoredSpec) : Prop where
  title : spec'.title = spec.title
  goal : spec'.goal = spec.goal
  criteria : spec'.criteria = spec.criteria
  body : spec'.body = spec.body
  draftedTs : spec'.draftedTs = spec.draftedTs
  forward : rank spec.state ≤ rank spec'.state
  lock : spec.state ≠ .draft → spec'.lockedBy = spec.lockedBy ∧ spec'.lockedTs = spec.lockedTs

theorem Keeps.refl (spec : StoredSpec) : Keeps spec spec :=
  ⟨rfl, rfl, rfl, rfl, rfl, le_rfl, fun _ => ⟨rfl, rfl⟩⟩

theorem Keeps.trans {spec spec' spec'' : StoredSpec} (h : Keeps spec spec')
    (h' : Keeps spec' spec'') : Keeps spec spec'' where
  title := h'.title.trans h.title
  goal := h'.goal.trans h.goal
  criteria := h'.criteria.trans h.criteria
  body := h'.body.trans h.body
  draftedTs := h'.draftedTs.trans h.draftedTs
  forward := h.forward.trans h'.forward
  lock hstate := by
    have hlater : spec'.state ≠ .draft := by
      intro hdraft
      have hforward := h.forward
      rw [hdraft] at hforward
      cases hspec : spec.state with
      | draft => exact hstate hspec
      | locked | archived =>
        rw [hspec] at hforward
        simp [rank] at hforward
    obtain ⟨hby, hts⟩ := h.lock hstate
    obtain ⟨hby', hts'⟩ := h'.lock hlater
    exact ⟨hby'.trans hby, hts'.trans hts⟩

theorem Turns.keeps {entry : Entry SpecEvent} {spec spec' : StoredSpec}
    (h : Turns entry (some spec) spec') : Keeps spec spec' := by
  cases h with
  | lock hevent hstate =>
    refine ⟨rfl, rfl, rfl, rfl, rfl, ?_, fun hlocked => absurd hstate hlocked⟩
    rw [hstate]
    exact Nat.zero_le _
  | archive hevent hstate =>
    refine ⟨rfl, rfl, rfl, rfl, rfl, ?_, fun _ => ⟨rfl, rfl⟩⟩
    change rank spec.state ≤ 2
    cases spec.state <;> decide

/-! ## The store -/

/-- What the log tells of a task. -/
def taskLog (s : SpecLog) (taskId : String) : List (Entry SpecEvent) :=
  s.log.filter fun entry => entry.event.taskId = taskId

/-- A later state of the specs. -/
def Later (s s' : SpecLog) : Prop :=
  ∀ taskId spec, selectSpec s.tables taskId = some spec →
    ∃ spec', selectSpec s'.tables taskId = some spec' ∧ Keeps spec spec'

theorem Later.refl (s : SpecLog) : Later s s := fun _ spec h => ⟨spec, h, .refl spec⟩

theorem Later.trans {s s' s'' : SpecLog} (h : Later s s') (h' : Later s' s'') : Later s s'' := by
  intro taskId spec hspec
  obtain ⟨mid, hmid, hkeeps⟩ := h taskId spec hspec
  obtain ⟨last, hlast, hkeeps'⟩ := h' taskId mid hmid
  exact ⟨last, hlast, hkeeps.trans hkeeps'⟩

/-- The specs are what the log tells of them. -/
structure Told (s : SpecLog) : Prop where
  sound : specs.Sound s
  history : ∀ taskId, History (taskLog s taskId) (selectSpec s.tables taskId)

theorem Told.start (clock : ℕ → ℕ) : Told (specs.start clock) where
  sound := .start clock
  history _ := .none

section

variable {s s' : SpecLog} {event : SpecEvent}

/-- A step that is taken turns the record of its task. -/
theorem turns_of_record (hnone : validateSpecTransition s.tables event = .ok none)
    (h : specs.record event s = .ok ((), s')) :
    s'.log = s.log ++ [s.entry event] ∧
      ∃ spec, Turns (s.entry event) (selectSpec s.tables event.taskId) spec ∧
        ∀ k, selectSpec s'.tables k =
          if k = event.taskId then some spec else selectSpec s.tables k := by
  obtain ⟨-, tables, hstep, rfl⟩ := Projection.record_eq_ok.1 h
  exact ⟨rfl, @turns_of_step s.tables tables (s.entry event) hnone hstep⟩

theorem Told.record (h : Told s) (hnone : validateSpecTransition s.tables event = .ok none)
    (hrecord : specs.record event s = .ok ((), s')) : Told s' := by
  refine ⟨h.sound.record hrecord, fun taskId => ?_⟩
  obtain ⟨hlog, spec, hturns, hselect⟩ := turns_of_record hnone hrecord
  rw [taskLog, hlog, List.filter_append, hselect taskId]
  by_cases htask : taskId = event.taskId
  · subst htask
    rw [if_pos rfl, List.filter_cons_of_pos (by simp [Store.entry]), List.filter_nil]
    exact (h.history event.taskId).turn hturns
  · rw [if_neg htask, List.filter_cons_of_neg (by simp [Store.entry, Ne.symm htask]),
      List.filter_nil, List.append_nil]
    exact h.history taskId

theorem later_record (hnone : validateSpecTransition s.tables event = .ok none)
    (hrecord : specs.record event s = .ok ((), s')) : Later s s' := by
  intro taskId spec hspec
  obtain ⟨-, spec', hturns, hselect⟩ := turns_of_record hnone hrecord
  rw [hselect taskId]
  by_cases htask : taskId = event.taskId
  · subst htask
    rw [hspec] at hturns
    exact ⟨spec', if_pos rfl, hturns.keeps⟩
  · exact ⟨spec, (if_neg htask).trans hspec, .refl spec⟩

/-- A step of the store leaves it alone, or turns the record of its task. -/
theorem SpecStore.record_exec (verb : String) (event : SpecEvent) (s : SpecLog) :
    (SpecStore.record verb event).exec s = s ∨
      validateSpecTransition s.tables event = .ok none ∧
        specs.record event s = .ok ((), (SpecStore.record verb event).exec s) :=
  Projection.settle_exec _ _ _ s

theorem Told.exec (h : Told s) (verb : String) (event : SpecEvent) :
    Told ((SpecStore.record verb event).exec s) := by
  rcases SpecStore.record_exec verb event s with hsame | ⟨hnone, hrecord⟩
  · rwa [hsame]
  · exact h.record hnone hrecord

theorem later_exec (verb : String) (event : SpecEvent) (s : SpecLog) :
    Later s ((SpecStore.record verb event).exec s) := by
  rcases SpecStore.record_exec verb event s with hsame | ⟨hnone, hrecord⟩
  · rw [hsame]
    exact .refl s
  · exact later_record hnone hrecord

end

/-! ## Calls that overlap -/

/-- The specs, and the calls that have passed their checks and still have to record. -/
structure SpecOffice where
  store : SpecLog
  locks : List (String × String) := []
  archives : List String := []

/-- A step of a call. A lock and an archival read the spec in one transaction and record in
another, so that other calls come between. -/
inductive SpecCall where
  | recordDraft (rec : SpecDrafted) (actor : String)
  | checkLock (taskId lockedBy : String)
  | recordLock (taskId lockedBy : String)
  | checkArchive (taskId : String)
  | recordArchive (taskId : String)

namespace SpecCall

def exec : SpecCall → SpecOffice → SpecOffice
  | recordDraft rec actor, s => { s with store := (SpecStore.recordDraft rec actor).exec s.store }
  | checkLock taskId lockedBy, s =>
    match lockChecks taskId (selectSpec s.store.tables taskId) with
    | .ok _ => { s with locks := (taskId, lockedBy) :: s.locks }
    | .error _ => s
  | recordLock taskId lockedBy, s =>
    if (taskId, lockedBy) ∈ s.locks then {
      s with
      store := (SpecStore.recordLock taskId lockedBy).exec s.store
      locks := s.locks.erase (taskId, lockedBy) }
    else s
  | checkArchive taskId, s =>
    match archiveChecks taskId (selectSpec s.store.tables taskId) with
    | .ok _ => { s with archives := taskId :: s.archives }
    | .error _ => s
  | recordArchive taskId, s =>
    if taskId ∈ s.archives then {
      s with
      store := (SpecStore.recordArchive taskId).exec s.store
      archives := s.archives.erase taskId }
    else s

end SpecCall

abbrev specRun (calls : List SpecCall) (s : SpecOffice) : SpecOffice :=
  Run.after SpecCall.exec calls s

/-- A lock that nothing comes between is its two steps. -/
theorem lockSpec_exec (taskId lockedBy : String) (s : SpecLog) :
    (lockSpec taskId lockedBy).exec s =
      (specRun [.checkLock taskId lockedBy, .recordLock taskId lockedBy] { store := s }).store := by
  have hread : SpecStore.getSpec taskId s = (.ok (selectSpec s.tables taskId), s) := rfl
  have hlock : (lockSpec taskId lockedBy).exec s =
      ((liftM (lockChecks taskId (selectSpec s.tables taskId)) : SpecProc Unit) >>= fun _ =>
        SpecStore.recordLock taskId lockedBy).exec s := by
    change ((SpecStore.getSpec taskId >>= _) s).2 = _
    rcases hrest : ((liftM (lockChecks taskId (selectSpec s.tables taskId)) : SpecProc Unit) >>=
      fun _ => SpecStore.recordLock taskId lockedBy) s with ⟨result, last⟩
    have hbind : (SpecStore.getSpec taskId >>= fun spec =>
        (liftM (lockChecks taskId spec) : SpecProc Unit) >>= fun _ =>
          SpecStore.recordLock taskId lockedBy) s = (result, last) := hrest
    exact (congrArg Prod.snd hbind).trans (congrArg Prod.snd hrest).symm
  rw [hlock]
  simp only [Run.after_cons, Run.after_nil, SpecCall.exec]
  cases lockChecks taskId (selectSpec s.tables taskId) with
  | error e => simp [Proc.exec]; rfl
  | ok u => simp [Proc.exec]; rfl

/-- A spec whose criteria were frozen by somebody at some time, and could be checked. -/
structure Frozen (spec : StoredSpec) : Prop where
  checkable : Plans.Checkable spec.criteria
  lockedBy : spec.lockedBy.isSome = true
  lockedTs : spec.lockedTs.isSome = true

theorem Frozen.keeps {spec spec' : StoredSpec} (h : Frozen spec) (hstate : spec.state ≠ .draft)
    (hkeeps : Keeps spec spec') : Frozen spec' := by
  obtain ⟨hby, hts⟩ := hkeeps.lock hstate
  exact ⟨hkeeps.criteria ▸ h.checkable, hby ▸ h.lockedBy, hts ▸ h.lockedTs⟩

/-- The specs and the calls on them: a call that passed its checks finds a spec that passes them
still, or was taken further. -/
structure Orderly (s : SpecOffice) : Prop where
  told : Told s.store
  locks : ∀ taskId lockedBy, (taskId, lockedBy) ∈ s.locks → ∃ spec,
    selectSpec s.store.tables taskId = some spec ∧ Plans.Checkable spec.criteria
  archives : ∀ taskId ∈ s.archives, ∃ spec, selectSpec s.store.tables taskId = some spec ∧
    spec.state ≠ .draft
  frozen : ∀ taskId spec, selectSpec s.store.tables taskId = some spec →
    spec.state ≠ .draft → Frozen spec

section

variable {s : SpecOffice} {event : SpecEvent} {verb : String}

/-- A step of the store keeps order, if what it locks is checkable and what it archives was
locked. -/
theorem Orderly.record (h : Orderly s)
    (hlock : ∀ rec spec, event = .locked rec → selectSpec s.store.tables rec.taskId = some spec →
      Plans.Checkable spec.criteria)
    (harchive : ∀ rec spec, event = .archived rec →
      selectSpec s.store.tables rec.taskId = some spec → spec.state ≠ .draft)
    {locks : List (String × String)} {archives : List String}
    (hlocks : ∀ p ∈ locks, p ∈ s.locks) (harchives : ∀ a ∈ archives, a ∈ s.archives) :
    Orderly { store := (SpecStore.record verb event).exec s.store, locks, archives } := by
  have hlater := later_exec verb event s.store
  refine ⟨h.told.exec verb event, ?_, ?_, ?_⟩
  · intro taskId lockedBy hmem
    obtain ⟨spec, hspec, hcheckable⟩ := h.locks taskId lockedBy (hlocks _ hmem)
    obtain ⟨spec', hspec', hkeeps⟩ := hlater taskId spec hspec
    exact ⟨spec', hspec', hkeeps.criteria ▸ hcheckable⟩
  · intro taskId hmem
    obtain ⟨spec, hspec, hstate⟩ := h.archives taskId (harchives _ hmem)
    obtain ⟨spec', hspec', hkeeps⟩ := hlater taskId spec hspec
    refine ⟨spec', hspec', fun hdraft => ?_⟩
    have hforward := hkeeps.forward
    rw [hdraft] at hforward
    cases hs : spec.state <;> simp_all [rank]
  · intro taskId spec' hspec' hstate'
    rcases SpecStore.record_exec verb event s.store with hsame | ⟨hnone, hrecord⟩
    · exact h.frozen taskId spec' (hsame ▸ hspec') hstate'
    · obtain ⟨-, spec, hturns, hselect⟩ := turns_of_record hnone hrecord
      have hspec := hselect taskId
      rw [hspec'] at hspec
      by_cases htask : taskId = event.taskId
      · subst htask
        rw [if_pos rfl] at hspec
        obtain rfl := Option.some.inj hspec
        generalize hold : selectSpec s.store.tables event.taskId = old at hturns
        cases hturns with
        | draft => exact absurd rfl hstate'
        | @lock rec before hevent hdraft =>
          obtain rfl : event = _ := hevent
          exact ⟨hlock rec before rfl hold, rfl, rfl⟩
        | @archive rec before hevent hbefore =>
          obtain rfl : event = _ := hevent
          have hlocked := harchive _ _ rfl hold
          have hkeeps : Keeps before ((SpecArchived.set (s.store.clock s.store.nextSeq)).run
              before) :=
            @Turns.keeps (s.store.entry (.archived rec)) before _ (.archive rfl hbefore)
          exact (h.frozen _ before hold hlocked).keeps hlocked hkeeps
      · rw [if_neg htask] at hspec
        exact h.frozen taskId spec' hspec.symm hstate'

theorem checkable_of_lockChecks {taskId : String} {found : Option StoredSpec} {u : Unit}
    (h : lockChecks taskId found = .ok u) :
    ∃ spec, found = some spec ∧ Plans.Checkable spec.criteria := by
  obtain ⟨spec, hspec, h⟩ := bind_eq_ok.1 h
  obtain ⟨_, -, h⟩ := bind_eq_ok.1 h
  refine ⟨spec, orThrow_eq_ok.1 hspec, Plans.validateCriteria_eq_nil.1 ?_⟩
  exact List.eq_nil_of_length_eq_zero (Nat.le_zero.1 (Nat.not_lt.1 (refuse_eq_ok.1 h)))

theorem locked_of_archiveChecks {taskId : String} {found : Option StoredSpec} {u : Unit}
    (h : archiveChecks taskId found = .ok u) :
    ∃ spec, found = some spec ∧ spec.state = .locked := by
  obtain ⟨spec, hspec, h⟩ := bind_eq_ok.1 h
  exact ⟨spec, orThrow_eq_ok.1 hspec, not_not.1 (refuse_eq_ok.1 h)⟩

/-- Every step of every call keeps order. -/
theorem Orderly.exec (h : Orderly s) (call : SpecCall) : Orderly (call.exec s) := by
  cases call with
  | recordDraft rec actor =>
    exact h.record (by intro _ _ heq; cases heq) (by intro _ _ heq; cases heq) (fun _ hp => hp)
      fun _ ha => ha
  | checkLock taskId lockedBy =>
    rw [SpecCall.exec]
    cases hchecks : lockChecks taskId (selectSpec s.store.tables taskId) with
    | error e => exact h
    | ok u =>
      obtain ⟨spec, hspec, hcheckable⟩ := checkable_of_lockChecks hchecks
      refine { h with locks := fun taskId' lockedBy' hmem => ?_ }
      rcases List.mem_cons.1 hmem with heq | hmem
      · obtain ⟨rfl, -⟩ := Prod.mk.inj heq
        exact ⟨spec, hspec, hcheckable⟩
      · exact h.locks taskId' lockedBy' hmem
  | recordLock taskId lockedBy =>
    rw [SpecCall.exec]
    split
    · next hmem =>
      obtain ⟨spec, hspec, hcheckable⟩ := h.locks taskId lockedBy hmem
      refine h.record (fun rec found heq hfound => ?_) (by intro _ _ heq; cases heq)
        (fun _ hp => List.mem_of_mem_erase hp) fun _ ha => ha
      obtain rfl := SpecEvent.locked.inj heq
      rwa [← Option.some.inj (hspec.symm.trans hfound)]
    · exact h
  | checkArchive taskId =>
    rw [SpecCall.exec]
    cases hchecks : archiveChecks taskId (selectSpec s.store.tables taskId) with
    | error e => exact h
    | ok u =>
      obtain ⟨spec, hspec, hstate⟩ := locked_of_archiveChecks hchecks
      refine { h with archives := fun taskId' hmem => ?_ }
      rcases List.mem_cons.1 hmem with rfl | hmem
      · exact ⟨spec, hspec, fun hdraft => nomatch hstate.symm.trans hdraft⟩
      · exact h.archives taskId' hmem
  | recordArchive taskId =>
    rw [SpecCall.exec]
    split
    · next hmem =>
      obtain ⟨spec, hspec, hstate⟩ := h.archives taskId hmem
      refine h.record (by intro _ _ heq; cases heq) (fun rec found heq hfound => ?_)
        (fun _ hp => hp) fun _ ha => List.mem_of_mem_erase ha
      obtain rfl := SpecEvent.archived.inj heq
      rwa [← Option.some.inj (hspec.symm.trans hfound)]
    · exact h

theorem SpecCall.later (call : SpecCall) (s : SpecOffice) :
    Later s.store (call.exec s).store := by
  cases call with
  | recordDraft rec actor => exact later_exec _ _ _
  | checkLock taskId lockedBy =>
    rw [SpecCall.exec]
    split <;> exact .refl _
  | recordLock taskId lockedBy =>
    rw [SpecCall.exec]
    split
    · exact later_exec _ _ _
    · exact .refl _
  | checkArchive taskId =>
    rw [SpecCall.exec]
    split <;> exact .refl _
  | recordArchive taskId =>
    rw [SpecCall.exec]
    split
    · exact later_exec _ _ _
    · exact .refl _

end

theorem Orderly.start (clock : ℕ → ℕ) : Orderly { store := specs.start clock } where
  told := .start clock
  locks _ _ hmem := absurd hmem List.not_mem_nil
  archives _ hmem := absurd hmem List.not_mem_nil
  frozen _ _ hselect := nomatch hselect

/-- However the steps of any calls fall: every record is what the log tells of its task, a spec
that is locked or archived was locked with criteria that can be checked, and folding the log again
changes nothing. -/
theorem spec_lifecycle (clock : ℕ → ℕ) (calls : List SpecCall) :
    let s := specRun calls { store := specs.start clock }
    (∀ taskId, History (taskLog s.store taskId) (selectSpec s.store.tables taskId)) ∧
      (∀ taskId spec, selectSpec s.store.tables taskId = some spec → spec.state ≠ .draft →
        Frozen spec) ∧
      ∀ limit, 0 < limit → specs.rebuild limit s.store = (.ok (), s.store) := by
  intro s
  have h : Orderly s := Run.always Orderly (fun call _ hs => hs.exec call) (.start clock)
  exact ⟨h.told.history, h.frozen, fun limit hlimit => h.told.sound.rebuild_eq hlimit⟩

/-- However a run goes on, a spec keeps its content, never goes back, and keeps its lock. -/
theorem spec_content_frozen (clock : ℕ → ℕ) (calls more : List SpecCall) :
    Later (specRun calls { store := specs.start clock }).store
      (specRun (calls ++ more) { store := specs.start clock }).store := by
  have hsplit : specRun (calls ++ more) { store := specs.start clock } =
      specRun more (specRun calls { store := specs.start clock }) := Run.after_append calls more _
  rw [hsplit]
  clear hsplit
  generalize specRun calls { store := specs.start clock } = s
  induction more generalizing s with
  | nil => exact .refl _
  | cons call more ih => exact (call.later s).trans (ih (call.exec s))

end Orchestration.Specs
