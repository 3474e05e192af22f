import Orchestration.Plans.ChildCap

/-!
# The newest branch of an agent

Which branch an agent was given last is a fact of the log. The code reads it off the sandbox
table, by the times of the creations, and with the branch name where two times are the same. The
two agree as long as the times follow the log.
-/

namespace Orchestration.Plans

open Fallible
open Worktrees (WorktreeCreated WorktreeEvent WorktreeRecord WorktreeRows WorktreeTables
  applyCreated)

/-- The creation of a sandbox that an event records. -/
def creation (event : StoredEvent Payload) : Option (StoredEvent WorktreeCreated) :=
  match event.payload with
  | .worktree (.created rec) => some (event.withPayload rec)
  | _ => none

/-- The last creation of a branch in the log. -/
def lastCreation (events : List (StoredEvent Payload)) (branch : String) :
    Option (StoredEvent WorktreeCreated) :=
  ((events.filterMap creation).filter (·.payload.branch == branch)).getLast?

/-- The branch was created for the agent, after every other branch that is the agent's. A branch
that was created again for another agent is not. -/
def NewestBranch (events : List (StoredEvent Payload)) (agent branch : String) : Prop :=
  ∃ created, lastCreation events branch = some created ∧ created.payload.agent = some agent ∧
    ∀ other later, lastCreation events other = some later → later.payload.agent = some agent →
      later.seq ≤ created.seq

/-- How the sandboxes are listed. -/
def ListedBefore (ts : ℕ) (branch : String) (ts' : ℕ) (branch' : String) : Prop :=
  ts < ts' ∨ ts = ts' ∧ branch ≤ branch'

instance (ts : ℕ) (branch : String) (ts' : ℕ) (branch' : String) :
    Decidable (ListedBefore ts branch ts' branch') :=
  inferInstanceAs (Decidable (_ ∨ _))

/-- The branches of one agent are listed in the order of the log. -/
def InLogOrder (events : List (StoredEvent Payload)) : Prop :=
  ∀ branch branch' created created', lastCreation events branch = some created →
    lastCreation events branch' = some created' → created.payload.agent.isSome = true →
    created.payload.agent = created'.payload.agent → created.seq < created'.seq →
      ListedBefore created.ts branch created'.ts branch'

/-! ## The last creation -/

section

variable {events : List (StoredEvent Payload)} {event : StoredEvent Payload} {branch : String}

theorem lastCreation_concat_created {rec : WorktreeCreated}
    (hevent : event.payload = .worktree (.created rec)) :
    lastCreation (events ++ [event]) branch =
      if branch = rec.branch then some (event.withPayload rec) else lastCreation events branch := by
  have hcreation : creation event = some (event.withPayload rec) := by
    rw [creation, hevent]
  rw [lastCreation, List.filterMap_append, List.filterMap_cons_some hcreation, List.filterMap_nil,
    List.filter_append]
  split
  · next hbranch =>
    rw [List.filter_cons_of_pos (by simp [StoredEvent.withPayload, hbranch]), List.filter_nil,
      List.getLast?_concat]
  · next hbranch =>
    rw [List.filter_cons_of_neg (by simpa [StoredEvent.withPayload] using Ne.symm hbranch),
      List.filter_nil, List.append_nil]
    rfl

theorem lastCreation_concat (hother : ∀ rec, event.payload ≠ .worktree (.created rec)) :
    lastCreation (events ++ [event]) branch = lastCreation events branch := by
  have hnone : creation event = none := by
    unfold creation
    split
    · next rec hrec => exact absurd hrec (hother rec)
    · rfl
  rw [lastCreation, List.filterMap_append, List.filterMap_cons_none hnone, List.filterMap_nil,
    List.append_nil]
  rfl

theorem lastCreation_mem {created : StoredEvent WorktreeCreated}
    (h : lastCreation events branch = some created) :
    created.payload.branch = branch ∧ ∃ event ∈ events,
      event.payload = .worktree (.created created.payload) ∧ event.seq = created.seq := by
  obtain ⟨hmem, hbranch⟩ := List.mem_filter.1 (List.mem_of_getLast? h)
  obtain ⟨event, hevent, hcreation⟩ := List.mem_filterMap.1 hmem
  refine ⟨beq_iff_eq.1 hbranch, event, hevent, ?_⟩
  unfold creation at hcreation
  split at hcreation
  · next rec hrec =>
    obtain rfl := Option.some.inj hcreation
    exact ⟨hrec, rfl⟩
  · cases hcreation

theorem NewestBranch.mem {agent : String} (h : NewestBranch events agent branch) :
    ∃ created ∈ events.filterMap creation, created.payload.agent = some agent ∧
      created.payload.branch = branch := by
  obtain ⟨created, hlast, hagent, -⟩ := h
  obtain ⟨hmem, hbranch⟩ := List.mem_filter.1 (List.mem_of_getLast? hlast)
  exact ⟨created, hmem, hagent, beq_iff_eq.1 hbranch⟩

end

/-! ## The sandbox table -/

/-- Whose sandbox a row is, and since when. -/
def sandboxOf (row : WorktreeRecord) : Option String × ℕ := (row.agent, row.createdTs)

/-- The table holds the last creation of every branch. -/
def Created (events : List (StoredEvent Payload)) (t : WorktreeTables) : Prop :=
  ∀ branch, (t.worktrees.find? branch).map sandboxOf =
    (lastCreation events branch).map fun created => (created.payload.agent, created.ts)

theorem sandbox_of_created {t t' : WorktreeRows} {event : StoredEvent WorktreeEvent}
    {rec : WorktreeCreated} (h : applyCreated t event rec = .ok t') (branch : String) :
    (t'.worktrees.find? branch).map sandboxOf =
      if branch = rec.branch then some (rec.agent, event.ts)
      else (t.worktrees.find? branch).map sandboxOf := by
  rw [applyCreated] at h
  cases hfind : t.worktrees.find? rec.branch with
  | some existing =>
    simp only [hfind, bind_eq_ok, pure_eq_ok] at h
    obtain ⟨-, -, rfl⟩ := h
    rw [Table.find?_upsert]
    split
    · next hbranch =>
      rw [show branch = rec.branch from hbranch, hfind]
      rfl
    · rfl
  | none =>
    simp only [hfind, bind_eq_ok, orThrow_eq_ok, pure_eq_ok] at h
    obtain ⟨worktrees, hinsert, rfl⟩ := h
    rw [Table.find?_insert? hinsert]
    split <;> rfl

/-- Nothing but a creation changes whose sandbox a branch is. -/
theorem sandbox_of_other {t t' : WorktreeTables} {event : StoredEvent WorktreeEvent}
    (h : Worktrees.WorktreeProjector.apply [] t event = .ok t')
    (hother : ∀ rec, event.payload ≠ .created rec) (branch : String) :
    (t'.worktrees.find? branch).map sandboxOf = (t.worktrees.find? branch).map sandboxOf := by
  have hrows := Worktrees.WorktreeProjector.rows_of_apply h
  rw [WorktreeTables.applyRows_eq] at hrows
  cases hpayload : event.payload with
  | created rec => exact absurd hpayload (hother rec)
  | baseline b =>
    simp only [hpayload, Worktrees.applyBaseline, bind_eq_ok, pure_eq_ok] at hrows
    obtain ⟨baselines, -, hrows⟩ := hrows
    rw [← hrows]
  | finish f =>
    simp only [hpayload, pure_eq_ok] at hrows
    rw [← hrows, Worktrees.applyFinish]
  | removed removed =>
    simp only [hpayload, pure_eq_ok] at hrows
    rw [← hrows, Worktrees.applyRemoved, Table.find?_updateWhere, Option.map_map]
    refine congrFun (congrArg Option.map (funext fun row => ?_)) _
    rw [Function.comp_apply]
    split <;> rfl

theorem created_of_foldEvents {events : List (StoredEvent Payload)} {t : Projections}
    (h : foldEvents {} events = .ok t) : Created events t.worktrees := by
  refine foldEvents_induction (fun events t => Created events t.worktrees) (fun _ => rfl) ?_ h
  intro events t event t' ht hfold branch
  cases folded_of_foldEvent hfold with
  | @worktree payload tables hpayload _ happly =>
    cases payload with
    | created rec =>
      have hrows := Worktrees.WorktreeProjector.rows_of_apply happly
      rw [WorktreeTables.applyRows_eq] at hrows
      rw [lastCreation_concat_created hpayload, sandbox_of_created hrows]
      split
      · rfl
      · exact ht branch
    | baseline _ | finish _ | removed _ =>
      rw [lastCreation_concat (by simp [hpayload]),
        sandbox_of_other happly (by simp [StoredEvent.withPayload])]
      exact ht branch
  | mail hpayload | review hpayload | usage hpayload | cost hpayload
  | placement hpayload | toolUsage hpayload | plan hpayload | roles hpayload | session hpayload
  | archive hpayload =>
    rw [lastCreation_concat (by simp [hpayload])]
    exact ht branch

/-! ## The code's answer -/

section

variable {events : List (StoredEvent Payload)} {t : WorktreeTables} {agent branch : String}

theorem ListedBefore.antisymm {ts ts' : ℕ} {branch branch' : String}
    (h : ListedBefore ts branch ts' branch') (h' : ListedBefore ts' branch' ts branch) :
    branch = branch' := by
  rcases h with hlt | ⟨rfl, hle⟩
  · rcases h' with hlt' | ⟨rfl, -⟩ <;> omega
  · rcases h' with hlt' | ⟨-, hle'⟩
    · omega
    · exact String.le_antisymm hle hle'

theorem pairwise_listWorktrees (t : WorktreeTables) : (listWorktrees t).Pairwise fun a b =>
    ListedBefore a.createdTs a.branch b.createdTs b.branch := by
  have htotal : Std.Total fun a b : WorktreeRecord =>
      a.createdTs < b.createdTs ∨ a.createdTs = b.createdTs ∧ a.branch ≤ b.branch := by
    refine ⟨fun a b => ?_⟩
    rcases Nat.lt_trichotomy a.createdTs b.createdTs with hlt | heq | hgt
    · exact .inl (.inl hlt)
    · rcases String.le_total a.branch b.branch with hle | hle
      · exact .inl (.inr ⟨heq, hle⟩)
      · exact .inr (.inr ⟨heq.symm, hle⟩)
    · exact .inr (.inl hgt)
  have htrans : IsTrans WorktreeRecord fun a b =>
      a.createdTs < b.createdTs ∨ a.createdTs = b.createdTs ∧ a.branch ≤ b.branch := by
    refine ⟨fun a b c hab hbc => ?_⟩
    rcases hab with hlt | ⟨heq, hle⟩
    · rcases hbc with hlt' | ⟨heq', -⟩ <;> exact .inl (by omega)
    · rcases hbc with hlt' | ⟨heq', hle'⟩
      · exact .inl (by omega)
      · exact .inr ⟨heq.trans heq', String.le_trans hle hle'⟩
  exact List.pairwise_insertionSort (fun a b : WorktreeRecord =>
    a.createdTs < b.createdTs ∨ a.createdTs = b.createdTs ∧ a.branch ≤ b.branch) t.worktrees.rows

/-- The branch that is read off the table is the one that is listed last. -/
theorem resolveAgentBranch_eq_some (h : resolveAgentBranch t agent = some branch) :
    ∃ row ∈ t.worktrees.rows, row.agent = some agent ∧ row.branch = branch ∧
      ∀ other ∈ t.worktrees.rows, other.agent = some agent → other ≠ row →
        ListedBefore other.createdTs other.branch row.createdTs row.branch := by
  obtain ⟨row, hlast, rfl⟩ := Option.map_eq_some_iff.1 h
  have hmem : ∀ {other : WorktreeRecord}, other ∈ (listWorktrees t).filter (·.agent == some agent) ↔
      other ∈ t.worktrees.rows ∧ other.agent = some agent := by
    intro other
    rw [List.mem_filter, beq_iff_eq, listWorktrees, List.mem_insertionSort]
  obtain ⟨before, hsplit⟩ := List.getLast?_eq_some_iff.1 hlast
  obtain ⟨hrow, hagent⟩ := hmem.1 (List.mem_of_getLast? hlast)
  refine ⟨row, hrow, hagent, rfl, fun other hother hothers hne => ?_⟩
  have hsorted := (pairwise_listWorktrees t).filter (·.agent == some agent)
  have hin : other ∈ before ++ [row] := hsplit ▸ hmem.2 ⟨hother, hothers⟩
  rw [hsplit, List.pairwise_append] at hsorted
  rcases List.mem_append.1 hin with hbefore | hself
  · exact hsorted.2.2 other hbefore row List.mem_cons_self
  · exact absurd (List.mem_singleton.1 hself) hne

theorem Created.row (h : Created events t) {created : StoredEvent WorktreeCreated}
    (hlast : lastCreation events branch = some created) : ∃ row ∈ t.worktrees.rows,
      row.branch = branch ∧ row.agent = created.payload.agent ∧ row.createdTs = created.ts := by
  have hrow := h branch
  rw [hlast] at hrow
  obtain ⟨row, hfind, hsandbox⟩ := Option.map_eq_some_iff.1 hrow
  obtain ⟨hmem, hkey⟩ := Table.find?_eq_some.1 hfind
  obtain ⟨hagent, hts⟩ := Prod.mk.inj hsandbox
  exact ⟨row, hmem, hkey, hagent, hts⟩

theorem Created.created (h : Created events t) {row : WorktreeRecord}
    (hrow : row ∈ t.worktrees.rows) : ∃ created, lastCreation events row.branch = some created ∧
      created.payload.agent = row.agent ∧ created.ts = row.createdTs := by
  have hfind := h row.branch
  rw [Table.find?_eq_some.2 ⟨hrow, rfl⟩] at hfind
  obtain ⟨created, hlast, hsandbox⟩ := Option.map_eq_some_iff.1 hfind.symm
  obtain ⟨hagent, hts⟩ := Prod.mk.inj hsandbox
  exact ⟨created, hlast, hagent, hts⟩

/-- Where the times follow the log, the code finds the newest branch. -/
theorem newestBranch_of_resolve (hcreated : Created events t) (horder : InLogOrder events)
    (h : resolveAgentBranch t agent = some branch) : NewestBranch events agent branch := by
  obtain ⟨row, hrow, hagent, rfl, hlast⟩ := resolveAgentBranch_eq_some h
  obtain ⟨created, hcreation, hsome, hts⟩ := hcreated.created hrow
  refine ⟨created, hcreation, hsome.trans hagent, fun other later hlater hlaters => ?_⟩
  by_contra hlt
  obtain ⟨row', hrow', rfl, hagent', hts'⟩ := hcreated.row hlater
  have hafter := horder _ _ created later hcreation hlater (by rw [hsome, hagent]; rfl)
    ((hsome.trans hagent).trans hlaters.symm) (Nat.lt_of_not_le hlt)
  have hne : row' ≠ row := by
    rintro rfl
    obtain rfl := Option.some.inj (hcreation.symm.trans hlater)
    exact hlt (Nat.le_refl _)
  have hbefore := hlast row' hrow' (hagent'.trans hlaters) hne
  rw [← hts, hts'] at hbefore
  have hsame := hafter.antisymm hbefore
  rw [hsame] at hcreation
  obtain rfl := Option.some.inj (hcreation.symm.trans hlater)
  exact hlt (Nat.le_refl _)

end

end Orchestration.Plans
