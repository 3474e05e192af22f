import Mathlib.Data.List.Nodup
import Mathlib.Logic.Function.Iterate
import Mathlib.Logic.Relation
import Orchestration.Plans.Completion

/-!
# Planning anew

What a phase has earned stands on its own contract and on everything it depends on. A new plan
keeps it just where neither has changed: the changed phases are closed over the dependencies of
the new plan, pass by pass, until a pass adds nothing.
-/

namespace Orchestration.Plans

open Fallible

/-! ## The closure -/

/-- The phase `a` of the new plan names `b` among its dependencies. -/
def DependsOn (phases : List PhaseNode) (a b : String) : Prop :=
  ∃ phase ∈ phases, phase.phaseId = a ∧ b ∈ phase.deps

theorem mem_expandAffected_of_mem {phases : List PhaseNode} {affected : List String} {id : String}
    (h : id ∈ affected) : id ∈ expandAffected phases affected := by
  obtain ⟨added, heq, -⟩ := expandAffected_eq phases affected
  rw [heq]
  exact List.mem_append_left _ h

/-- One pass affects what depends on something affected. -/
theorem mem_expandAffected_of_dep {phases : List PhaseNode} {affected : List String}
    {phase : PhaseNode} {dep : String} (hphase : phase ∈ phases) (hdep : dep ∈ phase.deps)
    (haffected : dep ∈ affected) : phase.phaseId ∈ expandAffected phases affected := by
  induction phases generalizing affected with
  | nil => cases hphase
  | cons first phases ih =>
    rw [expandAffected, List.foldl_cons]
    rcases List.mem_cons.1 hphase with rfl | hphase
    · apply mem_expandAffected_of_mem
      split
      · next hmem => exact hmem
      · rw [if_pos (List.any_eq_true.2 ⟨dep, hdep, by simpa using haffected⟩)]
        exact List.mem_append_right _ List.mem_cons_self
    · apply ih hphase
      split
      · exact haffected
      · split
        · exact List.mem_append_left _ haffected
        · exact haffected

/-- What a pass adds depends on something that was affected, or that it added before. -/
theorem expandAffected_induction {phases : List PhaseNode} {P : String → Prop}
    (step : ∀ phase ∈ phases, ∀ dep ∈ phase.deps, P dep → P phase.phaseId) {affected : List String}
    (h : ∀ id ∈ affected, P id) : ∀ id ∈ expandAffected phases affected, P id := by
  induction phases generalizing affected with
  | nil => exact h
  | cons first phases ih =>
    rw [expandAffected, List.foldl_cons]
    apply ih fun phase hphase => step phase (List.mem_cons_of_mem _ hphase)
    split
    · exact h
    · split
      · next hdep =>
        obtain ⟨dep, hmem, haffected⟩ := List.any_eq_true.1 hdep
        intro id hid
        rcases List.mem_append.1 hid with hid | hid
        · exact h id hid
        · rw [List.mem_singleton.1 hid]
          exact step first List.mem_cons_self dep hmem (h dep (by simpa using haffected))
      · exact h

/-- A pass that adds nothing in number adds nothing. -/
theorem expandAffected_of_length {phases : List PhaseNode} {affected : List String}
    (h : (expandAffected phases affected).length = affected.length) :
    expandAffected phases affected = affected := by
  obtain ⟨added, heq, -⟩ := expandAffected_eq phases affected
  rw [heq, List.length_append] at h
  have hnone : added = [] := List.eq_nil_of_length_eq_zero (by omega)
  rw [heq, hnone, List.append_nil]

/-- The propagation stops after a pass for each phase at the most, at a set to which another pass
adds nothing. -/
theorem affectedPhaseContracts_passes (phases : List PhaseNode) (changed : List String) :
    ∃ passes ≤ phases.countP (fun phase => !changed.contains phase.phaseId),
      affectedPhaseContracts phases changed = Nat.iterate (expandAffected phases) passes changed ∧
      expandAffected phases (affectedPhaseContracts phases changed) =
        affectedPhaseContracts phases changed := by
  induction changed using affectedPhaseContracts.induct phases with
  | case1 changed hstop =>
    refine ⟨0, Nat.zero_le _, ?_, ?_⟩
    · rw [affectedPhaseContracts, if_pos hstop]
      rfl
    · rw [affectedPhaseContracts, if_pos hstop]
      exact expandAffected_of_length hstop
  | case2 changed hgrows ih =>
    obtain ⟨passes, hbound, hiterate, hfixed⟩ := ih
    have hfewer := countP_expandAffected_lt hgrows
    rw [affectedPhaseContracts, if_neg hgrows]
    exact ⟨passes + 1, by omega, hiterate, hfixed⟩

theorem subset_affectedPhaseContracts {phases : List PhaseNode} {changed : List String}
    {id : String} (h : id ∈ changed) : id ∈ affectedPhaseContracts phases changed := by
  induction changed using affectedPhaseContracts.induct phases with
  | case1 changed hstop =>
    rw [affectedPhaseContracts, if_pos hstop]
    exact h
  | case2 changed hgrows ih =>
    rw [affectedPhaseContracts, if_neg hgrows]
    exact ih (mem_expandAffected_of_mem h)

theorem affectedPhaseContracts_induction {phases : List PhaseNode} {P : String → Prop}
    (step : ∀ phase ∈ phases, ∀ dep ∈ phase.deps, P dep → P phase.phaseId) {changed : List String}
    (h : ∀ id ∈ changed, P id) : ∀ id ∈ affectedPhaseContracts phases changed, P id := by
  induction changed using affectedPhaseContracts.induct phases with
  | case1 changed hstop =>
    rw [affectedPhaseContracts, if_pos hstop]
    exact h
  | case2 changed hgrows ih =>
    rw [affectedPhaseContracts, if_neg hgrows]
    exact ih (expandAffected_induction step h)

/-- A phase is affected just when it has changed or depends, over however many phases, on one that
has. -/
theorem mem_affectedPhaseContracts {phases : List PhaseNode} {changed : List String}
    {id : String} : id ∈ affectedPhaseContracts phases changed ↔
      ∃ source ∈ changed, Relation.ReflTransGen (DependsOn phases) id source := by
  constructor
  · apply affectedPhaseContracts_induction
    · rintro phase hphase dep hdep ⟨source, hsource, hpath⟩
      exact ⟨source, hsource, .head ⟨phase, hphase, rfl, hdep⟩ hpath⟩
    · exact fun id hid => ⟨id, hid, .refl⟩
  · rintro ⟨source, hsource, hpath⟩
    obtain ⟨_, -, -, hfixed⟩ := affectedPhaseContracts_passes phases changed
    induction hpath using Relation.ReflTransGen.head_induction_on with
    | refl => exact subset_affectedPhaseContracts hsource
    | head hstep _ ih =>
      obtain ⟨phase, hphase, rfl, hdep⟩ := hstep
      rw [← hfixed]
      exact mem_expandAffected_of_dep hphase hdep ih

/-! ## What a new plan writes -/

/-- What a phase has earned. -/
def PhaseRecord.evidence (phase : PhaseRecord) : PhaseStatus × Option Bool × Option String :=
  (phase.status, phase.verifiedPass, phase.baselineSha)

/-- The dependencies and the criteria that a phase is verified against. -/
def PhaseRecord.contract (phase : PhaseRecord) : List String × List Criterion :=
  (phase.deps, phase.criteria)

def PhaseNode.contract (phase : PhaseNode) : List String × List Criterion :=
  (phase.deps, phase.criteria)

/-- The phase is in the new plan without having been in the old one with the same contract, or it
was dropped. -/
def Changed (existing : List PhaseRecord) (phases : List PhaseNode) (id : String) : Prop :=
  (∃ phase ∈ phases, phase.phaseId = id ∧
    ∀ old ∈ existing, old.phaseId = id → old.contract ≠ phase.contract) ∨
  ((∃ old ∈ existing, old.phaseId = id) ∧ ∀ phase ∈ phases, phase.phaseId ≠ id)

/-- The phase was in the old plan with the same contract, and nothing it depends on in the new
one, directly or not, has changed. -/
def StillValid (existing : List PhaseRecord) (phases : List PhaseNode) (old : PhaseRecord)
    (phase : PhaseNode) : Prop :=
  old ∈ existing ∧ old.phaseId = phase.phaseId ∧ old.contract = phase.contract ∧
    ∀ id, Relation.TransGen (DependsOn phases) phase.phaseId id → ¬ Changed existing phases id

/-- The old state of a phase, if the new plan keeps it. -/
def keptPhase (preserved : List PhaseRecord) (affected : List String) (phase : PhaseNode) :
    Option PhaseRecord :=
  if phase.phaseId ∉ affected ∧
      samePhaseVerificationContract (preservedPhase preserved phase.phaseId) phase then
    preservedPhase preserved phase.phaseId
  else none

/-- The row that a new plan writes for a phase. -/
def writtenRow (taskId : String) (preserved : List PhaseRecord) (affected : List String)
    (entry : PhaseNode × ℕ) : PlanPhaseRow :=
  let kept := keptPhase preserved affected entry.1
  { taskId
    phaseId := entry.1.phaseId
    ordinal := entry.2
    name := entry.1.name
    owner := entry.1.owner
    deps := entry.1.deps
    criteria := entry.1.criteria
    status := (kept.map (·.status)).getD .planned
    verifiedPass := kept.bind (·.verifiedPass)
    baselineSha := kept.bind (·.baselineSha) }

/-- Rows inserted one after the other are appended in their order. -/
theorem rows_of_inserts {ρ κ α : Type} [DecidableEq κ] {key : ρ → κ} {f : α → ρ} {msg : String}
    {entries : List α} {t t' : Table key}
    (h : entries.foldlM (fun t a => orThrow (t.insert? (f a)) msg) t = .ok t') :
    t'.rows = t.rows ++ entries.map f := by
  induction entries generalizing t with
  | nil =>
    obtain rfl := pure_eq_ok.1 h
    simp
  | cons a entries ih =>
    rw [List.foldlM_cons] at h
    obtain ⟨mid, hmid, hrest⟩ := bind_eq_ok.1 h
    obtain ⟨-, hrows⟩ := Table.insert?_eq_some.1 (orThrow_eq_ok.1 hmid)
    rw [ih hrest, hrows, List.map_cons, List.append_assoc]
    rfl

section

variable {t t' : PlansTables} {taskId : String} {phases : List PhaseNode}
  {preserved : List PhaseRecord}

/-- The rows of the plan are replaced by those of the new one. -/
theorem rows_of_upsertPhases (h : upsertPhases t taskId phases preserved = .ok t') :
    t'.phases.rows = (t.phases.rows.filter (·.taskId != taskId)) ++
      phases.zipIdx.map (writtenRow taskId preserved
        (affectedPhaseContracts phases (changedPhaseContracts phases preserved))) := by
  simp only [upsertPhases, bind_eq_ok, pure_eq_ok] at h
  obtain ⟨rows, hrows, rfl⟩ := h
  exact rows_of_inserts hrows

/-- The phases of a new plan are read in its own order. -/
theorem selectPhases_of_upsertPhases (h : upsertPhases t taskId phases preserved = .ok t') :
    selectPhases t' taskId = phases.zipIdx.map fun entry => rowToPhaseRecord (writtenRow taskId
      preserved (affectedPhaseContracts phases (changedPhaseContracts phases preserved)) entry) := by
  have hothers : (t.phases.rows.filter (·.taskId != taskId)).filter (·.taskId == taskId) = [] := by
    rw [List.filter_filter, List.filter_eq_nil_iff]
    intro row _
    by_cases htask : row.taskId = taskId <;> simp [htask]
  generalize haffected : affectedPhaseContracts phases (changedPhaseContracts phases preserved) =
    affected
  have hrows := rows_of_upsertPhases h
  rw [haffected] at hrows
  have hmine : (phases.zipIdx.map (writtenRow taskId preserved affected)).filter
      (·.taskId == taskId) = phases.zipIdx.map (writtenRow taskId preserved affected) := by
    apply List.filter_eq_self.2
    intro row hrow
    obtain ⟨entry, -, rfl⟩ := List.mem_map.1 hrow
    exact beq_self_eq_true taskId
  rw [selectPhases, hrows, List.filter_append, hothers, List.nil_append, hmine,
    List.mergeSort_of_pairwise, List.map_map]
  · rfl
  · rw [List.pairwise_map, List.pairwise_iff_getElem]
    intro i j hi hj hij
    simp [writtenRow, hij]

/-- No two phases of a plan that was written have one id. -/
theorem nodup_of_upsertPhases (h : upsertPhases t taskId phases preserved = .ok t') :
    (phases.map (·.phaseId)).Nodup := by
  have hunique := t'.phases.unique
  rw [rows_of_upsertPhases h] at hunique
  have hwritten := (List.pairwise_append.1 hunique).2.1
  rw [List.pairwise_map] at hwritten
  rw [← List.zipIdx_map_fst 0 phases, List.map_map, List.Nodup, List.pairwise_map]
  refine hwritten.imp fun hkey hid => hkey ?_
  exact Prod.ext rfl hid

/-- No two phases of a plan that is read have one id. -/
theorem nodup_selectPhases (t : PlansTables) (taskId : String) :
    ((selectPhases t taskId).map (·.phaseId)).Nodup := by
  rw [selectPhases, List.map_map]
  refine (((List.mergeSort_perm _ _).map _).nodup_iff).2 ?_
  rw [List.Nodup, List.pairwise_map]
  refine (t.phases.unique.filter _).imp_of_mem fun ha hb hkey hid => hkey ?_
  have hta := (List.mem_filter.1 ha).2
  have htb := (List.mem_filter.1 hb).2
  simp only [beq_iff_eq] at hta htb
  exact Prod.ext (hta.trans htb.symm) hid

end

/-! ## What a new plan keeps -/

section

variable {phases : List PhaseNode} {preserved : List PhaseRecord} {phase : PhaseNode}
  {old : PhaseRecord} {id : String}

theorem preservedPhase_eq_some (hunique : (preserved.map (·.phaseId)).Nodup) :
    preservedPhase preserved id = some old ↔ old ∈ preserved ∧ old.phaseId = id := by
  constructor
  · intro h
    exact ⟨List.mem_of_find?_eq_some h, by simpa using List.find?_some h⟩
  · rintro ⟨hold, rfl⟩
    obtain ⟨found, hfound⟩ : ∃ found, preservedPhase preserved old.phaseId = some found :=
      Option.isSome_iff_exists.1 (List.find?_isSome.2 ⟨old, hold, by simp⟩)
    have hmem := List.mem_of_find?_eq_some hfound
    have hid : found.phaseId = old.phaseId := by simpa using List.find?_some hfound
    rw [hfound, List.inj_on_of_nodup_map hunique hmem hold hid]

theorem samePhaseVerificationContract_iff (hunique : (preserved.map (·.phaseId)).Nodup) :
    samePhaseVerificationContract (preservedPhase preserved phase.phaseId) phase = true ↔
      ∃ old ∈ preserved, old.phaseId = phase.phaseId ∧ old.contract = phase.contract := by
  rw [samePhaseVerificationContract, Option.any_eq_true]
  constructor
  · rintro ⟨old, hold, hsame⟩
    obtain ⟨hmem, hid⟩ := (preservedPhase_eq_some hunique).1 hold
    simp only [Bool.and_eq_true, beq_iff_eq] at hsame
    exact ⟨old, hmem, hid, Prod.ext hsame.1 hsame.2⟩
  · rintro ⟨old, hmem, hid, hsame⟩
    simp only [PhaseRecord.contract, PhaseNode.contract, Prod.mk.injEq] at hsame
    exact ⟨old, (preservedPhase_eq_some hunique).2 ⟨hmem, hid⟩, by simp [hsame]⟩

theorem mem_changedPhaseContracts (hunique : (preserved.map (·.phaseId)).Nodup) :
    id ∈ changedPhaseContracts phases preserved ↔ Changed preserved phases id := by
  rw [changedPhaseContracts, List.mem_append]
  refine or_congr ?_ ?_
  · simp only [List.mem_map, List.mem_filter, Bool.not_eq_true']
    refine exists_congr fun phase => ?_
    rw [and_assoc]
    refine and_congr_right fun _ => ?_
    rw [and_comm]
    refine and_congr_right fun hid => ?_
    rw [← Bool.not_eq_true, samePhaseVerificationContract_iff hunique, hid]
    push Not
    rfl
  · simp only [List.mem_map, List.mem_filter, Bool.not_eq_true', List.any_eq_false, beq_iff_eq]
    constructor
    · rintro ⟨old, ⟨hold, hdropped⟩, rfl⟩
      exact ⟨⟨old, hold, rfl⟩, fun phase hphase => hdropped phase hphase⟩
    · rintro ⟨⟨old, hold, rfl⟩, hdropped⟩
      exact ⟨old, ⟨hold, fun phase hphase => hdropped phase hphase⟩, rfl⟩

/-- The old state that is kept is that of a phase whose evidence is still valid. -/
theorem keptPhase_eq_some (hunique : (preserved.map (·.phaseId)).Nodup)
    (hphases : (phases.map (·.phaseId)).Nodup) (hphase : phase ∈ phases) :
    keptPhase preserved (affectedPhaseContracts phases (changedPhaseContracts phases preserved))
      phase = some old ↔ StillValid preserved phases old phase := by
  have hself : (∃ old ∈ preserved, old.phaseId = phase.phaseId ∧ old.contract = phase.contract) →
      ¬ Changed preserved phases phase.phaseId := by
    rintro ⟨old, hold, hid, hsame⟩ (⟨other, hother, hotherId, hnone⟩ | ⟨-, hdropped⟩)
    · obtain rfl := List.inj_on_of_nodup_map hphases hother hphase hotherId
      exact hnone old hold hid hsame
    · exact hdropped phase hphase rfl
  have haffected : (∃ old ∈ preserved, old.phaseId = phase.phaseId ∧
      old.contract = phase.contract) →
      (phase.phaseId ∉ affectedPhaseContracts phases (changedPhaseContracts phases preserved) ↔
        ∀ id, Relation.TransGen (DependsOn phases) phase.phaseId id →
          ¬ Changed preserved phases id) := by
    intro hsame
    rw [mem_affectedPhaseContracts]
    constructor
    · intro hnone id hpath hchanged
      exact hnone ⟨id, (mem_changedPhaseContracts hunique).2 hchanged, hpath.to_reflTransGen⟩
    · rintro hall ⟨id, hid, hpath⟩
      have hchanged := (mem_changedPhaseContracts hunique).1 hid
      rcases Relation.reflTransGen_iff_eq_or_transGen.1 hpath with rfl | htrans
      · exact hself hsame hchanged
      · exact hall id htrans hchanged
  rw [keptPhase]
  constructor
  · intro h
    split at h
    · next hkept =>
      have hsame := (samePhaseVerificationContract_iff hunique).1 hkept.2
      obtain ⟨hold, hid⟩ := (preservedPhase_eq_some hunique).1 h
      obtain ⟨old', hold', hid', hcontract⟩ := hsame
      obtain rfl := List.inj_on_of_nodup_map hunique hold' hold (hid'.trans hid.symm)
      exact ⟨hold, hid, hcontract, (haffected ⟨old', hold, hid, hcontract⟩).1 hkept.1⟩
    · cases h
  · rintro ⟨hold, hid, hcontract, hclosed⟩
    have hsame : ∃ old ∈ preserved, old.phaseId = phase.phaseId ∧ old.contract = phase.contract :=
      ⟨old, hold, hid, hcontract⟩
    rw [if_pos ⟨(haffected hsame).2 hclosed, (samePhaseVerificationContract_iff hunique).2 hsame⟩]
    exact (preservedPhase_eq_some hunique).2 ⟨hold, hid⟩

end

/-- A new plan keeps exactly the evidence that is still valid: a phase keeps what it had earned
just where it was there before with the same contract and nothing that it depends on in the new
plan is new, changed or removed, and every other phase starts again. The propagation takes a pass
for each phase at the most. -/
theorem replan_keeps_valid_evidence {t t' : PlansTables} {event : StoredEvent PlanEvent}
    {rec : PlanReplanned} (hpayload : event.payload = .replanned rec)
    (h : PlansProjector.apply t event = .ok t') :
    ∃ existing, selectPlan t rec.taskId = some existing ∧
      (selectPhases t' rec.taskId).map PhaseRecord.node = rec.phases ∧
      (∀ record ∈ selectPhases t' rec.taskId,
        (∀ old, StillValid existing.phases rec.phases old record.node →
          record.evidence = old.evidence) ∧
        ((¬ ∃ old, StillValid existing.phases rec.phases old record.node) →
          record.evidence = (.planned, none, none))) ∧
      ∃ passes ≤ rec.phases.length,
        affectedPhaseContracts rec.phases (changedPhaseContracts rec.phases existing.phases) =
            Nat.iterate (expandAffected rec.phases) passes
              (changedPhaseContracts rec.phases existing.phases) ∧
          expandAffected rec.phases (affectedPhaseContracts rec.phases
            (changedPhaseContracts rec.phases existing.phases)) =
          affectedPhaseContracts rec.phases
            (changedPhaseContracts rec.phases existing.phases) := by
  rw [PlansProjector.apply, hpayload] at h
  obtain ⟨existing, hexisting, h⟩ := bind_eq_ok.1 h
  obtain ⟨-, -, h⟩ := bind_eq_ok.1 h
  have hexisting := orThrow_eq_ok.1 hexisting
  obtain ⟨-, -, -, hread⟩ := selectPlan_eq_some hexisting
  have hunique : (existing.phases.map (·.phaseId)).Nodup := by
    rw [hread]
    exact nodup_selectPhases t rec.taskId
  have hphases := nodup_of_upsertPhases h
  have hwritten := selectPhases_of_upsertPhases h
  obtain ⟨passes, hpasses, hbounded⟩ := affectedPhaseContracts_passes rec.phases
    (changedPhaseContracts rec.phases existing.phases)
  refine ⟨existing, hexisting, ?_, ?_, passes, hpasses.trans List.countP_le_length, hbounded⟩
  · rw [hwritten, List.map_map]
    exact List.zipIdx_map_fst 0 rec.phases
  · intro record hrecord
    rw [hwritten] at hrecord
    obtain ⟨entry, hentry, rfl⟩ := List.mem_map.1 hrecord
    have hphase : entry.1 ∈ rec.phases := List.fst_mem_of_mem_zipIdx hentry
    have hkept := fun old => @keptPhase_eq_some rec.phases existing.phases entry.1 old hunique
      hphases hphase
    constructor
    · intro old hvalid
      simp only [PhaseRecord.evidence, rowToPhaseRecord, writtenRow, (hkept old).2 hvalid]
      rfl
    · intro hinvalid
      have hnone := Option.eq_none_iff_forall_ne_some.2 fun old hold =>
        hinvalid ⟨old, (hkept old).1 hold⟩
      simp only [PhaseRecord.evidence, rowToPhaseRecord, writtenRow, hnone]
      rfl

/-- A plan of one verified phase. -/
def verifiedOnePhase : PlansTables := (Replay.storeRun (onePhase.take 2) .atRest).plans

/-- The same plan with the phase renamed. -/
def renamed : StoredEvent PlanEvent where
  seq := 2
  ts := 7
  actor := "lead"
  scope := "T1"
  v := 1
  payload := .replanned ⟨"T1", "a better name", [{ lexer with name := "scanner" }]⟩

theorem replan_keeps_valid_evidence_of_renamed : ∃ t' existing,
    PlansProjector.apply verifiedOnePhase renamed = .ok t' ∧
    selectPlan verifiedOnePhase "T1" = some existing ∧
    (selectPhases t' "T1").map PhaseRecord.node = [{ lexer with name := "scanner" }] := by
  have hfolds : (PlansProjector.apply verifiedOnePhase renamed).isOk = true := by decide +kernel
  obtain ⟨t', ht'⟩ : ∃ t', PlansProjector.apply verifiedOnePhase renamed = .ok t' := by
    cases happly : PlansProjector.apply verifiedOnePhase renamed with
    | ok t' => exact ⟨t', rfl⟩
    | error msg => rw [happly] at hfolds; cases hfolds
  obtain ⟨existing, hexisting, hnodes, -⟩ := replan_keeps_valid_evidence rfl ht'
  exact ⟨t', existing, ht', hexisting, hnodes⟩

end Orchestration.Plans
