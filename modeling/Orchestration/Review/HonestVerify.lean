import Orchestration.Js.Runtime
import Orchestration.Review.Verdict
import Orchestration.Worktrees.Events

/-!
# Honest verification

The run of the tests at the finish is compared with the run at the branch-off baseline. A
test that fails now and did not fail then is a regression, and no `PASS` stands on one.
-/

namespace Orchestration.Review

open Worktrees (TestOutcome)

structure HonestVerifyOutcome where
  regressions : List String
  baselineFailures : List String
  suiteResult : SuiteResult
deriving DecidableEq, Repr

/-- How the test ended in the baseline; a later outcome of a name replaces an earlier one. -/
def baselinePassed (baseline : List TestOutcome) (name : String) : Option Bool :=
  (baseline.reverse.find? (·.name = name)).map (·.passed)

def honestVerify (baseline finish : List TestOutcome) : HonestVerifyOutcome :=
  let failing := (finish.filter fun t => !t.passed).map (·.name)
  { regressions := Js.sorted (failing.filter fun name =>
      baselinePassed baseline name != some false).eraseDups
    baselineFailures := Js.sorted (failing.filter fun name =>
      baselinePassed baseline name == some false).eraseDups
    suiteResult := if finish.any fun t => !t.passed then .fail else .pass }

structure ClassifyPassResult where
  allow : Bool
  reason : Option String := none
  mustEscalate : Bool := false
deriving DecidableEq, Repr

/-- Whether a recorded `PASS` may be published over what the comparison found. -/
def classifyPass (outcome : HonestVerifyOutcome) (marker : Option VerificationMarker) :
    ClassifyPassResult :=
  if outcome.regressions ≠ [] then
    { allow := false
      reason := "regression: a PASS cannot sit on a non-baseline failure (" ++
        ", ".intercalate outcome.regressions ++ ")" }
  else if marker.isNone then
    { allow := false
      reason := "PASS-without-marker: a PASS verdict must carry a verification marker (AC-L5-3)" }
  else if outcome.baselineFailures ≠ [] then
    { allow := true
      reason := "pre-existing baseline failure(s): " ++ ", ".intercalate outcome.baselineFailures
      mustEscalate := true }
  else { allow := true }

theorem mem_of_baselinePassed {baseline : List TestOutcome} {name : String} {passed : Bool}
    (h : baselinePassed baseline name = some passed) :
    ∃ b ∈ baseline, b.name = name ∧ b.passed = passed := by
  obtain ⟨b, hfind, hpassed⟩ := Option.map_eq_some_iff.1 h
  refine ⟨b, List.mem_reverse.1 (List.mem_of_find?_eq_some hfind), ?_, hpassed⟩
  simpa using List.find?_some hfind

/-- The outcome of a name is the one all its entries agree on. -/
theorem baselinePassed_of_agree {baseline : List TestOutcome} {b : TestOutcome}
    (hb : b ∈ baseline) (hagree : ∀ c ∈ baseline, c.name = b.name → c.passed = b.passed) :
    baselinePassed baseline b.name = some b.passed := by
  have hsome : (baseline.reverse.find? (·.name = b.name)).isSome := by
    rw [List.find?_isSome]
    exact ⟨b, List.mem_reverse.2 hb, by simp⟩
  obtain ⟨c, hc⟩ := Option.isSome_iff_exists.1 hsome
  have hlast : baselinePassed baseline b.name = some c.passed := by
    rw [baselinePassed, hc, Option.map_some]
  have hname : c.name = b.name := by simpa using List.find?_some hc
  rw [hlast, hagree c (List.mem_reverse.1 (List.mem_of_find?_eq_some hc)) hname]

theorem baselinePassed_concat (baseline : List TestOutcome) (b : TestOutcome) :
    baselinePassed (baseline ++ [b]) b.name = some b.passed := by
  simp [baselinePassed]

/-- A test is found to regress when it fails now and is not known to have failed before. -/
theorem mem_regressions {baseline finish : List TestOutcome} {name : String} :
    name ∈ (honestVerify baseline finish).regressions ↔
      (∃ t ∈ finish, t.passed = false ∧ t.name = name) ∧
        baselinePassed baseline name ≠ some false := by
  simp only [honestVerify, Js.mem_sorted, List.mem_eraseDups, List.mem_filter, List.mem_map,
    bne_iff_ne, Bool.not_eq_true', and_assoc]

/-- A comparison without regressions found every failing test failing in the baseline. -/
theorem failed_before {baseline finish : List TestOutcome}
    (h : (honestVerify baseline finish).regressions = []) {t : TestOutcome} (ht : t ∈ finish)
    (hfails : t.passed = false) : ∃ b ∈ baseline, b.name = t.name ∧ b.passed = false := by
  apply mem_of_baselinePassed
  by_contra hregressed
  have hmem := mem_regressions.2 ⟨⟨t, ht, hfails, rfl⟩, hregressed⟩
  rw [h] at hmem
  exact absurd hmem List.not_mem_nil

/-- What an allowed `PASS` shows. -/
theorem classifyPass_allow {outcome : HonestVerifyOutcome} {marker : Option VerificationMarker}
    (h : (classifyPass outcome marker).allow = true) :
    outcome.regressions = [] ∧ marker.isSome = true := by
  unfold classifyPass at h
  split at h
  · cases h
  · next hregressions =>
    split at h
    · cases h
    · next hmarker =>
      exact ⟨not_not.1 hregressions, by simpa [Option.isSome_iff_ne_none] using hmarker⟩

/-! ### Names that repeat in the baseline -/

/-- No test that fails in the finish both passed and failed in the baseline. -/
def Unmixed (baseline finish : List TestOutcome) : Prop :=
  ∀ t ∈ finish, t.passed = false → ∀ b ∈ baseline, b.name = t.name →
    ∀ c ∈ baseline, c.name = t.name → b.passed = c.passed

/-- The comparison sees the baseline as a set of results: their order decides nothing, and
where it lets the finish pass, no test that fails now passed before. -/
def ComparesHonestly (baseline finish : List TestOutcome) : Prop :=
  (∀ baseline' : List TestOutcome, baseline'.Perm baseline →
    honestVerify baseline' finish = honestVerify baseline finish) ∧
  ∀ marker, (classifyPass (honestVerify baseline finish) marker).allow = true →
    ∀ t ∈ finish, t.passed = false → ∀ b ∈ baseline, b.name = t.name → b.passed = false

theorem Unmixed.baselinePassed_eq {baseline baseline' finish : List TestOutcome}
    (h : Unmixed baseline finish) (hperm : baseline'.Perm baseline) {t : TestOutcome}
    (ht : t ∈ finish) (hfails : t.passed = false) :
    baselinePassed baseline' t.name = baselinePassed baseline t.name := by
  by_cases hknown : ∃ b ∈ baseline, b.name = t.name
  · obtain ⟨b, hb, hname⟩ := hknown
    have hagree : ∀ c ∈ baseline, c.name = b.name → c.passed = b.passed := fun c hc hcn =>
      h t ht hfails c hc (hcn.trans hname) b hb hname
    rw [← hname, baselinePassed_of_agree hb hagree,
      baselinePassed_of_agree (hperm.mem_iff.2 hb) fun c hc => hagree c (hperm.mem_iff.1 hc)]
  · have hunknown : ∀ bs : List TestOutcome, bs.Perm baseline →
        baselinePassed bs t.name = none := by
      intro bs hbs
      rw [Option.eq_none_iff_forall_ne_some]
      intro passed hpassed
      obtain ⟨b, hb, hname, -⟩ := mem_of_baselinePassed hpassed
      exact hknown ⟨b, hbs.mem_iff.1 hb, hname⟩
    rw [hunknown baseline' hperm, hunknown baseline (.refl _)]

theorem Unmixed.comparesHonestly {baseline finish : List TestOutcome}
    (h : Unmixed baseline finish) : ComparesHonestly baseline finish := by
  constructor
  · intro baseline' hperm
    have hsame : ∀ name ∈ (finish.filter fun t => !t.passed).map (·.name),
        baselinePassed baseline' name = baselinePassed baseline name := by
      intro name hname
      obtain ⟨t, ht, rfl⟩ := List.mem_map.1 hname
      have ⟨htf, hfails⟩ := List.mem_filter.1 ht
      exact h.baselinePassed_eq hperm htf (by simpa using hfails)
    simp only [honestVerify]
    congr 2
    · congr 1
      apply List.filter_congr
      intro name hname
      rw [hsame name hname]
    · congr 1
      apply List.filter_congr
      intro name hname
      rw [hsame name hname]
  · intro marker hallow t ht hfails b hb hname
    obtain ⟨c, hc, hcn, hcf⟩ := failed_before (classifyPass_allow hallow).1 ht hfails
    exact (h t ht hfails b hb hname c hc hcn).trans hcf

/-- Put last, an entry of the baseline decides how its name is classified. -/
theorem regresses_of_last {baseline finish : List TestOutcome} {t b : TestOutcome}
    (ht : t ∈ finish) (hfails : t.passed = false) (hb : b ∈ baseline) (hname : b.name = t.name) :
    ∃ baseline' : List TestOutcome, baseline'.Perm baseline ∧
      (t.name ∈ (honestVerify baseline' finish).regressions ↔ b.passed = true) := by
  refine ⟨baseline.erase b ++ [b],
    List.perm_append_comm.trans (List.perm_cons_erase hb).symm, ?_⟩
  rw [mem_regressions, ← hname, baselinePassed_concat]
  simp only [ne_eq, Option.some.injEq, Bool.not_eq_false, and_iff_right_iff_imp]
  intro _
  exact ⟨t, ht, hfails, hname.symm⟩

/-- The comparison is honest on exactly the baselines that do not contradict themselves about
a test that fails now. -/
theorem comparesHonestly_iff (baseline finish : List TestOutcome) :
    ComparesHonestly baseline finish ↔ Unmixed baseline finish := by
  refine ⟨?_, Unmixed.comparesHonestly⟩
  rintro ⟨hperm, -⟩ t ht hfails b hb hbn c hc hcn
  obtain ⟨bs, hbs, hbreg⟩ := regresses_of_last ht hfails hb hbn
  obtain ⟨cs, hcs, hcreg⟩ := regresses_of_last ht hfails hc hcn
  rw [hperm bs hbs] at hbreg
  rw [hperm cs hcs] at hcreg
  exact Bool.eq_iff_iff.2 (hbreg.symm.trans hcreg)

/-- A test that passed and then failed in the baseline is let through as failing before. -/
theorem mixed_baseline_lets_regression_pass :
    ¬ ∀ baseline finish : List TestOutcome, ComparesHonestly baseline finish := by
  intro h
  have hsound := (h [⟨"t", true⟩, ⟨"t", false⟩] [⟨"t", false⟩]).2
    (some { commandsRun := [], suiteResult := .fail, baselineCompared := true })
    (by simp [classifyPass, honestVerify, baselinePassed, Js.sorted]; split <;> rfl)
  exact absurd (hsound ⟨"t", false⟩ (by simp) rfl ⟨"t", true⟩ (by simp) rfl) (by decide)

end Orchestration.Review
