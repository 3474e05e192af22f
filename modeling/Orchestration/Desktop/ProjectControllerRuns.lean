import Orchestration.Desktop.ProjectController

/-!
# Runs of the project controller

Whatever runs belongs to the supervisor that the controller holds, and whatever
is open to the shell that it holds or is about to close. The project that is
shown goes with them unless a shutdown takes its turn while it is shown: the
shutdown tears down and forgets to say so.
-/

namespace Orchestration.Desktop

namespace Controller

variable (c : Controller)

/-- The `i`-th supervisor was started, and `stop` has not been called since. -/
def runs (i : ℕ) : Bool := (c.supervisors[i]?).any (·.running)

/-- The project that the `i`-th supervisor was started for. -/
def daemonOf (i : ℕ) : Option ProjectId := (c.supervisors[i]?).bind (·.projectId)

/-- The `i`-th shell has not been closed. -/
def isOpen (i : ℕ) : Bool := (c.shells[i]?).any (!·.closed)

/-- The project that the `i`-th shell is bound to. -/
def shellOf (i : ℕ) : Option ProjectId := (c.shells[i]?).map (·.projectId)

/-- The controller holds a supervisor and a shell of the project. -/
def BoundTo (projectId : ProjectId) : Prop :=
  ∃ i j, c.supervisor = some i ∧ c.shell = some j ∧ c.daemonOf i = some projectId ∧
    c.shellOf j = some projectId ∧ c.currentProjectId = some projectId

/-- The controller holds neither. -/
def Idle : Prop := c.supervisor = none ∧ c.shell = none

/-- No call waits, none is under way, and no retry either. -/
def Quiet : Prop := c.openTail = [] ∧ c.active = none ∧ c.retries = []

/-- The live supervisor, the live shell and the project shown are of one project, or all absent. -/
def OfOneProject : Prop :=
  (c.Idle ∧ c.currentProject = none) ∨
    ∃ projectId path, c.BoundTo projectId ∧ c.currentProject = some ⟨projectId, path⟩

/-- No supervisor is left running, and no shell open. -/
def NothingLeft : Prop := ∀ i, c.runs i = false ∧ c.isOpen i = false

/-- An `openProject` call waits for its turn. -/
def OpenWaits : Prop := ∃ projectId path, Job.openProject projectId path ∈ c.openTail

end Controller

/-- The await belongs to a teardown. -/
def Active.next? : Active → Option Next
  | .stopping _ next => some next
  | .closing next => some next
  | .tornDown next => some next
  | .starting _ _ => none
  | .startingShell _ _ => none

/-- What the controller owes after a run: one daemon at most, the one of the project shown, and none
after a shutdown that no open follows. -/
structure Serves (events : List ControllerEvent) (c : Controller) : Prop where
  oneRuns : ∀ i j, c.runs i = true → c.runs j = true → i = j
  ofOneProject : c.Quiet → c.OfOneProject
  nothingLeft : ∀ earlier later, events = earlier ++ .call .shutdown :: later →
    (∀ projectId path, .call (.openProject projectId path) ∉ later) → c.Quiet → c.NothingLeft

/-- No shutdown takes its turn while a project is shown, unless an open waits behind it. -/
def Attended (event : ControllerEvent) (c : Controller) : Prop :=
  ∀ jobs, event = .takeTurn → c.active = none → c.openTail = .shutdown :: jobs →
    c.currentProjectId = none ∨ c.OpenWaits

namespace Controller

/-- Whatever runs or is open is what the controller holds. -/
structure Contained (c : Controller) : Prop where
  runs : ∀ i, c.runs i = true → c.supervisor = some i
  isOpen : ∀ i, c.isOpen i = true → c.shell = some i
  shown : c.currentProject = c.currentProjectId.map fun projectId => ⟨projectId, c.currentPath⟩

/-- The invariant: a teardown has let go of everything but the shell that it will close. -/
structure Sound (c : Controller) : Prop where
  runs : ∀ i, c.runs i = true → c.supervisor = some i
  isOpen : ∀ i, c.isOpen i = true →
    c.shell = some i ∨ ∃ next, c.active = some (.stopping (some i) next)
  shown : c.currentProject = c.currentProjectId.map fun projectId => ⟨projectId, c.currentPath⟩
  held : c.Idle ∨ ∃ projectId, c.BoundTo projectId
  tearing : ∀ active next, c.active = some active → active.next? = some next → c.Idle
  building : ∀ active, c.active = some active → active.next? = none → ∃ p, c.BoundTo p

variable {c : Controller} {next : Next} {i j : ℕ} {projectId : ProjectId} {answer : Answer}

/-! ## Calls on supervisors and shells -/

theorem runs_stopSupervisor (h : (c.stopSupervisor i).runs j = true) :
    i ≠ j ∧ c.runs j = true := by
  simp only [runs, stopSupervisor, List.getElem?_modify] at h ⊢
  cases hs : c.supervisors[j]? with
  | none => simp [hs] at h
  | some s =>
    by_cases hij : i = j
    · simp [hs, hij] at h
    · exact ⟨hij, by simpa [hs, hij] using h⟩

theorem daemonOf_stopSupervisor : (c.stopSupervisor i).daemonOf j = c.daemonOf j := by
  simp only [daemonOf, stopSupervisor, List.getElem?_modify]
  cases c.supervisors[j]? with
  | none => rfl
  | some s =>
    by_cases hij : i = j
    · simp [hij]
    · simp [hij]

theorem runs_startSupervisor (h : (c.startSupervisor i projectId).runs j = true) :
    i = j ∨ c.runs j = true := by
  by_cases hij : i = j
  · exact .inl hij
  · right
    simp only [runs, startSupervisor, List.getElem?_modify, if_neg hij] at h ⊢
    simpa using h

theorem daemonOf_startSupervisor (hi : i < c.supervisors.length) :
    (c.startSupervisor i projectId).daemonOf i = some projectId := by
  simp only [daemonOf, startSupervisor, List.getElem?_modify, List.getElem?_eq_getElem hi]
  simp

theorem lt_of_daemonOf (hi : c.daemonOf i = some projectId) : i < c.supervisors.length := by
  rw [daemonOf] at hi
  obtain ⟨s, hs, -⟩ := Option.bind_eq_some_iff.1 hi
  exact (List.getElem?_eq_some_iff.1 hs).1

/-- Nothing runs and nothing is held, so a teardown has only the shell left to close. -/
theorem closeShell_sound {activeShell : Option ℕ} (hidle : c.Idle)
    (hruns : ∀ i, c.runs i = false) (hopen : ∀ i, c.isOpen i = true → activeShell = some i)
    (hshown : c.currentProject = c.currentProjectId.map fun projectId => ⟨projectId, c.currentPath⟩) :
    (c.closeShell activeShell next).Sound := by
  have hno : ∀ i, c.runs i = true → c.supervisor = some i := by
    intro i hi
    rw [hruns i] at hi
    cases hi
  cases activeShell with
  | none =>
    refine ⟨hno, fun i hi => ?_, hshown, .inl hidle, fun _ _ _ _ => hidle, ?_⟩
    · cases hopen i hi
    · intro active hactive hnext
      cases hactive
      cases hnext
  | some k =>
    refine ⟨hno, fun i hi => ?_, hshown, .inl hidle, fun _ _ _ _ => hidle, ?_⟩
    · simp only [isOpen, closeShell, List.getElem?_modify] at hi
      have hopen := hopen i
      simp only [isOpen] at hopen
      cases hs : c.shells[i]? with
      | none => simp [hs] at hi
      | some s =>
        rw [hs] at hi hopen
        by_cases hki : k = i
        · simp [hki] at hi
        · exact absurd (Option.some.inj (hopen (by simpa [hki] using hi))) hki
    · intro active hactive hnext
      cases hactive
      cases hnext

theorem Contained.teardownActive (h : c.Contained) : (c.teardownActive next).Sound := by
  rw [Controller.teardownActive]
  cases hsupervisor : c.supervisor with
  | none =>
    refine closeShell_sound ⟨rfl, rfl⟩ (fun i => ?_) h.isOpen h.shown
    cases hruns : c.runs i with
    | false => exact hruns
    | true =>
      have hheld := h.runs i hruns
      rw [hsupervisor] at hheld
      cases hheld
  | some k =>
    have hidle : Idle { c with shellStarted := false, supervisor := none, shell := none } :=
      ⟨rfl, rfl⟩
    refine ⟨fun i hi => ?_, fun i hi => ?_, h.shown, .inl hidle, fun _ _ _ _ => hidle, ?_⟩
    · obtain ⟨hne, hruns⟩ := runs_stopSupervisor hi
      have hheld := h.runs i hruns
      rw [hsupervisor] at hheld
      exact absurd (Option.some.inj hheld) hne
    · exact .inr ⟨next, by rw [← h.isOpen i hi]⟩
    · intro active hactive hnext
      cases hactive
      cases hnext

theorem Sound.contained (h : c.Sound) (hactive : ∀ next shell, c.active ≠ some (.stopping shell next)) :
    c.Contained := by
  refine ⟨h.runs, fun i hi => ?_, h.shown⟩
  cases h.isOpen i hi with
  | inl hshell => exact hshell
  | inr hstopping =>
    obtain ⟨next, hstopping⟩ := hstopping
    exact absurd hstopping (hactive _ _)

/-! ## One step -/

/-- The controller with one more supervisor, which has not been started. -/
theorem runs_created (h : ∀ i, c.runs i = false) : ∀ i, runs { c with
    supervisors := c.supervisors ++ [(⟨none, false⟩ : Supervisor)]
    supervisor := some c.supervisors.length } i = false := by
  intro i
  have hi := h i
  simp only [runs, List.getElem?_append] at hi ⊢
  split
  · exact hi
  · cases i - c.supervisors.length with
    | zero => rfl
    | succ => rfl

theorem isOpen_created (h : ∀ i, c.isOpen i = false)
    (hi : ((c.shells ++ [(⟨projectId, false⟩ : Shell)])[i]?).any (!·.closed) = true) :
    c.shells.length = i := by
  have hold := h i
  rw [isOpen] at hold
  rw [List.getElem?_append] at hi
  split at hi
  · rw [hold] at hi
    cases hi
  · rename_i hge
    cases hrest : i - c.shells.length with
    | zero => omega
    | succ => simp [hrest] at hi

theorem build_sound (h : c.Contained) (hidle : c.Idle) (hid : c.currentProjectId = some projectId) :
    (c.build projectId answer).Sound := by
  have hruns : ∀ i, c.runs i = false := by
    intro i
    cases hi : c.runs i with
    | false => rfl
    | true =>
      have hheld := h.runs i hi
      rw [hidle.1] at hheld
      cases hheld
  have hopen : ∀ i, c.isOpen i = false := by
    intro i
    cases hi : c.isOpen i with
    | false => rfl
    | true =>
      have hheld := h.isOpen i hi
      rw [hidle.2] at hheld
      cases hheld
  have hcreated := runs_created hruns
  rw [build]
  cases answer.createSupervisor with
  | error e => exact h.teardownActive
  | ok =>
    cases answer.createShell with
    | error e =>
      refine Contained.teardownActive ⟨fun i hi => ?_, h.isOpen, h.shown⟩
      rw [hcreated i] at hi
      cases hi
    | ok =>
      have hbound : ∃ p, BoundTo (Controller.startSupervisor { c with
          supervisors := c.supervisors ++ [(⟨none, false⟩ : Supervisor)]
          supervisor := some c.supervisors.length
          shells := c.shells ++ [(⟨projectId, false⟩ : Shell)]
          shell := some c.shells.length } c.supervisors.length projectId) p := by
        refine ⟨projectId, _, _, rfl, rfl, daemonOf_startSupervisor (by simp), ?_, hid⟩
        simp [shellOf, startSupervisor]
      refine ⟨fun i hi => ?_, fun i hi => .inl ?_, h.shown, .inr hbound, ?_, fun _ _ _ => hbound⟩
      · cases runs_startSupervisor hi with
        | inl heq => exact congrArg some heq
        | inr hruns => rw [hcreated i] at hruns; cases hruns
      · exact congrArg some (isOpen_created hopen hi)
      · intro active next hactive hnext
        cases hactive
        cases hnext

theorem Contained.bind (h : c.Contained) (hidle : c.Idle) {path : Option (Option String)} :
    (c.bind projectId path answer).Sound :=
  build_sound ⟨h.runs, h.isOpen, rfl⟩ hidle rfl

theorem Contained.settle (h : c.Contained) (hheld : c.Idle ∨ ∃ projectId, c.BoundTo projectId)
    {result : Except String Unit} : (c.settle result).Sound := by
  refine ⟨h.runs, fun i hi => .inl (h.isOpen i hi), h.shown, hheld, ?_, ?_⟩
  · intro _ _ hnone
    cases hnone
  · intro _ hnone
    cases hnone

theorem Sound.resume (h : c.Sound) : (c.resume answer).Sound := by
  rw [Controller.resume]
  cases hactive : c.active with
  | none => exact h
  | some active =>
    have hrest (hnot : ∀ next shell, active ≠ .stopping shell next) : c.Contained := by
      refine h.contained fun next shell heq => hnot next shell ?_
      rw [hactive] at heq
      exact Option.some.inj heq
    cases active with
    | stopping activeShell next =>
      have hidle := h.tearing _ _ hactive rfl
      refine closeShell_sound hidle (fun i => ?_) (fun i hi => ?_) h.shown
      · cases hruns : c.runs i with
        | false => rfl
        | true =>
          have hheld := h.runs i hruns
          rw [hidle.1] at hheld
          cases hheld
      · cases h.isOpen i hi with
        | inl hshell => rw [hidle.2] at hshell; cases hshell
        | inr hstopping =>
          obtain ⟨next', hstopping⟩ := hstopping
          rw [hactive] at hstopping
          cases hstopping
          rfl
    | closing next =>
      have hidle := h.tearing _ _ hactive rfl
      have hopen := (hrest fun _ _ heq => by cases heq).isOpen
      refine ⟨h.runs, fun i hi => .inl (hopen i hi), h.shown, .inl hidle, fun _ _ _ _ => hidle, ?_⟩
      intro active hactive hnext
      cases hactive
      cases hnext
    | tornDown next =>
      have hidle := h.tearing _ _ hactive rfl
      have hcontained := hrest fun _ _ heq => by cases heq
      cases next with
      | bind projectId path => exact hcontained.bind hidle
      | rethrow e =>
        have hshown : c.pushNoProjectState.Contained := ⟨h.runs, hcontained.isOpen, rfl⟩
        exact hshown.settle (.inl hidle)
      | finish => exact hcontained.settle h.held
    | starting supervisor shell =>
      have hcontained := hrest fun _ _ heq => by cases heq
      have hbuilding := h.building _ hactive rfl
      cases answer.awaited with
      | error e => exact hcontained.teardownActive
      | ok =>
        refine ⟨h.runs, fun i hi => .inl (hcontained.isOpen i hi), h.shown, h.held, ?_,
          fun _ _ _ => hbuilding⟩
        intro active next hactive hnext
        cases hactive
        cases hnext
    | startingShell supervisor shell =>
      have hcontained := hrest fun _ _ heq => by cases heq
      cases answer.awaited with
      | error e => exact hcontained.teardownActive
      | ok =>
        have hstarted : Contained { c with shellStarted := true } :=
          ⟨h.runs, hcontained.isOpen, h.shown⟩
        exact hstarted.settle h.held

theorem Sound.takeTurn (h : c.Sound) : c.takeTurn.Sound := by
  rw [Controller.takeTurn]
  cases hactive : c.active with
  | some active => exact h
  | none =>
    have hcontained : c.Contained := by
      refine h.contained fun _ _ heq => ?_
      rw [hactive] at heq
      cases heq
    cases c.openTail with
    | nil => exact h
    | cons job jobs =>
      have hrest : Contained { c with openTail := jobs } :=
        ⟨hcontained.runs, hcontained.isOpen, hcontained.shown⟩
      cases job with
      | openProject projectId path => exact hrest.teardownActive
      | shutdown => exact hrest.teardownActive
      | reopenCurrentProject =>
        rw [hactive] at hrest
        simp only [run]
        cases hid : c.currentProjectId with
        | some projectId =>
          rw [hid] at hrest
          exact hrest.teardownActive
        | none =>
          rw [hid] at hrest
          exact hrest.settle (hid ▸ h.held)

/-- The invariant does not speak of what waits in the tail, nor of what was told to whom. -/
theorem Sound.of_others (h : c.Sound) (openTail : List Job) (retries : List Retry)
    (refreshed : List ℕ) (replies : List RetryReply) (latest : Option DaemonStatusPayload) :
    Sound { c with openTail, retries, refreshed, replies, latestDaemonStatus := latest } :=
  ⟨h.runs, h.isOpen, h.shown, h.held, h.tearing, h.building⟩

/-- What a start or a stop of the held supervisor leaves as it is. -/
theorem Sound.of_supervisors (h : c.Sound) {supervisors : List Supervisor}
    (hruns : ∀ j, ({ c with supervisors } : Controller).runs j = true → c.runs j = true ∨
      c.supervisor = some j)
    (hdaemon : ∀ j p, c.BoundTo p → c.supervisor = some j →
      ({ c with supervisors } : Controller).daemonOf j = some p) :
    Sound { c with supervisors } := by
  have hbound : ∀ p, c.BoundTo p → BoundTo { c with supervisors } p := by
    intro p hp
    obtain ⟨i, j, hi, hj, -, hshell, hid⟩ := id hp
    exact ⟨i, j, hi, hj, hdaemon i p hp hi, hshell, hid⟩
  refine ⟨fun i hi => ?_, h.isOpen, h.shown, ?_, h.tearing, fun active hactive hnext => ?_⟩
  · cases hruns i hi with
    | inl hold => exact h.runs i hold
    | inr hheld => exact hheld
  · cases h.held with
    | inl hidle => exact .inl hidle
    | inr hp => exact .inr ⟨hp.choose, hbound _ hp.choose_spec⟩
  · obtain ⟨p, hp⟩ := h.building active hactive hnext
    exact ⟨p, hbound p hp⟩

theorem Sound.requestDaemonStop (h : c.Sound) : c.requestDaemonStop.Sound := by
  rw [Controller.requestDaemonStop]
  split
  · exact h
  · rename_i k hsupervisor
    refine h.of_supervisors (fun j hj => .inl (runs_stopSupervisor hj).2) fun j p hp hj => ?_
    obtain ⟨i, -, hi, -, hdaemon, -⟩ := hp
    rw [hj] at hi
    cases hi
    exact daemonOf_stopSupervisor.trans hdaemon

theorem Sound.retryDaemon (h : c.Sound) : c.retryDaemon.Sound := by
  rw [Controller.retryDaemon]
  split
  · rename_i k projectId hsupervisor hid
    have hstarted : (c.startSupervisor k projectId).Sound := by
      refine h.of_supervisors (fun j hj => ?_) fun j p hp hj => ?_
      · cases runs_startSupervisor hj with
        | inl heq => exact .inr (heq ▸ hsupervisor)
        | inr hruns => exact .inl hruns
      · obtain ⟨i, -, hi, -, hdaemon, -, hcurrent⟩ := hp
        rw [hj] at hi hsupervisor
        cases hi
        cases hsupervisor
        rw [hid] at hcurrent
        cases hcurrent
        exact daemonOf_startSupervisor (lt_of_daemonOf hdaemon)
    exact hstarted.of_others _ _ _ _ _
  · exact h.of_others _ _ _ _ _

theorem Sound.resumeRetry (h : c.Sound) {answer : RetryAnswer} : (c.resumeRetry i answer).Sound := by
  rw [Controller.resumeRetry]
  split
  · exact h
  · split
    · exact h.of_others _ _ _ _ _
    · exact h.of_others _ _ _ _ _
    · exact h.of_others _ _ _ _ _
  · split
    · exact h.of_others _ _ _ _ _
    · exact h.of_others _ _ _ _ _

theorem Sound.step (event : ControllerEvent) (h : c.Sound) : (Controller.step event c).Sound := by
  cases event with
  | call job => exact h.of_others _ _ _ _ _
  | retryDaemon => exact h.retryDaemon
  | requestDaemonStop => exact h.requestDaemonStop
  | daemonStatus status detail =>
    change (c.handleDaemonStatus status detail).Sound
    rw [handleDaemonStatus]
    by_cases hhealthy : status = .healthy ∧ c.shellStarted = true
    · dsimp only
      rw [if_pos hhealthy]
      exact h.of_others _ _ _ _ _
    · dsimp only
      rw [if_neg hhealthy]
      exact h.of_others _ _ _ _ _
  | takeTurn => exact h.takeTurn
  | resume answer => exact h.resume
  | resumeRetry i answer => exact h.resumeRetry

theorem sound_initial : initial.Sound := by
  refine ⟨fun i hi => ?_, fun i hi => ?_, rfl, .inl ⟨rfl, rfl⟩, ?_, ?_⟩
  · cases hi
  · cases hi
  · intro _ _ hnone
    cases hnone
  · intro _ hnone
    cases hnone

/-- The invariant holds after every run. -/
theorem sound_run (events : List ControllerEvent) :
    (Run.after Controller.step events initial).Sound :=
  Run.always Sound (fun event _ h => h.step event) sound_initial

/-! ## The tail and what is under way -/

theorem teardownActive_eq : (c.teardownActive next).openTail = c.openTail ∧
    (c.teardownActive next).currentProjectId = c.currentProjectId ∧
    (c.teardownActive next).Idle ∧
    ∃ active, (c.teardownActive next).active = some active ∧ active.next? = some next := by
  rw [teardownActive]
  cases c.supervisor with
  | some i => exact ⟨rfl, rfl, ⟨rfl, rfl⟩, _, rfl, rfl⟩
  | none =>
    cases c.shell with
    | none => exact ⟨rfl, rfl, ⟨rfl, rfl⟩, _, rfl, rfl⟩
    | some j => exact ⟨rfl, rfl, ⟨rfl, rfl⟩, _, rfl, rfl⟩

theorem closeShell_eq {activeShell : Option ℕ} :
    (c.closeShell activeShell next).openTail = c.openTail ∧
    (c.closeShell activeShell next).currentProjectId = c.currentProjectId ∧
    (c.closeShell activeShell next).supervisor = c.supervisor ∧
    (c.closeShell activeShell next).shell = c.shell ∧
    ∃ active, (c.closeShell activeShell next).active = some active ∧ active.next? = some next := by
  cases activeShell with
  | none => exact ⟨rfl, rfl, rfl, rfl, _, rfl, rfl⟩
  | some j => exact ⟨rfl, rfl, rfl, rfl, _, rfl, rfl⟩

/-- A project that is being bound is under way, and not for a shutdown. -/
theorem build_eq : (c.build projectId answer).openTail = c.openTail ∧
    ∃ active, (c.build projectId answer).active = some active ∧ active.next? ≠ some .finish := by
  rw [build]
  have hteardown (c' : Controller) (e : String) : ∃ active,
      (c'.teardownActive (.rethrow e)).active = some active ∧ active.next? ≠ some .finish := by
    obtain ⟨-, -, -, active, hactive, hnext⟩ := @teardownActive_eq c' (.rethrow e)
    refine ⟨active, hactive, fun hfinish => ?_⟩
    rw [hnext] at hfinish
    cases hfinish
  cases answer.createSupervisor with
  | error e => exact ⟨teardownActive_eq.1, hteardown _ e⟩
  | ok =>
    cases answer.createShell with
    | error e => exact ⟨teardownActive_eq.1, hteardown _ e⟩
    | ok => exact ⟨rfl, _, rfl, fun hfinish => by cases hfinish⟩

theorem openTail_resume : (c.resume answer).openTail = c.openTail := by
  rw [Controller.resume]
  cases c.active with
  | none => rfl
  | some active =>
    cases active with
    | stopping activeShell next => exact closeShell_eq.1
    | closing next => rfl
    | tornDown next =>
      cases next with
      | bind projectId path => exact build_eq.1
      | rethrow e => rfl
      | finish => rfl
    | starting supervisor shell =>
      cases answer.awaited with
      | error e => exact teardownActive_eq.1
      | ok => rfl
    | startingShell supervisor shell =>
      cases answer.awaited with
      | error e => exact teardownActive_eq.1
      | ok => rfl

theorem openTail_run {job : Job} : (c.run job).openTail = c.openTail := by
  cases job with
  | openProject projectId path => exact teardownActive_eq.1
  | shutdown => exact teardownActive_eq.1
  | reopenCurrentProject =>
    rw [run]
    cases c.currentProjectId with
    | none => rfl
    | some projectId => exact teardownActive_eq.1

/-! ## Shutdowns that are attended -/

/-- Nothing is under way but the end of a shutdown. -/
def Finishing (c : Controller) : Prop :=
  ∀ active, c.active = some active → active.next? = some .finish

/-- A shutdown that is under way or done shows no project, or an open waits behind it. -/
def Unstranded (c : Controller) : Prop :=
  c.Idle → c.Finishing → c.currentProjectId = none ∨ c.OpenWaits

theorem finishing_iff {active : Active} (h : c.active = some active) :
    c.Finishing ↔ active.next? = some .finish := by
  constructor
  · exact fun hfinishing => hfinishing active h
  · intro hnext active' hactive'
    rw [h] at hactive'
    cases hactive'
    exact hnext

theorem Finishing.of_none (h : c.active = none) : c.Finishing := by
  intro active hactive
  rw [h] at hactive
  cases hactive

theorem Unstranded.of_next {active : Active} (hactive : c.active = some active)
    (hnext : active.next? ≠ some .finish) : c.Unstranded :=
  fun _ hfinishing => absurd ((finishing_iff hactive).1 hfinishing) hnext

theorem unstranded_teardownActive (hnext : next ≠ .finish) : (c.teardownActive next).Unstranded := by
  obtain ⟨-, -, -, active, hactive, heq⟩ := @teardownActive_eq c next
  refine .of_next hactive fun hfinish => hnext ?_
  rw [heq] at hfinish
  exact Option.some.inj hfinish

theorem Unstranded.resume (h : c.Unstranded) (hc : c.Sound) : (c.resume answer).Unstranded := by
  rw [Controller.resume]
  cases hactive : c.active with
  | none => exact h
  | some active =>
    have hfinishing := finishing_iff hactive
    cases active with
    | stopping activeShell next =>
      obtain ⟨htail, hid, -, -, active', hactive', hnext⟩ := @closeShell_eq c next activeShell
      intro _ hfinish
      rw [OpenWaits, htail, hid]
      refine h (hc.tearing _ _ hactive rfl) (hfinishing.2 ?_)
      rw [← (finishing_iff hactive').1 hfinish, hnext]
      rfl
    | closing next =>
      intro hidle hfinish
      exact h hidle (hfinishing.2 (hfinish (.tornDown next) rfl))
    | tornDown next =>
      cases next with
      | bind projectId path =>
        obtain ⟨-, active, hactive, hnext⟩ := @build_eq (pushCurrentProject { c with
          currentProjectId := some projectId
          currentPath := path.getD answer.registryPath }) projectId answer
        exact .of_next hactive hnext
      | rethrow e => exact fun _ _ => .inl rfl
      | finish => exact fun hidle _ => h hidle (hfinishing.2 rfl)
    | starting supervisor shell =>
      cases answer.awaited with
      | error e => exact unstranded_teardownActive fun heq => by cases heq
      | ok => exact .of_next rfl fun heq => by cases heq
    | startingShell supervisor shell =>
      cases answer.awaited with
      | error e => exact unstranded_teardownActive fun heq => by cases heq
      | ok =>
        intro hidle _
        obtain ⟨projectId, i, j, hi, -⟩ := hc.building _ hactive rfl
        rw [Idle] at hidle
        exact absurd (hi.symm.trans hidle.1) (by simp)

theorem OpenWaits.cons {job : Job} {jobs : List Job} (h : c.OpenWaits)
    (htail : c.openTail = job :: jobs) (hjob : ∀ projectId path, job ≠ .openProject projectId path) :
    OpenWaits { c with openTail := jobs } := by
  obtain ⟨projectId, path, hmem⟩ := h
  rw [htail] at hmem
  cases List.mem_cons.1 hmem with
  | inl heq => exact absurd heq.symm (hjob projectId path)
  | inr hmem => exact ⟨projectId, path, hmem⟩

theorem Unstranded.takeTurn (h : c.Unstranded) (hattended : Attended .takeTurn c) :
    c.takeTurn.Unstranded := by
  rw [Controller.takeTurn]
  split
  · rename_i job jobs hactive htail
    cases job with
    | openProject projectId path => exact unstranded_teardownActive fun heq => by cases heq
    | reopenCurrentProject =>
      rw [run]
      split
      · rename_i hnone
        exact fun _ _ => .inl hnone
      · exact unstranded_teardownActive fun heq => by cases heq
    | shutdown =>
      obtain ⟨hopen, hid, -⟩ := @teardownActive_eq { c with openTail := jobs } .finish
      intro _ _
      rw [run, OpenWaits, hopen, hid]
      cases hattended jobs rfl hactive htail with
      | inl hnone => exact .inl hnone
      | inr hwaits => exact .inr (hwaits.cons htail fun _ _ heq => by cases heq)
  · exact h

/-- A call that does not wait touches neither the tail nor what is held or under way. -/
structure Aside (c c' : Controller) : Prop where
  openTail : c'.openTail = c.openTail
  active : c'.active = c.active
  supervisor : c'.supervisor = c.supervisor
  shell : c'.shell = c.shell
  currentProjectId : c'.currentProjectId = c.currentProjectId

theorem aside_retryDaemon (c : Controller) : c.Aside c.retryDaemon := by
  rw [Controller.retryDaemon]
  split
  · exact ⟨rfl, rfl, rfl, rfl, rfl⟩
  · exact ⟨rfl, rfl, rfl, rfl, rfl⟩

theorem aside_requestDaemonStop (c : Controller) : c.Aside c.requestDaemonStop := by
  rw [Controller.requestDaemonStop]
  split
  · exact ⟨rfl, rfl, rfl, rfl, rfl⟩
  · exact ⟨rfl, rfl, rfl, rfl, rfl⟩

theorem aside_handleDaemonStatus (c : Controller) (status : DaemonStatus) (detail : Option String) :
    c.Aside (c.handleDaemonStatus status detail) := by
  simp only [handleDaemonStatus]
  split
  · exact ⟨rfl, rfl, rfl, rfl, rfl⟩
  · exact ⟨rfl, rfl, rfl, rfl, rfl⟩

theorem aside_resumeRetry (c : Controller) (i : ℕ) (answer : RetryAnswer) :
    c.Aside (c.resumeRetry i answer) := by
  rw [Controller.resumeRetry]
  split
  · exact ⟨rfl, rfl, rfl, rfl, rfl⟩
  · split
    · exact ⟨rfl, rfl, rfl, rfl, rfl⟩
    · exact ⟨rfl, rfl, rfl, rfl, rfl⟩
    · exact ⟨rfl, rfl, rfl, rfl, rfl⟩
  · split
    · exact ⟨rfl, rfl, rfl, rfl, rfl⟩
    · exact ⟨rfl, rfl, rfl, rfl, rfl⟩

theorem Aside.idle {c c' : Controller} (h : c.Aside c') : c'.Idle ↔ c.Idle := by
  rw [Idle, Idle, h.supervisor, h.shell]

theorem Aside.finishing {c c' : Controller} (h : c.Aside c') : c'.Finishing ↔ c.Finishing := by
  rw [Finishing, Finishing, h.active]

theorem Aside.unstranded {c c' : Controller} (h : c.Aside c') (hc : c.Unstranded) :
    c'.Unstranded := by
  intro hidle hfinishing
  rw [h.currentProjectId, OpenWaits, h.openTail]
  exact hc (h.idle.1 hidle) (h.finishing.1 hfinishing)

theorem Unstranded.step {event : ControllerEvent} (hattended : Attended event c)
    (h : c.Unstranded) (hc : c.Sound) : (Controller.step event c).Unstranded := by
  cases event with
  | call job =>
    intro hidle hfinishing
    cases h hidle hfinishing with
    | inl hnone => exact .inl hnone
    | inr hwaits =>
      obtain ⟨projectId, path, hmem⟩ := hwaits
      exact .inr ⟨projectId, path, List.mem_append_left _ hmem⟩
  | takeTurn => exact h.takeTurn hattended
  | resume answer => exact h.resume hc
  | retryDaemon => exact (aside_retryDaemon c).unstranded h
  | requestDaemonStop => exact (aside_requestDaemonStop c).unstranded h
  | daemonStatus status detail => exact (aside_handleDaemonStatus c status detail).unstranded h
  | resumeRetry i answer => exact (aside_resumeRetry c i answer).unstranded h

/-! ## The last shutdown -/

/-- No `openProject` call is among the waiting ones. -/
def NoOpen (jobs : List Job) : Prop := ∀ projectId path, .openProject projectId path ∉ jobs

/-- The last shutdown: it waits with no open behind it, or it is under way or done with no project
left to reopen. -/
def Quitting (c : Controller) : Prop :=
  (∃ earlier later, c.openTail = earlier ++ .shutdown :: later ∧ NoOpen later) ∨
    NoOpen c.openTail ∧ c.currentProjectId = none ∧ c.Idle ∧ c.Finishing

theorem Aside.quitting {c c' : Controller} (h : c.Aside c') (hc : c.Quitting) : c'.Quitting := by
  rw [Quitting, h.openTail, h.currentProjectId, h.idle, h.finishing]
  exact hc

theorem NoOpen.append {jobs : List Job} {job : Job} (h : NoOpen jobs)
    (hjob : ∀ projectId path, job ≠ .openProject projectId path) : NoOpen (jobs ++ [job]) := by
  intro projectId path hmem
  cases List.mem_append.1 hmem with
  | inl hmem => exact h projectId path hmem
  | inr hmem => exact hjob projectId path (List.mem_singleton.1 hmem).symm

theorem Quitting.resume (h : c.Quitting) : (c.resume answer).Quitting := by
  have htail : (c.resume answer).openTail = c.openTail := openTail_resume
  rw [Quitting, htail]
  cases h with
  | inl hwaits => exact .inl hwaits
  | inr hdone =>
    obtain ⟨hno, hid, hidle, hfinishing⟩ := hdone
    refine .inr ⟨hno, ?_⟩
    rw [Controller.resume]
    cases hactive : c.active with
    | none => exact ⟨hid, hidle, .of_none hactive⟩
    | some active =>
      have hnext := hfinishing active hactive
      cases active with
      | stopping activeShell next =>
        obtain ⟨-, hid', hsupervisor, hshell, active', hactive', hnext'⟩ :=
          @closeShell_eq c next activeShell
        refine ⟨hid'.trans hid, ⟨hsupervisor.trans hidle.1, hshell.trans hidle.2⟩, ?_⟩
        exact (finishing_iff hactive').2 (hnext'.trans hnext)
      | closing next =>
        refine ⟨hid, hidle, fun active hactive => ?_⟩
        cases hactive
        exact hnext
      | tornDown next =>
        cases hnext
        exact ⟨hid, hidle, .of_none rfl⟩
      | starting => cases hnext
      | startingShell => cases hnext

theorem Quitting.takeTurn (h : c.Quitting) (hattended : Attended .takeTurn c) :
    c.takeTurn.Quitting := by
  rw [Controller.takeTurn]
  split
  · rename_i job jobs hactive htail
    have hshutdown (hno : NoOpen jobs) (hid : c.currentProjectId = none) :
        (Controller.run { c with openTail := jobs } .shutdown).Quitting := by
      obtain ⟨hopen, hid', hidle, active, hactive, hnext⟩ :=
        @teardownActive_eq { c with openTail := jobs } .finish
      exact .inr ⟨hopen ▸ hno, hid'.trans hid, hidle, (finishing_iff hactive).2 hnext⟩
    cases h with
    | inl hwaits =>
      obtain ⟨earlier, later, heq, hlater⟩ := hwaits
      rw [htail] at heq
      cases earlier with
      | nil =>
        obtain ⟨rfl, rfl⟩ := List.cons.inj heq
        refine hshutdown hlater ?_
        cases hattended jobs rfl hactive htail with
        | inl hnone => exact hnone
        | inr hopen =>
          obtain ⟨projectId, path, hmem⟩ := hopen.cons htail fun _ _ heq => by cases heq
          exact absurd hmem (hlater projectId path)
      | cons first earlier =>
        obtain ⟨rfl, rfl⟩ := List.cons.inj heq
        exact .inl ⟨earlier, later, openTail_run, hlater⟩
    | inr hdone =>
      obtain ⟨hno, hid, hidle, hfinishing⟩ := hdone
      rw [htail] at hno
      have hrest : NoOpen jobs := fun projectId path hmem => 
        hno projectId path (List.mem_cons_of_mem job hmem)
      cases job with
      | openProject projectId path => exact absurd List.mem_cons_self (hno projectId path)
      | shutdown => exact hshutdown hrest hid
      | reopenCurrentProject =>
        rw [run]
        split
        · exact .inr ⟨hrest, hid, hidle, .of_none rfl⟩
        · rename_i projectId hsome
          exact absurd (hid.symm.trans hsome) (by simp)
  · exact h

theorem Quitting.step {event : ControllerEvent} (hattended : Attended event c) (h : c.Quitting)
    (hevent : ∀ projectId path, event ≠ .call (.openProject projectId path)) :
    (Controller.step event c).Quitting := by
  cases event with
  | call job =>
    have hjob (projectId path) : job ≠ .openProject projectId path :=
      fun heq => hevent projectId path (congrArg _ heq)
    cases h with
    | inl hwaits =>
      obtain ⟨earlier, later, htail, hlater⟩ := hwaits
      refine .inl ⟨earlier, later ++ [job], ?_, hlater.append hjob⟩
      change c.openTail ++ [job] = _
      rw [htail, List.append_assoc, List.cons_append]
    | inr hdone => exact .inr ⟨hdone.1.append hjob, hdone.2⟩
  | takeTurn => exact h.takeTurn hattended
  | resume answer => exact h.resume
  | retryDaemon => exact (aside_retryDaemon c).quitting h
  | requestDaemonStop => exact (aside_requestDaemonStop c).quitting h
  | daemonStatus status detail => exact (aside_handleDaemonStatus c status detail).quitting h
  | resumeRetry i answer => exact (aside_resumeRetry c i answer).quitting h

end Controller

/-- The controller serves the project it shows in every run whose shutdowns are attended. -/
theorem controller_serves {events : List ControllerEvent}
    (hattended : Run.Guarded Controller.step Attended events Controller.initial) :
    Serves events (Run.after Controller.step events Controller.initial) := by
  have hsound := Controller.sound_run
  refine ⟨fun i j hi hj => ?_, fun hquiet => ?_, fun earlier later heq hlater hquiet => ?_⟩
  · have hheld := (hsound events).runs i hi
    rw [(hsound events).runs j hj] at hheld
    exact (Option.some.inj hheld).symm
  · obtain ⟨htail, hactive, -⟩ := hquiet
    have hunstranded : (Run.after Controller.step events Controller.initial).Unstranded ∧
        (Run.after Controller.step events Controller.initial).Sound :=
      Run.invariant (fun c => c.Unstranded ∧ c.Sound)
        (fun event c hc h => ⟨h.1.step hc h.2, h.2.step event⟩) hattended
        ⟨fun _ _ => .inl rfl, Controller.sound_initial⟩
    generalize Run.after Controller.step events Controller.initial = c at *
    obtain ⟨hunstranded, hc⟩ := hunstranded
    cases hc.held with
    | inl hidle =>
      refine .inl ⟨hidle, ?_⟩
      cases hunstranded hidle (.of_none hactive) with
      | inl hid => rw [hc.shown, hid]; rfl
      | inr hwaits =>
        obtain ⟨projectId, path, hmem⟩ := hwaits
        rw [htail] at hmem
        exact absurd hmem List.not_mem_nil
    | inr hbound =>
      obtain ⟨projectId, hbound⟩ := hbound
      obtain ⟨i, j, -, -, -, -, hid⟩ := id hbound
      exact .inr ⟨projectId, c.currentPath, hbound, by rw [hc.shown, hid]; rfl⟩
  · obtain ⟨htail, hactive, -⟩ := hquiet
    have hquitting : (Run.after Controller.step events Controller.initial).Quitting := by
      rw [heq, Run.after_append, Run.after_cons]
      rw [heq, Run.guarded_append] at hattended
      refine Run.invariant Controller.Quitting
        (fun event c hc h => h.step hc.1 hc.2) (Run.guarded_and.2 ⟨hattended.2.2,
          Run.guarded_of_forall fun event hmem projectId path heq => ?_⟩) ?_
      · exact hlater projectId path (heq ▸ hmem)
      · exact .inl ⟨_, [], rfl, fun _ _ => List.not_mem_nil⟩
    have hc := hsound events
    generalize Run.after Controller.step events Controller.initial = c at *
    cases hquitting with
    | inl hwaits =>
      obtain ⟨earlier, jobs, hmem, -⟩ := hwaits
      rw [htail] at hmem
      exact absurd hmem.symm (by simp)
    | inr hdone =>
      obtain ⟨-, -, hidle, -⟩ := hdone
      intro i
      constructor
      · cases hruns : c.runs i with
        | false => rfl
        | true => exact absurd ((hc.runs i hruns).symm.trans hidle.1) (by simp)
      · cases hopen : c.isOpen i with
        | false => rfl
        | true =>
          cases hc.isOpen i hopen with
          | inl hshell => exact absurd (hshell.symm.trans hidle.2) (by simp)
          | inr hstopping =>
            obtain ⟨next, hstopping⟩ := hstopping
            exact absurd (hactive.symm.trans hstopping) (by simp)

/-- Nothing throws. -/
def fine : Controller.Answer := ⟨.ok (), none, .ok (), .ok ()⟩

/-- A call takes its turn and ends after three awaits. -/
def oneTurn : List ControllerEvent := .takeTurn :: List.replicate 3 (.resume fine)

/-- A shutdown with an open waiting behind it. -/
def switch : List ControllerEvent :=
  .call (.openProject "a" none) :: oneTurn ++
    .call .shutdown :: .call (.openProject "b" none) :: oneTurn ++ oneTurn

theorem controller_serves_switch :
    Serves switch (Run.after Controller.step switch Controller.initial) := by
  have hcall (job) (c : Controller) : Attended (.call job) c := fun _ h => by cases h
  have hresume (c : Controller) : Attended (.resume fine) c := fun _ h => by cases h
  exact controller_serves ⟨hcall _ _, fun _ _ _ htail => (by cases htail), hresume _, hresume _,
    hresume _, hcall _ _, hcall _ _, fun _ _ _ _ => .inr ⟨"b", none, .tail _ (.head _)⟩, hresume _,
    hresume _, hresume _, fun _ _ _ htail => (by cases htail), hresume _, hresume _, hresume _, trivial⟩

/-- The window is closed with a project open. -/
def quit : List ControllerEvent :=
  .call (.openProject "a" none) :: oneTurn ++ .call .shutdown :: oneTurn

/-- The window is closed, and a token that was just connected asks for a reopen. -/
def quitThenReopen : List ControllerEvent :=
  .call (.openProject "a" none) :: oneTurn ++
    .call .shutdown :: .call .reopenCurrentProject :: oneTurn ++ oneTurn

/-- After a shutdown the project is still shown, and a reopen behind it starts its daemon again. -/
theorem quit_strands :
    ¬ Serves quit (Run.after Controller.step quit Controller.initial) ∧
      ¬ Serves quitThenReopen (Run.after Controller.step quitThenReopen Controller.initial) := by
  constructor
  · intro h
    cases h.ofOneProject ⟨rfl, rfl, rfl⟩ with
    | inl habsent => exact absurd habsent.2 (by decide)
    | inr hbound =>
      obtain ⟨projectId, path, ⟨i, j, hi, -⟩, -⟩ := hbound
      cases hi
  · intro h
    have hnothing := h.nothingLeft (.call (.openProject "a" none) :: oneTurn)
      (.call .reopenCurrentProject :: oneTurn ++ oneTurn) rfl
      (fun projectId path hmem => by simp [oneTurn, List.replicate] at hmem) ⟨rfl, rfl, rfl⟩
    exact absurd (hnothing 1).1 (by decide)

end Orchestration.Desktop
