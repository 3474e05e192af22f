import Orchestration.Desktop.DaemonSupervisor

/-!
# Runs of the daemon supervisor

At most one thread is busy: it belongs to the present episode, or it brings a
child to its end. What is alive is the child that the supervisor holds, or the
one that the busy thread is ending. This rests on the order in which calls and
children come, which the supervisor leaves to its callers.
-/

namespace Orchestration.Desktop

/-- The generation of a thread that acts for an episode. -/
def Thread.generation? : Thread → Option ℕ
  | .tearing generation _ _ _ => some generation
  | .waiting _ generation _ _ => some generation
  | .discarding _ generation _ _ => some generation
  | .backoff generation _ => some generation
  | _ => none

/-- The thread is in `terminateChild`. -/
def Thread.Ends : Thread → Prop
  | .tearing _ _ _ _ => True
  | .discarding _ _ _ _ => True
  | .stopping _ _ _ => True
  | _ => False

/-- The project that a restart is going to start once its stop is over. -/
def Thread.restart? : Thread → Option ProjectId
  | .stopping _ _ restart => restart
  | .stopped restart => restart
  | _ => none

/-- The thread is a stop that has not set the status yet. -/
def Thread.Stops : Thread → Prop
  | .stopping _ _ _ => True
  | _ => False

namespace DaemonSupervisor

variable (s : DaemonSupervisor)

def threadAt (t : ℕ) : Thread := (s.threads[t]?).getD .done

/-- The `i`-th child was spawned and has neither ended nor been sent SIGKILL. -/
def Alive (i : ℕ) : Prop :=
  ∃ child, s.children[i]? = some child ∧ child.gone = false ∧ child.killed = false

/-- The supervisor holds a child that has not ended. -/
def HoldsChild : Prop :=
  ∃ i child, s.child = some i ∧ s.children[i]? = some child ∧ child.gone = false

/-- No call, loop or timer is pending. -/
def Quiet : Prop := ∀ t, s.threadAt t = .done

end DaemonSupervisor

/-- What the seams answer in the step. -/
def SupervisorEvent.answer? : SupervisorEvent → Option SeamAnswer
  | .start _ answer => some answer
  | .resume _ answer => some answer
  | _ => none

def SupervisorEvent.IsCall : SupervisorEvent → Prop
  | .start _ _ => True
  | .stop => True
  | .restart _ => True
  | _ => False

/-- What the supervisor owes after a run: one child at most, a status that is true of it, and no
child after a last stop. -/
structure Truthful (options : DaemonSupervisorOptions) (events : List SupervisorEvent)
    (s : DaemonSupervisor) : Prop where
  oneAlive : ∀ i j, s.Alive i → s.Alive j → i = j
  healthy : s.Quiet → (s.status = .healthy ↔ s.HoldsChild)
  otherwise : s.Quiet → s.status ≠ .healthy → s.status = .failed ∨ s.status = .stopped
  stops : ∀ earlier later, events = earlier ++ .stop :: later → (∀ event ∈ later, ¬ event.IsCall) →
    s.children.length =
      (Run.after (DaemonSupervisor.step options) earlier .initial).children.length ∧
    (s.Quiet → s.status = .stopped)

/-- An order of calls and child events that the supervisor can follow. -/
structure Orderly (event : SupervisorEvent) (s : DaemonSupervisor) : Prop where
  /-- Nothing is being ended when a start, or the start of a restart, begins. -/
  startsAlone : ∀ projectId, s.Begins projectId →
    ((∃ answer, event = .start projectId answer) ∨
      ∃ t answer, event = .resume t answer ∧ s.threadAt t = .stopped (some projectId)) →
    ∀ u, ¬ (s.threadAt u).Ends
  /-- No restart is pending when `stop` is called. -/
  stopsLast : event = .stop → ∀ u, (s.threadAt u).restart? = none
  /-- The child whose health was found is still held when the wait for it returns. -/
  healthyHeld : ∀ t answer owner generation child, event = .resume t answer →
    s.threadAt t = .waiting owner generation child (.returned true) →
    s.superseded generation = false → s.child = some child
  /-- The seams do not throw. -/
  seams : ∀ answer, event.answer? = some answer →
    answer.spawn = .ok () ∧ ∃ socketPath, answer.socketPath = .ok socketPath
  /-- An error comes only of a child that never came up. -/
  errors : ∀ i message gone, event = .error i message gone → gone = true

namespace DaemonSupervisor

/-! ## The invariant -/

variable (s : DaemonSupervisor)

/-- The thread acts for the present episode, or it is ending a child. -/
def Busy (thread : Thread) : Prop := thread.generation? = some s.generation ∨ thread.Ends

/-- The status is final, and true of the child. -/
def AtRest : Prop :=
  s.status = .healthy ∧ s.child ≠ none ∨ (s.status = .failed ∨ s.status = .stopped) ∧ s.child = none

/-- Only the child that is held may be alive. -/
def OnlyHeld : Prop := ∀ i, s.Alive i → s.child = some i

/-- Only the child that is being ended may be alive, as long as it has not been sent SIGKILL. -/
def OnlyEnding (i : ℕ) (phase : Phase) : Prop :=
  s.child = none ∧ ∀ j, s.Alive j → j = i ∧ phase = .grace

/-- An episode has its project, and is not being stopped. -/
def Underway : Prop := s.stopping = false ∧ s.projectId ≠ none

/-- What the state is like while the one busy thread is this one. -/
def Fits : Thread → Prop
  | .tearing generation _ old phase =>
    s.OnlyEnding old phase ∧ if generation = s.generation then s.stopping = false else s.AtRest
  | .waiting _ generation child _ =>
    s.OnlyHeld ∧ if generation = s.generation then
      s.Underway ∧ s.status ≠ .healthy ∧ (s.child = none ∨ s.child = some child) else s.AtRest
  | .discarding _ generation child phase =>
    s.OnlyEnding child phase ∧ if generation = s.generation then s.Underway else s.AtRest
  | .backoff generation _ =>
    s.OnlyHeld ∧ if generation = s.generation then
      s.Underway ∧ s.status ≠ .healthy ∧ s.child = none else s.AtRest
  | .stopping child phase _ => s.OnlyEnding child phase
  | _ => s.OnlyHeld ∧ s.AtRest

/-- The `t`-th thread fits, and no other is busy. -/
def Focused (t : ℕ) : Prop :=
  s.Fits (s.threadAt t) ∧ ∀ u ≠ t, ¬ s.Busy (s.threadAt u)

/-- What holds of the children, whatever the threads do. -/
structure Kept : Prop where
  /-- The child that is held is of the present episode, and nothing was heard of its end. -/
  held : ∀ i, s.child = some i → s.Underway ∧ ∃ child, s.children[i]? = some child ∧
    child.generation = s.generation ∧ child.gone = false ∧ child.heard = false
  ended : ∀ (i : ℕ) (child : Child), s.children[i]? = some child →
    child.heard = true ∨ child.exitEmitted = true → child.gone = true

/-- The invariant. -/
structure Sound : Prop where
  kept : s.Kept
  focused : ∃ t, s.Focused t
  generations : ∀ t generation, (s.threadAt t).generation? = some generation →
    generation ≤ s.generation

/-- All is ready for the `t`-th thread to become the busy one. -/
structure Ready (t : ℕ) : Prop where
  kept : s.Kept
  lt : t < s.threads.length
  others : ∀ u ≠ t, ¬ s.Busy (s.threadAt u)
  generations : ∀ u generation, (s.threadAt u).generation? = some generation →
    generation ≤ s.generation

variable {s} {t u i : ℕ} {a : Thread} {phase : Phase}

/-! ## Threads -/

theorem threadAt_setThread (ht : t < s.threads.length) :
    (s.setThread t a).threadAt u = if u = t then a else s.threadAt u := by
  rw [threadAt, setThread, List.getElem?_set]
  by_cases hut : u = t
  · subst hut
    simp [ht]
  · rw [if_neg hut, if_neg (Ne.symm hut)]
    rfl

/-- A thread that is about to begin is done as long as nothing is known of it. -/
theorem threadAt_append {s' : DaemonSupervisor} (h : s'.threads = s.threads ++ [.done]) :
    s'.threadAt u = s.threadAt u := by
  rw [threadAt, threadAt, h, List.getElem?_append]
  split
  · rfl
  · rename_i hle
    rw [List.getElem?_eq_none (Nat.le_of_not_lt hle)]
    cases u - s.threads.length with
    | zero => rfl
    | succ => rfl

theorem lt_of_threadAt (h : s.threadAt t ≠ .done) : t < s.threads.length := by
  by_contra hle
  rw [threadAt, List.getElem?_eq_none (Nat.le_of_not_lt hle)] at h
  exact h rfl

/-- A thread that is not busy fits just where all is at rest. -/
theorem fits_iff_of_not_busy (h : ¬ s.Busy a) : s.Fits a ↔ s.OnlyHeld ∧ s.AtRest := by
  rw [Busy, not_or] at h
  obtain ⟨hacts, hends⟩ := h
  cases a with
  | tearing => exact absurd trivial hends
  | discarding => exact absurd trivial hends
  | stopping => exact absurd trivial hends
  | waiting owner generation child wait =>
    have hne : generation ≠ s.generation := fun heq => hacts (congrArg some heq)
    rw [Fits, if_neg hne]
  | backoff generation detail =>
    have hne : generation ≠ s.generation := fun heq => hacts (congrArg some heq)
    rw [Fits, if_neg hne]
  | settled => rfl
  | stopped => rfl
  | done => rfl

theorem Ready.sound (h : s.Ready t) (hfits : s.Fits a)
    (hgeneration : ∀ generation, a.generation? = some generation → generation ≤ s.generation) :
    (s.setThread t a).Sound := by
  refine ⟨⟨h.kept.held, h.kept.ended⟩, ⟨t, ?_, fun u hu => ?_⟩, fun u generation hu => ?_⟩
  · rw [threadAt_setThread h.lt, if_pos rfl]
    exact hfits
  · rw [threadAt_setThread h.lt, if_neg hu]
    exact h.others u hu
  · rw [threadAt_setThread h.lt] at hu
    split at hu
    · exact hgeneration generation hu
    · exact h.generations u generation hu

/-- What a thread does that is not busy, and does not become busy, is nobody's concern. -/
theorem Sound.setThread (h : s.Sound) (ht : t < s.threads.length) (hold : ¬ s.Busy (s.threadAt t))
    (hnew : ¬ s.Busy a)
    (hgeneration : ∀ generation, a.generation? = some generation → generation ≤ s.generation) :
    (s.setThread t a).Sound := by
  obtain ⟨f, hfits, hothers⟩ := h.focused
  by_cases hft : f = t
  · subst hft
    rw [fits_iff_of_not_busy hold] at hfits
    exact Ready.sound ⟨h.kept, ht, hothers, h.generations⟩ ((fits_iff_of_not_busy hnew).2 hfits)
      hgeneration
  · refine ⟨⟨h.kept.held, h.kept.ended⟩, ⟨f, ?_, fun u hu => ?_⟩, fun u generation hu => ?_⟩
    · rw [threadAt_setThread ht, if_neg hft]
      exact hfits
    · rw [threadAt_setThread ht]
      split
      · exact hnew
      · exact hothers u hu
    · rw [threadAt_setThread ht] at hu
      split at hu
      · exact hgeneration generation hu
      · exact h.generations u generation hu

/-- A busy thread is the one that fits. -/
theorem Sound.ready (h : s.Sound) (hbusy : s.Busy (s.threadAt t)) :
    s.Ready t ∧ s.Fits (s.threadAt t) := by
  obtain ⟨f, hfits, hothers⟩ := h.focused
  have hft : t = f := by
    by_contra hne
    exact hothers t hne hbusy
  subst hft
  refine ⟨⟨h.kept, lt_of_threadAt fun hdone => ?_, hothers, h.generations⟩, hfits⟩
  rw [hdone] at hbusy
  cases hbusy with
  | inl hacts => cases hacts
  | inr hends => exact hends

/-! ## Children -/

theorem getElem?_modifyChild {f : Child → Child} {j : ℕ} :
    (s.modifyChild i f).children[j]? =
      if i = j then (s.children[j]?).map f else s.children[j]? := by
  rw [modifyChild, List.getElem?_modify]
  split
  · rfl
  · exact Option.map_id'

/-- A change of one child brings none to life. -/
theorem alive_modifyChild {f : Child → Child} {j : ℕ}
    (hf : ∀ child, (f child).gone = false → (f child).killed = false →
      child.gone = false ∧ child.killed = false) (h : (s.modifyChild i f).Alive j) : s.Alive j := by
  obtain ⟨child, hchild, hgone, hkilled⟩ := h
  rw [getElem?_modifyChild] at hchild
  split at hchild
  · obtain ⟨old, hold, rfl⟩ := Option.map_eq_some_iff.1 hchild
    exact ⟨old, hold, hf old hgone hkilled⟩
  · exact ⟨child, hchild, hgone, hkilled⟩

theorem not_alive_modifyChild {f : Child → Child}
    (hf : ∀ child, (f child).gone = true ∨ (f child).killed = true) : ¬ (s.modifyChild i f).Alive i := by
  rintro ⟨child, hchild, hgone, hkilled⟩
  rw [getElem?_modifyChild, if_pos rfl] at hchild
  obtain ⟨old, -, rfl⟩ := Option.map_eq_some_iff.1 hchild
  cases hf old with
  | inl h => rw [hgone] at h; cases h
  | inr h => rw [hkilled] at h; cases h

theorem Kept.not_alive_of_exitEmitted (h : s.Kept)
    (hexited : (s.children[i]?).any (·.exitEmitted) = true) : ¬ s.Alive i := by
  rintro ⟨child, hchild, hgone, -⟩
  rw [hchild] at hexited
  rw [h.ended i child hchild (.inr hexited)] at hgone
  cases hgone

/-- A change of a child that is not held. -/
theorem Kept.modifyChild (h : s.Kept) {f : Child → Child} (hi : s.child ≠ some i)
    (hf : ∀ child, s.children[i]? = some child →
      (f child).heard = true ∨ (f child).exitEmitted = true → (f child).gone = true) :
    (s.modifyChild i f).Kept := by
  refine ⟨fun j hj => ?_, fun j child hchild hended => ?_⟩
  · obtain ⟨hunderway, child, hchild, hrest⟩ := h.held j hj
    have hij : i ≠ j := by
      rintro rfl
      exact hi hj
    refine ⟨hunderway, child, ?_, hrest⟩
    rw [getElem?_modifyChild, if_neg hij]
    exact hchild
  · rw [getElem?_modifyChild] at hchild
    split at hchild
    · rename_i heq
      subst heq
      obtain ⟨old, hold, rfl⟩ := Option.map_eq_some_iff.1 hchild
      exact hf old hold hended
    · exact h.ended j child hchild hended

theorem OnlyEnding.terminateNext (h : s.OnlyEnding i phase) (hkept : s.Kept) :
    ∃ s' phase', s.terminateNext i phase = (s', phase') ∧ s'.OnlyEnding i phase' ∧
      (s' = s ∨ s' = s.modifyChild i fun child => { child with killed := true }) := by
  have hkill : ∀ phase' : Phase, OnlyEnding (s.modifyChild i fun child =>
      { child with killed := true }) i phase' := by
    intro phase'
    refine ⟨h.1, fun j hj => ?_⟩
    obtain rfl := (h.2 j (alive_modifyChild (fun _ hgone hkilled => by cases hkilled) hj)).1
    exact absurd hj (not_alive_modifyChild fun _ => .inr rfl)
  have hexit : (s.children[i]?).any (·.exitEmitted) = true → s.OnlyEnding i .returned := by
    intro hexited
    refine ⟨h.1, fun j hj => ?_⟩
    obtain rfl := (h.2 j hj).1
    exact absurd hj (hkept.not_alive_of_exitEmitted hexited)
  cases phase with
  | returned => exact ⟨s, .returned, rfl, h, .inl rfl⟩
  | grace =>
    cases hexited : (s.children[i]?).any (·.exitEmitted) with
    | true => exact ⟨s, .returned, by simp [DaemonSupervisor.terminateNext, hexited], hexit hexited, .inl rfl⟩
    | false => exact ⟨_, .killed, by simp [DaemonSupervisor.terminateNext, hexited], hkill _, .inr rfl⟩
  | killed =>
    cases hexited : (s.children[i]?).any (·.exitEmitted) with
    | true => exact ⟨s, .returned, by simp [DaemonSupervisor.terminateNext, hexited], hexit hexited, .inl rfl⟩
    | false => exact ⟨_, .returned, by simp [DaemonSupervisor.terminateNext, hexited], hkill _, .inr rfl⟩

/-! ## Spawning -/

variable {options : DaemonSupervisorOptions} {answer : SeamAnswer} {generation : ℕ}
  {projectId : ProjectId} {owner : Owner} {thrown : String → Thread}

/-- A child may be spawned once no other is held or alive. -/
theorem Ready.spawnAndWait (h : s.Ready t) (hchild : s.child = none) (halive : s.OnlyHeld)
    (hunderway : s.Underway) (hstatus : s.status ≠ .healthy) (hspawn : answer.spawn = .ok ()) :
    (s.spawnAndWait options t owner s.generation answer thrown).Sound := by
  obtain ⟨projectId, hprojectId⟩ := Option.ne_none_iff_exists'.1 hunderway.2
  have hnone : ∀ i, ¬ s.Alive i := by
    intro i hi
    have hheld := halive i hi
    rw [hchild] at hheld
    cases hheld
  simp only [DaemonSupervisor.spawnAndWait, spawnChild, hprojectId, hspawn]
  refine Ready.sound ⟨⟨fun i hi => ?_, fun i child hi hended => ?_⟩, h.lt, h.others, h.generations⟩
    ⟨fun i hi => ?_, ?_⟩ ?_
  · cases hi
    exact ⟨⟨hunderway.1, Option.some_ne_none _⟩, _, List.getElem?_concat_length, rfl, rfl, rfl⟩
  · rw [List.getElem?_append] at hi
    split at hi
    · exact h.kept.ended i child hi hended
    · cases hlen : i - s.children.length with
      | zero =>
        rw [hlen] at hi
        cases hi
        cases hended with
        | inl h => cases h
        | inr h => cases h
      | succ n =>
        rw [hlen] at hi
        cases hi
  · obtain ⟨child, hchild', hgone, hkilled⟩ := hi
    rw [List.getElem?_append] at hchild'
    split at hchild'
    · exact absurd ⟨child, hchild', hgone, hkilled⟩ (hnone i)
    · cases hlen : i - s.children.length with
      | zero => 
        refine congrArg some ?_
        omega
      | succ n =>
        rw [hlen] at hchild'
        cases hchild'
  · rw [if_pos rfl]
    exact ⟨⟨hunderway.1, Option.some_ne_none _⟩, hstatus, .inr rfl⟩
  · intro generation hgeneration
    cases hgeneration
    exact Nat.le_refl _

/-- The start of an episode once nothing is held or alive. -/
theorem Ready.afterTeardown (h : s.Ready t) (hchild : s.child = none) (halive : s.OnlyHeld)
    (hspawn : answer.spawn = .ok ()) (hsocket : ∃ socketPath, answer.socketPath = .ok socketPath) :
    (s.afterTeardown options t s.generation projectId answer).Sound := by
  obtain ⟨socketPath, hsocket⟩ := hsocket
  simp only [DaemonSupervisor.afterTeardown, hsocket]
  refine Ready.spawnAndWait ⟨⟨fun i hi => ?_, h.kept.ended⟩, h.lt, h.others, h.generations⟩ hchild
    halive ⟨rfl, Option.some_ne_none _⟩ (by simp [setStatus]) hspawn
  exact absurd (hi.symm.trans hchild) (Option.some_ne_none i)

theorem OnlyEnding.onlyHeld (h : s.OnlyEnding i phase) (hphase : phase ≠ .grace) : s.OnlyHeld := by
  intro j hj
  exact absurd (h.2 j hj).2 hphase

/-- The child that is held is to be ended. -/
theorem OnlyHeld.onlyEnding (h : s.OnlyHeld) (hkept : s.Kept) (hi : s.child = none ∨ s.child = some i)
    {s' : DaemonSupervisor} (hchild : s'.child = none) (hchildren : s'.children = s.children) :
    s'.OnlyEnding i (s'.terminateChild i) := by
  refine ⟨hchild, fun j hj => ?_⟩
  have hj' : s.Alive j := by
    obtain ⟨child, hmem, hrest⟩ := hj
    exact ⟨child, hchildren ▸ hmem, hrest⟩
  have hheld := h j hj'
  have hji : j = i := by
    cases hi with
    | inl hnone => rw [hnone] at hheld; cases hheld
    | inr hsome => exact Option.some.inj (hheld.symm.trans hsome)
  subst hji
  refine ⟨rfl, ?_⟩
  obtain ⟨-, child, hmem, -, -, hheard⟩ := hkept.held j hheld
  simp [DaemonSupervisor.terminateChild, hchildren, hmem, hheard]

/-- A new generation leaves only the threads busy that are ending a child. -/
theorem Sound.not_busy (h : s.Sound) (hends : ¬ (s.threadAt u).Ends) {s' : DaemonSupervisor}
    (hgeneration : s'.generation = s.generation + 1) : ¬ s'.Busy (s.threadAt u) := by
  rintro (hacts | hends')
  · have hle := h.generations u _ hacts
    omega
  · exact hends hends'

/-- Where no thread is ending a child, only the held one may be alive. -/
theorem Sound.onlyHeld (h : s.Sound) (hends : ∀ u, ¬ (s.threadAt u).Ends) : s.OnlyHeld := by
  obtain ⟨f, hfits, -⟩ := h.focused
  have hnot := hends f
  cases hthread : s.threadAt f with
  | tearing => rw [hthread] at hnot; exact absurd trivial hnot
  | discarding => rw [hthread] at hnot; exact absurd trivial hnot
  | stopping => rw [hthread] at hnot; exact absurd trivial hnot
  | waiting => rw [hthread] at hfits; exact hfits.1
  | backoff => rw [hthread] at hfits; exact hfits.1
  | settled => rw [hthread] at hfits; exact hfits.1
  | stopped => rw [hthread] at hfits; exact hfits.1
  | done => rw [hthread] at hfits; exact hfits.1

theorem Sound.setStarting (h : s.Sound) (starting : Option ℕ) : Sound { s with starting } :=
  ⟨⟨h.kept.held, h.kept.ended⟩, h.focused, h.generations⟩

/-- A new thread of a new generation, where no thread is ending a child. -/
theorem Sound.ready_new (h : s.Sound) (hends : ∀ u, ¬ (s.threadAt u).Ends) {s' : DaemonSupervisor}
    (hkept : s'.Kept) (hthreads : s'.threads = s.threads ++ [.done])
    (hgeneration : s'.generation = s.generation + 1) : s'.Ready s.threads.length := by
  refine ⟨hkept, by simp [hthreads], fun u _ => ?_, fun u generation hu => ?_⟩
  · rw [threadAt_append hthreads]
    exact h.not_busy (hends u) hgeneration
  · rw [threadAt_append hthreads] at hu
    rw [hgeneration]
    exact Nat.le_succ_of_le (h.generations u generation hu)

theorem kept_of_none (hchild : s.child = none) (hended : ∀ (i : ℕ) (child : Child),
    s.children[i]? = some child → child.heard = true ∨ child.exitEmitted = true →
    child.gone = true) : s.Kept := by
  refine ⟨fun i hi => ?_, hended⟩
  rw [hchild] at hi
  cases hi

theorem Sound.start (h : s.Sound) (hends : s.Begins projectId → ∀ u, ¬ (s.threadAt u).Ends)
    (hspawn : answer.spawn = .ok ()) (hsocket : ∃ socketPath, answer.socketPath = .ok socketPath) :
    (s.start options projectId answer).Sound := by
  rw [DaemonSupervisor.start]
  split
  · rename_i hbegins
    have hends := hends hbegins
    have halive := h.onlyHeld hends
    refine Sound.setStarting ?_ _
    rw [startAfterTeardown]
    split
    · rename_i hchild
      refine Ready.afterTeardown (h.ready_new hends (kept_of_none hchild h.kept.ended) rfl rfl) hchild
        halive hspawn hsocket
    · rename_i old hchild
      refine Ready.sound (h.ready_new hends (kept_of_none rfl h.kept.ended) rfl rfl)
        ⟨halive.onlyEnding h.kept (.inr hchild) rfl rfl, ?_⟩ ?_
      · rw [if_pos rfl]
        exact (h.kept.held old hchild).1.1
      · intro generation hgeneration
        cases hgeneration
        exact Nat.le_refl _
  · exact h

/-! ## Stopping -/

theorem Ready.markStopped (h : s.Ready t) {restart : Option ProjectId} (hchild : s.child = none)
    (halive : s.OnlyHeld) : (s.markStopped t restart).Sound := by
  refine Ready.sound (s := setStatus { s with detail := none } .stopped)
    ⟨⟨h.kept.held, h.kept.ended⟩, h.lt, h.others, h.generations⟩ ⟨halive, ?_⟩ ?_
  · exact .inr ⟨.inr rfl, hchild⟩
  · intro generation hgeneration
    cases hgeneration

theorem Fits.child_of_ends (h : s.Fits a) (hends : a.Ends) : s.child = none := by
  cases a with
  | tearing => exact h.1.1
  | discarding => exact h.1.1
  | stopping => exact h.1
  | waiting => exact absurd hends id
  | backoff => exact absurd hends id
  | settled => exact absurd hends id
  | stopped => exact absurd hends id
  | done => exact absurd hends id

/-- No thread is ending a child while one is held. -/
theorem Sound.not_ends (h : s.Sound) (hchild : s.child ≠ none) (u : ℕ) :
    ¬ (s.threadAt u).Ends := by
  intro hends
  exact hchild ((h.ready (.inr hends)).2.child_of_ends hends)

/-- A stop that finds no child leaves the thread that is ending one to it. -/
theorem Fits.stopped (h : s.Fits a) (hchild : s.child = none)
    (hgeneration : ∀ generation, a.generation? = some generation → generation ≤ s.generation)
    {s' : DaemonSupervisor} (hs' : s'.generation = s.generation + 1) (hstatus : s'.status = .stopped)
    (hnone : s'.child = none) (hchildren : s'.children = s.children) : s'.Fits a := by
  have hrest : s'.AtRest := .inr ⟨.inr hstatus, hnone⟩
  have hne : ∀ generation, a.generation? = some generation → generation ≠ s'.generation := by
    intro generation hsome
    have hle := hgeneration generation hsome
    omega
  have halive : ∀ j, s'.Alive j → s.Alive j := by
    rintro j ⟨child, hmem, hlife⟩
    exact ⟨child, hchildren ▸ hmem, hlife⟩
  have honly : s.OnlyHeld → s'.OnlyHeld := by
    intro hheld j hj
    have hj := hheld j (halive j hj)
    rw [hchild] at hj
    cases hj
  cases a with
  | tearing g p old phase =>
    exact ⟨⟨hnone, fun j hj => h.1.2 j (halive j hj)⟩, by rwa [if_neg (hne _ rfl)]⟩
  | discarding owner g child phase =>
    exact ⟨⟨hnone, fun j hj => h.1.2 j (halive j hj)⟩, by rwa [if_neg (hne _ rfl)]⟩
  | stopping child phase restart => exact ⟨hnone, fun j hj => h.2 j (halive j hj)⟩
  | waiting owner g child wait => exact ⟨honly h.1, by rwa [if_neg (hne _ rfl)]⟩
  | backoff g detail => exact ⟨honly h.1, by rwa [if_neg (hne _ rfl)]⟩
  | settled => exact ⟨honly h.1, hrest⟩
  | stopped => exact ⟨honly h.1, hrest⟩
  | done => exact ⟨honly h.1, hrest⟩

theorem Sound.stop (h : s.Sound) {restart : Option ProjectId} : (s.stop restart).Sound := by
  rw [DaemonSupervisor.stop]
  split
  · rename_i hchild
    obtain ⟨f, hfits, hothers⟩ := h.focused
    have hsame : ∀ u, threadAt (setStatus { s with
        stopping := true, generation := s.generation + 1, starting := none, child := none
        threads := s.threads ++ [.done], detail := none } .stopped) u = s.threadAt u :=
      fun u => threadAt_append rfl
    refine Sound.setThread ⟨kept_of_none rfl h.kept.ended, ⟨f, ?_, fun u hu => ?_⟩,
      fun u generation hu => ?_⟩ ?_ ?_ ?_ ?_
    · rw [hsame]
      exact hfits.stopped hchild (h.generations f) rfl rfl rfl rfl
    · rw [hsame]
      exact h.not_busy (fun hends => hothers u hu (.inr hends)) rfl
    · rw [hsame] at hu
      exact Nat.le_succ_of_le (h.generations u generation hu)
    · simp [setStatus]
    · rw [hsame, threadAt, List.getElem?_eq_none (Nat.le_refl _)]
      rintro (hacts | hends)
      · cases hacts
      · exact hends
    · rintro (hacts | hends)
      · cases hacts
      · exact hends
    · intro generation hgeneration
      cases hgeneration
  · rename_i child hchild
    have hends := h.not_ends (hchild ▸ Option.some_ne_none child)
    refine Ready.sound (h.ready_new hends (kept_of_none rfl h.kept.ended) rfl rfl)
      ((h.onlyHeld hends).onlyEnding h.kept (.inr hchild) rfl rfl) ?_
    intro generation hgeneration
    cases hgeneration

/-! ## The restart loop -/

theorem superseded_eq_false (hunderway : s.Underway) : s.superseded s.generation = false := by
  simp [superseded, hunderway.1]

theorem Ready.restartLoop (h : s.Ready t) {detail : String} (hchild : s.child = none)
    (halive : s.OnlyHeld) (hunderway : s.Underway) :
    (s.restartLoop options t s.generation detail).Sound := by
  rw [DaemonSupervisor.restartLoop, superseded_eq_false hunderway]
  simp only [Bool.false_eq_true, if_false]
  split
  · refine Ready.sound (s := setStatus _ _) ⟨⟨h.kept.held, h.kept.ended⟩, h.lt, h.others, h.generations⟩
      ⟨halive, ?_⟩ ?_
    · exact .inr ⟨.inl rfl, hchild⟩
    · intro generation hgeneration
      cases hgeneration
  · refine Ready.sound (s := setStatus _ _) ⟨⟨h.kept.held, h.kept.ended⟩, h.lt, h.others, h.generations⟩
      ⟨halive, ?_⟩ ?_
    · exact (if_pos rfl).mpr ⟨hunderway, by simp [setStatus], hchild⟩
    · intro generation hgeneration
      cases hgeneration
      exact Nat.le_refl _

/-- What fits goes on to fit when a child ends that is not held. -/
theorem Fits.modifyChild (h : s.Fits a) {f : Child → Child}
    (hf : ∀ child, (f child).gone = false → (f child).killed = false →
      child.gone = false ∧ child.killed = false) : (s.modifyChild i f).Fits a := by
  have honly : s.OnlyHeld → (s.modifyChild i f).OnlyHeld :=
    fun hheld j hj => hheld j (alive_modifyChild hf hj)
  have hending {k : ℕ} {phase : Phase} (hends : s.OnlyEnding k phase) :
      (s.modifyChild i f).OnlyEnding k phase :=
    ⟨hends.1, fun j hj => hends.2 j (alive_modifyChild hf hj)⟩
  cases a with
  | tearing => exact ⟨hending h.1, h.2⟩
  | discarding => exact ⟨hending h.1, h.2⟩
  | stopping => exact hending h
  | waiting => exact ⟨honly h.1, h.2⟩
  | backoff => exact ⟨honly h.1, h.2⟩
  | settled => exact ⟨honly h.1, h.2⟩
  | stopped => exact ⟨honly h.1, h.2⟩
  | done => exact ⟨honly h.1, h.2⟩

theorem Sound.modifyChild (h : s.Sound) {f : Child → Child} (hi : s.child ≠ some i)
    (hended : ∀ child, s.children[i]? = some child →
      (f child).heard = true ∨ (f child).exitEmitted = true → (f child).gone = true)
    (hf : ∀ child, (f child).gone = false → (f child).killed = false →
      child.gone = false ∧ child.killed = false) : (s.modifyChild i f).Sound := by
  obtain ⟨k, hfits, hothers⟩ := h.focused
  exact ⟨h.kept.modifyChild hi hended, ⟨k, hfits.modifyChild hf, hothers⟩, h.generations⟩

/-- Nothing is busy as long as a healthy child is held. -/
theorem Sound.not_busy_of_healthy (h : s.Sound) (hchild : s.child ≠ none)
    (hstatus : s.status = .healthy) (u : ℕ) : ¬ s.Busy (s.threadAt u) := by
  intro hbusy
  have hfits := (h.ready hbusy).2
  cases hbusy with
  | inr hends => exact hchild (hfits.child_of_ends hends)
  | inl hacts =>
    cases hthread : s.threadAt u with
    | tearing => rw [hthread] at hfits; exact hchild hfits.1.1
    | discarding => rw [hthread] at hfits; exact hchild hfits.1.1
    | waiting owner generation child wait =>
      rw [hthread] at hfits hacts
      exact ((if_pos (Option.some.inj hacts)).mp hfits.2).2.1 hstatus
    | backoff generation detail =>
      rw [hthread] at hfits hacts
      exact hchild ((if_pos (Option.some.inj hacts)).mp hfits.2).2.2
    | stopping => rw [hthread] at hacts; cases hacts
    | settled => rw [hthread] at hacts; cases hacts
    | stopped => rw [hthread] at hacts; cases hacts
    | done => rw [hthread] at hacts; cases hacts

/-- A child that is held while the status is not healthy belongs to a wait for its health, which
goes on without it. -/
theorem Fits.dropChild (h : s.Fits a) (hchild : s.child = some i) (hstatus : s.status ≠ .healthy)
    {s' : DaemonSupervisor} (halive : ∀ j, ¬ s'.Alive j) (hnone : s'.child = none)
    (hs' : s'.status = s.status) (hgeneration : s'.generation = s.generation)
    (hunderway : s'.Underway) : s'.Fits a := by
  have hrest : ¬ s.AtRest := by
    rintro (⟨hhealthy, -⟩ | ⟨-, hnone⟩)
    · exact hstatus hhealthy
    · rw [hchild] at hnone
      cases hnone
  have hends : ¬ a.Ends := by
    intro hends
    have hnone := h.child_of_ends hends
    rw [hchild] at hnone
    cases hnone
  cases a with
  | tearing => exact absurd trivial hends
  | discarding => exact absurd trivial hends
  | stopping => exact absurd trivial hends
  | waiting owner generation child wait =>
    refine ⟨fun j hj => absurd hj (halive j), ?_⟩
    rw [hgeneration, hs']
    by_cases heq : generation = s.generation
    · exact (if_pos heq).mpr ⟨hunderway, hstatus, .inl hnone⟩
    · exact absurd ((if_neg heq).mp h.2) hrest
  | backoff generation detail =>
    by_cases heq : generation = s.generation
    · have hnone := ((if_pos heq).mp h.2).2.2
      rw [hchild] at hnone
      cases hnone
    · exact absurd ((if_neg heq).mp h.2) hrest
  | settled => exact absurd h.2 hrest
  | stopped => exact absurd h.2 hrest
  | done => exact absurd h.2 hrest

/-- A restart loop of the present episode, where no thread is busy. -/
theorem Sound.restartLoop_new (h : s.Sound) (hidle : ∀ u, ¬ s.Busy (s.threadAt u))
    {s' : DaemonSupervisor} {detail : String} (hkept : s'.Kept)
    (hthreads : s'.threads = s.threads ++ [.done]) (hgeneration : s'.generation = s.generation)
    (hchild : s'.child = none) (halive : ∀ j, ¬ s'.Alive j) (hunderway : s'.Underway) :
    (s'.restartLoop options s.threads.length s.generation detail).Sound := by
  rw [← hgeneration]
  refine Ready.restartLoop ⟨hkept, by simp [hthreads], fun u _ => ?_, fun u generation hu => ?_⟩
    hchild (fun j hj => absurd hj (halive j)) hunderway
  · rw [threadAt_append hthreads, Busy, hgeneration]
    exact hidle u
  · rw [threadAt_append hthreads] at hu
    rw [hgeneration]
    exact h.generations u generation hu

/-- A child has ended, and this is heard of for the first time. -/
theorem Sound.onChildGone (h : s.Sound) {f : Child → Child} {child : Child} {detail : String}
    (hmem : s.children[i]? = some child) (hgone : ∀ child, (f child).gone = true) :
    ((s.modifyChild i f).onChildGone options i child.generation detail).Sound := by
  have hends : ∀ child, (f child).gone = false → (f child).killed = false →
      child.gone = false ∧ child.killed = false := by
    intro child hfalse
    rw [hgone child] at hfalse
    cases hfalse
  have hheard (s' : DaemonSupervisor) : ∀ child,
      (s'.modifyChild i f).children[i]? = some child → child.gone = true := by
    intro child hchild
    rw [getElem?_modifyChild, if_pos rfl] at hchild
    obtain ⟨old, -, rfl⟩ := Option.map_eq_some_iff.1 hchild
    exact hgone old
  rw [DaemonSupervisor.onChildGone]
  by_cases hheld : s.child = some i
  · obtain ⟨hunderway, child', hmem', hgeneration, -⟩ := h.kept.held i hheld
    rw [hmem] at hmem'
    cases hmem'
    have hchild : s.child ≠ none := hheld ▸ Option.some_ne_none i
    have hnot : (none : Option ℕ) ≠ some i := fun hnone => by cases hnone
    have hlost : Kept { s with child := none, detail := some detail } :=
      kept_of_none rfl h.kept.ended
    have hkept := (hlost.modifyChild (f := f) hnot fun child _ _ => hgone child).modifyChild
      (f := fun child => { child with heard := true }) hnot fun child hmem _ => hheard _ child hmem
    have halive : ∀ j, ¬ ((s.modifyChild i f).modifyChild i
        fun child => { child with heard := true }).Alive j := by
      intro j hj
      have hj' := alive_modifyChild (f := fun child => { child with heard := true })
        (fun child hgone hkilled => ⟨hgone, hkilled⟩) hj
      have hji : j = i := by
        have hheld' := h.onlyHeld (h.not_ends hchild) j (alive_modifyChild hends hj')
        rw [hheld] at hheld'
        exact (Option.some.inj hheld').symm
      subst hji
      exact not_alive_modifyChild (fun child => .inl (hgone child)) hj'
    have hsuperseded : s.superseded child.generation = false := by
      rw [hgeneration]
      exact superseded_eq_false hunderway
    split
    · rename_i hsuperseded'
      exact absurd (hsuperseded'.symm.trans hsuperseded) (by simp)
    · split
      · rename_i hne
        exact absurd hheld hne
      · dsimp only
        split
        · rename_i hstatus
          obtain ⟨k, hfits, hothers⟩ := h.focused
          exact ⟨hkept, ⟨k, hfits.dropChild hheld hstatus halive rfl rfl rfl hunderway, hothers⟩,
            h.generations⟩
        · rename_i hstatus
          have hidle := h.not_busy_of_healthy hchild (Classical.not_not.1 hstatus)
          rw [hgeneration]
          exact h.restartLoop_new hidle ⟨hkept.held, hkept.ended⟩ rfl rfl rfl halive hunderway
  · have hsound := (h.modifyChild hheld (fun child _ _ => hgone child) hends).modifyChild hheld
      (f := fun child => { child with heard := true }) (fun child hchild _ => hheard s child hchild)
      (fun child hgone hkilled => ⟨hgone, hkilled⟩)
    split
    · exact hsound
    · split
      · exact hsound
      · rename_i hnot
        exact absurd hheld hnot

/-- What a child does that was heard of before. -/
theorem Sound.heard (h : s.Sound) {f : Child → Child} {child : Child}
    (hmem : s.children[i]? = some child) (hheard : child.heard = true)
    (hgone : ∀ child, (f child).gone = true) : (s.modifyChild i f).Sound := by
  refine h.modifyChild (fun hheld => ?_) (fun child _ _ => hgone child) fun child hfalse _ => ?_
  · obtain ⟨-, child', hmem', -, -, hnot⟩ := h.kept.held i hheld
    rw [hmem] at hmem'
    cases hmem'
    rw [hheard] at hnot
    cases hnot
  · rw [hgone child] at hfalse
    cases hfalse

theorem Sound.childExits (h : s.Sound) {code : Option ℕ} {signal : Option String} :
    (s.childExits options i code signal).Sound := by
  rw [DaemonSupervisor.childExits]
  split
  · exact h
  · rename_i child hmem
    split
    · exact h
    · split
      · rename_i hheard
        exact h.heard hmem hheard fun _ => rfl
      · exact h.onChildGone hmem fun _ => rfl

theorem Sound.childErrs (h : s.Sound) {message : String} :
    (s.childErrs options i message true).Sound := by
  rw [DaemonSupervisor.childErrs]
  split
  · exact h
  · rename_i child hmem
    split
    · rename_i hheard
      exact h.heard hmem hheard fun _ => Bool.or_true _
    · exact h.onChildGone hmem fun _ => Bool.or_true _

/-! ## Resuming -/

theorem not_busy_of_none (hacts : a.generation? = none) (hends : ¬ a.Ends) : ¬ s.Busy a := by
  rintro (hsome | hends')
  · rw [hacts] at hsome
    cases hsome
  · exact hends hends'

/-- The end of a thread that is not busy. -/
theorem Sound.endThread (h : s.Sound) (ht : t < s.threads.length)
    (hold : ¬ s.Busy (s.threadAt t)) {status : DaemonStatus} :
    (s.endThread t owner status).Sound := by
  cases owner with
  | start => exact h.setThread ht hold (not_busy_of_none rfl id) fun _ hnone => by cases hnone
  | loop detail => exact h.setThread ht hold (not_busy_of_none rfl id) fun _ hnone => by cases hnone

/-- The end of a thread that leaves all at rest. -/
theorem Ready.endThread (h : s.Ready t) (halive : s.OnlyHeld) (hrest : s.AtRest)
    {status : DaemonStatus} : (s.endThread t owner status).Sound := by
  cases owner with
  | start => exact h.sound ⟨halive, hrest⟩ fun _ hnone => by cases hnone
  | loop detail => exact h.sound ⟨halive, hrest⟩ fun _ hnone => by cases hnone

theorem superseded_of_ne (hne : generation ≠ s.generation) : s.superseded generation = true := by
  simp [superseded, hne]

theorem Sound.afterWait (h : s.Sound) {child : ℕ} {healthy : Bool}
    (hthread : s.threadAt t = .waiting owner generation child (.returned healthy))
    (hheld : healthy = true → s.superseded generation = false → s.child = some child) :
    (s.afterWait t owner generation child healthy).Sound := by
  have hlt : t < s.threads.length := lt_of_threadAt fun hdone => by rw [hdone] at hthread; cases hthread
  by_cases heq : generation = s.generation
  · subst heq
    obtain ⟨hready, hfits⟩ := h.ready (t := t) (.inl (by rw [hthread]; rfl))
    rw [hthread] at hfits
    obtain ⟨halive, hcurrent⟩ := hfits
    obtain ⟨hunderway, hstatus, hchild⟩ := (if_pos rfl).mp hcurrent
    rw [DaemonSupervisor.afterWait, superseded_eq_false hunderway]
    simp only [Bool.false_eq_true, if_false]
    cases healthy with
    | true =>
      have hchild := hheld rfl (superseded_eq_false hunderway)
      rw [if_pos rfl]
      refine Ready.endThread (s := setStatus { s with retries := 0, detail := none } .healthy)
        ⟨⟨h.kept.held, h.kept.ended⟩, hready.lt, hready.others, h.generations⟩ halive (.inl ⟨rfl, ?_⟩)
      exact fun hnone => by rw [hchild] at hnone; cases hnone
    | false =>
      have hnone : (if s.child = some child then none else s.child) = none := by
        cases hchild with
        | inl hnone => simp [hnone]
        | inr hsome => simp [hsome]
      refine Ready.sound ⟨kept_of_none hnone h.kept.ended, hready.lt, hready.others, h.generations⟩
        ⟨halive.onlyEnding h.kept hchild hnone rfl, (if_pos rfl).mpr hunderway⟩ ?_
      intro generation hgeneration
      cases hgeneration
      exact Nat.le_refl _
  · rw [DaemonSupervisor.afterWait, superseded_of_ne heq]
    simp only [if_true]
    have hold : ¬ s.Busy (s.threadAt t) := by
      rw [hthread]
      rintro (hacts | hends)
      · exact heq (Option.some.inj hacts)
      · exact hends
    exact h.endThread hlt hold

/-- The next step of ending a child changes nothing but the child. -/
theorem Ready.terminateNext (h : s.Ready t) (hending : s.OnlyEnding i phase) :
    ∃ s' phase', s.terminateNext i phase = (s', phase') ∧ s'.Ready t ∧ s'.OnlyEnding i phase' ∧
      s'.generation = s.generation ∧ (s'.stopping = s.stopping ∧ (s'.Underway ↔ s.Underway)) ∧
      (s'.AtRest ↔ s.AtRest) := by
  obtain ⟨s', phase', heq, hending', hs'⟩ := hending.terminateNext h.kept
  refine ⟨s', phase', heq, ?_, hending', ?_⟩
  · cases hs' with
    | inl hsame => exact hsame ▸ h
    | inr hkill =>
      subst hkill
      refine ⟨h.kept.modifyChild (fun hsome => ?_) fun child hmem hended => ?_, h.lt, h.others,
        h.generations⟩
      · rw [hending.1] at hsome
        cases hsome
      · exact h.kept.ended i child hmem hended
  · cases hs' with
    | inl hsame => rw [hsame]; exact ⟨rfl, ⟨rfl, Iff.rfl⟩, Iff.rfl⟩
    | inr hkill => rw [hkill]; exact ⟨rfl, ⟨rfl, Iff.rfl⟩, Iff.rfl⟩

theorem Sound.resume_tearing (h : s.Sound) {old : ℕ}
    (hthread : s.threadAt t = .tearing generation projectId old phase)
    (hspawn : answer.spawn = .ok ()) (hsocket : ∃ socketPath, answer.socketPath = .ok socketPath) :
    (if phase = .returned then
      if generation ≠ s.generation then s.setThread t (.settled (.ok s.status))
      else s.afterTeardown options t generation projectId answer
    else
      (s.terminateNext old phase).1.setThread t
        (.tearing generation projectId old (s.terminateNext old phase).2)).Sound := by
  obtain ⟨hready, hfits⟩ := h.ready (t := t) (.inr (by rw [hthread]; trivial))
  rw [hthread] at hfits
  obtain ⟨hending, hrest⟩ := hfits
  split
  · rename_i hphase
    have halive := hending.onlyHeld (hphase ▸ by decide)
    split
    · rename_i hne
      exact hready.sound ⟨halive, (if_neg hne).mp hrest⟩ fun _ hnone => by cases hnone
    · rename_i heq
      obtain rfl := Classical.not_not.1 heq
      exact hready.afterTeardown hending.1 halive hspawn hsocket
  · obtain ⟨s', phase', heq, hready', hending', hgeneration, hstopping, hrest'⟩ :=
      hready.terminateNext hending
    rw [heq]
    refine hready'.sound ⟨hending', ?_⟩ fun g hg => ?_
    · rw [hgeneration, hstopping.1, hrest']
      exact hrest
    · rw [hgeneration]
      exact h.generations t g (hthread ▸ hg)

theorem Sound.resume_discarding (h : s.Sound) {child : ℕ}
    (hthread : s.threadAt t = .discarding owner generation child phase) :
    (if phase = .returned then s.afterDiscard options t owner generation
    else
      (s.terminateNext child phase).1.setThread t
        (.discarding owner generation child (s.terminateNext child phase).2)).Sound := by
  obtain ⟨hready, hfits⟩ := h.ready (t := t) (.inr (by rw [hthread]; trivial))
  rw [hthread] at hfits
  obtain ⟨hending, hrest⟩ := hfits
  split
  · rename_i hphase
    have halive := hending.onlyHeld (hphase ▸ by decide)
    by_cases heq : generation = s.generation
    · subst heq
      have hunderway := (if_pos rfl).mp hrest
      rw [DaemonSupervisor.afterDiscard.eq_def, superseded_eq_false hunderway]
      simp only [Bool.false_eq_true, if_false]
      cases owner with
      | loop detail => exact hready.restartLoop hending.1 halive hunderway
      | start =>
        exact Ready.endThread (s := setStatus { s with detail := some (s.detail.getD
            s!"Conductor daemon did not become healthy within {options.healthTimeoutMs}ms.") } .failed)
          ⟨⟨h.kept.held, h.kept.ended⟩, hready.lt, hready.others, h.generations⟩ halive
          (.inr ⟨.inl rfl, hending.1⟩)
    · rw [DaemonSupervisor.afterDiscard.eq_def, superseded_of_ne heq]
      simp only [if_true]
      exact hready.endThread halive ((if_neg heq).mp hrest)
  · obtain ⟨s', phase', heq, hready', hending', hgeneration, hstopping, hrest'⟩ :=
      hready.terminateNext hending
    rw [heq]
    refine hready'.sound ⟨hending', ?_⟩ fun g hg => ?_
    · rw [hgeneration, hstopping.2, hrest']
      exact hrest
    · rw [hgeneration]
      exact h.generations t g (hthread ▸ hg)

theorem Sound.resume_stopping (h : s.Sound) {child : ℕ} {restart : Option ProjectId}
    (hthread : s.threadAt t = .stopping child phase restart) :
    (if phase = .returned then s.markStopped t restart
    else
      (s.terminateNext child phase).1.setThread t
        (.stopping child (s.terminateNext child phase).2 restart)).Sound := by
  obtain ⟨hready, hfits⟩ := h.ready (t := t) (.inr (by rw [hthread]; trivial))
  rw [hthread] at hfits
  split
  · rename_i hphase
    exact hready.markStopped hfits.1 (hfits.onlyHeld (hphase ▸ by decide))
  · obtain ⟨s', phase', heq, hready', hending', -, -, -⟩ := hready.terminateNext hfits
    rw [heq]
    exact hready'.sound hending' fun _ hnone => by cases hnone

theorem Sound.resume_backoff (h : s.Sound) {detail : String}
    (hthread : s.threadAt t = .backoff generation detail) (hspawn : answer.spawn = .ok ()) :
    (if s.superseded generation then s.setThread t .done
    else s.spawnAndWait options t (.loop detail) generation answer fun _ => .done).Sound := by
  by_cases heq : generation = s.generation
  · subst heq
    obtain ⟨hready, hfits⟩ := h.ready (t := t) (.inl (by rw [hthread]; rfl))
    rw [hthread] at hfits
    obtain ⟨hunderway, hstatus, hchild⟩ := (if_pos rfl).mp hfits.2
    rw [superseded_eq_false hunderway]
    simp only [Bool.false_eq_true, if_false]
    exact hready.spawnAndWait hchild hfits.1 hunderway hstatus hspawn
  · rw [superseded_of_ne heq]
    simp only [if_true]
    refine h.setThread (lt_of_threadAt fun hdone => ?_) ?_ (not_busy_of_none rfl id)
      fun _ hnone => by cases hnone
    · rw [hdone] at hthread
      cases hthread
    · rw [hthread]
      rintro (hacts | hends)
      · exact heq (Option.some.inj hacts)
      · exact hends

/-- A thread goes on waiting for the health of its child, or comes to know of it. -/
theorem Sound.resume_waiting (h : s.Sound) {child : ℕ} {wait : Wait} (wait' : Wait)
    (hthread : s.threadAt t = .waiting owner generation child wait) (hlt : t < s.threads.length) :
    (s.setThread t (.waiting owner generation child wait')).Sound := by
  have hle : ∀ g, (Thread.waiting owner generation child wait').generation? = some g →
      g ≤ s.generation := by
    intro g hg
    exact h.generations t g (hthread ▸ hg)
  by_cases heq : generation = s.generation
  · obtain ⟨hready, hfits⟩ := h.ready (t := t) (.inl (by rw [hthread, heq]; rfl))
    rw [hthread] at hfits
    exact hready.sound hfits hle
  · have hnot : ∀ wait, ¬ s.Busy (.waiting owner generation child wait) := by
      rintro wait (hacts | hends)
      · exact heq (Option.some.inj hacts)
      · exact hends
    exact h.setThread hlt (hthread ▸ hnot wait) (hnot wait') hle

theorem Sound.resume (h : s.Sound) (horderly : Orderly (.resume t answer) s) :
    (s.resume options t answer).Sound := by
  obtain ⟨hspawn, hsocket⟩ := horderly.seams answer rfl
  have hat {a : Thread} (hthread : s.threads[t]? = some a) :
      s.threadAt t = a ∧ t < s.threads.length :=
    ⟨by rw [threadAt, hthread]; rfl, (List.getElem?_eq_some_iff.1 hthread).1⟩
  rw [DaemonSupervisor.resume.eq_def]
  split
  · exact h
  · exact h
  · rename_i hthread
    exact h.resume_tearing (hat hthread).1 hspawn hsocket
  · rename_i owner generation child wait hthread
    obtain ⟨hthread, hlt⟩ := hat hthread
    split
    · rename_i healthy
      refine h.afterWait hthread fun hhealthy hsuperseded => ?_
      subst hhealthy
      exact horderly.healthyHeld t answer owner generation child rfl hthread hsuperseded
    · exact h.resume_waiting _ hthread hlt
  · rename_i hthread
    exact h.resume_discarding (hat hthread).1
  · rename_i hthread
    exact h.resume_backoff (hat hthread).1 hspawn
  · rename_i result hthread
    obtain ⟨hthread, hlt⟩ := hat hthread
    refine (h.setStarting _).setThread hlt ?_ (not_busy_of_none rfl id) fun _ hnone => by cases hnone
    exact not_busy_of_none (congrArg Thread.generation? hthread) (hthread ▸ id)
  · rename_i hthread
    exact h.resume_stopping (hat hthread).1
  · rename_i hthread
    obtain ⟨hthread, hlt⟩ := hat hthread
    refine h.setThread hlt ?_ (not_busy_of_none rfl id) fun _ hnone => by cases hnone
    exact not_busy_of_none (congrArg Thread.generation? hthread) (hthread ▸ id)
  · rename_i projectId hthread
    obtain ⟨hthread, hlt⟩ := hat hthread
    have hdone : (s.setThread t .done).Sound := by
      refine h.setThread hlt ?_ (not_busy_of_none rfl id) fun _ hnone => by cases hnone
      exact not_busy_of_none (congrArg Thread.generation? hthread) (hthread ▸ id)
    refine hdone.start (fun hbegins u => ?_) hspawn hsocket
    rw [threadAt_setThread hlt]
    split
    · exact id
    · exact horderly.startsAlone projectId hbegins (.inr ⟨t, answer, rfl, hthread⟩) u

theorem Sound.step {event : SupervisorEvent} (h : s.Sound) (horderly : Orderly event s) :
    (DaemonSupervisor.step options event s).Sound := by
  cases event with
  | start projectId answer =>
    obtain ⟨hspawn, hsocket⟩ := horderly.seams answer rfl
    exact h.start (fun hbegins => horderly.startsAlone projectId hbegins (.inl ⟨answer, rfl⟩))
      hspawn hsocket
  | stop => exact h.stop
  | restart projectId => exact h.stop
  | exit i code signal => exact h.childExits
  | error i message gone =>
    obtain rfl := horderly.errors i message gone rfl
    exact h.childErrs
  | resume t answer => exact h.resume horderly

theorem sound_initial : initial.Sound := by
  refine ⟨⟨fun i hi => ?_, fun i child hi => ?_⟩, ⟨0, ⟨fun i hi => ?_, .inr ⟨.inr rfl, rfl⟩⟩,
    fun u _ => not_busy_of_none rfl id⟩, fun t generation ht => ?_⟩
  · cases hi
  · cases hi
  · obtain ⟨child, hchild, -⟩ := hi
    cases hchild
  · cases ht

/-! ## After the last stop -/

/-- No thread acts for the present episode or waits to start another, and the status is `stopped`
unless a stop is about to set it. -/
structure Ended (s : DaemonSupervisor) (spawned : ℕ) : Prop where
  spawned : s.children.length = spawned
  child : s.child = none
  superseded : ∀ t generation, (s.threadAt t).generation? = some generation →
    generation ≠ s.generation
  restarts : ∀ t, (s.threadAt t).restart? = none
  status : s.status = .stopped ∨ ∃ t, (s.threadAt t).Stops

theorem Sound.ended (h : s.Sound) (hrestarts : ∀ u, (s.threadAt u).restart? = none) :
    (s.stop none).Ended s.children.length := by
  have hthreads (s' : DaemonSupervisor) (a : Thread) (hs' : s'.threads = s.threads ++ [.done])
      (u : ℕ) : (s'.setThread s.threads.length a).threadAt u =
        if u = s.threads.length then a else s.threadAt u := by
    rw [threadAt_setThread (by simp [hs']), threadAt_append hs']
  have hne {u generation : ℕ} (hu : (s.threadAt u).generation? = some generation) :
      generation ≠ s.generation + 1 := by
    have hle := h.generations u generation hu
    omega
  rw [DaemonSupervisor.stop]
  split
  · refine ⟨rfl, rfl, fun t generation ht => ?_, fun t => ?_, .inl rfl⟩
    · rw [markStopped, hthreads _ _ rfl] at ht
      split at ht
      · cases ht
      · exact hne ht
    · rw [markStopped, hthreads _ _ rfl]
      split
      · rfl
      · exact hrestarts t
  · refine ⟨rfl, rfl, fun t generation ht => ?_, fun t => ?_, .inr ⟨s.threads.length, ?_⟩⟩
    · rw [hthreads _ _ rfl] at ht
      split at ht
      · cases ht
      · exact hne ht
    · rw [hthreads _ _ rfl]
      split
      · rfl
      · exact hrestarts t
    · rw [hthreads _ _ rfl, if_pos rfl]
      trivial

variable {n : ℕ}

theorem Ended.modifyChild (h : s.Ended n) {f : Child → Child} : (s.modifyChild i f).Ended n :=
  ⟨(List.length_modify ..).trans h.spawned, h.child, h.superseded, h.restarts, h.status⟩

theorem Ended.onChildGone (h : s.Ended n) {detail : String} :
    (s.onChildGone options i generation detail).Ended n := by
  rw [DaemonSupervisor.onChildGone]
  split
  · exact h.modifyChild
  · split
    · exact h.modifyChild
    · rename_i hsome
      have hnone := h.child.symm.trans (Classical.not_not.1 hsome)
      cases hnone

/-- What one thread does when all that it changes besides is a child, or the status to `stopped`. -/
theorem Ended.setThread (h : s.Ended n) (ht : t < s.threads.length)
    (hacts : a.generation? = none ∨ a.generation? = (s.threadAt t).generation?)
    (hrestart : a.restart? = none) (hstops : s.status = .stopped ∨ ((s.threadAt t).Stops → a.Stops)) :
    (s.setThread t a).Ended n := by
  refine ⟨h.spawned, h.child, fun u generation hu => ?_, fun u => ?_, ?_⟩
  · rw [threadAt_setThread ht] at hu
    split at hu
    · cases hacts with
      | inl hnone => rw [hnone] at hu; cases hu
      | inr hsame => exact h.superseded t generation (hsame ▸ hu)
    · exact h.superseded u generation hu
  · rw [threadAt_setThread ht]
    split
    · exact hrestart
    · exact h.restarts u
  · cases h.status with
    | inl hstopped => exact .inl hstopped
    | inr hpending =>
      cases hstops with
      | inl hstopped => exact .inl hstopped
      | inr hstops =>
        obtain ⟨u, hu⟩ := hpending
        refine .inr ⟨u, ?_⟩
        rw [threadAt_setThread ht]
        split
        · rename_i heq
          exact hstops (heq ▸ hu)
        · exact hu

theorem Ended.terminateNext (h : s.Ended n) : (s.terminateNext i phase).1.Ended n ∧
    (s.terminateNext i phase).1.threads = s.threads := by
  rw [DaemonSupervisor.terminateNext.eq_def]
  cases phase with
  | returned => exact ⟨h, rfl⟩
  | grace =>
    dsimp only
    split
    · exact ⟨h, rfl⟩
    · exact ⟨h.modifyChild, rfl⟩
  | killed =>
    dsimp only
    split
    · exact ⟨h, rfl⟩
    · exact ⟨h.modifyChild, rfl⟩

/-- A thread takes the next step of ending its child. -/
theorem Ended.advance (h : s.Ended n) (ht : t < s.threads.length) {f : Phase → Thread}
    (hthread : s.threadAt t = f phase)
    (hacts : ∀ phase', (f phase').generation? = (f phase).generation?)
    (hrestart : ∀ phase', (f phase').restart? = none)
    (hstops : ∀ phase', (f phase).Stops → (f phase').Stops) :
    ((s.terminateNext i phase).1.setThread t (f (s.terminateNext i phase).2)).Ended n := by
  obtain ⟨hnext, hthreads⟩ := @Ended.terminateNext s i phase n h
  have hsame : (s.terminateNext i phase).1.threadAt t = f phase := by
    rw [threadAt, hthreads, ← threadAt, hthread]
  refine hnext.setThread (hthreads ▸ ht) (.inr ?_) (hrestart _) (.inr ?_)
  · rw [hsame, hacts]
  · rw [hsame]
    exact hstops _

theorem Ended.endThread (h : s.Ended n) (ht : t < s.threads.length) (hstops : ¬ (s.threadAt t).Stops)
    {status : DaemonStatus} : (s.endThread t owner status).Ended n := by
  cases owner with
  | start => exact h.setThread ht (.inl rfl) rfl (.inr fun hs => absurd hs hstops)
  | loop detail => exact h.setThread ht (.inl rfl) rfl (.inr fun hs => absurd hs hstops)

theorem Ended.resume (h : s.Ended n) : (s.resume options t answer).Ended n := by
  have hat {a : Thread} (hthread : s.threads[t]? = some a) :
      s.threadAt t = a ∧ t < s.threads.length :=
    ⟨by rw [threadAt, hthread]; rfl, (List.getElem?_eq_some_iff.1 hthread).1⟩
  have hold {generation : ℕ} (hacts : (s.threadAt t).generation? = some generation) :
      s.superseded generation = true := superseded_of_ne (h.superseded t generation hacts)
  rw [DaemonSupervisor.resume.eq_def]
  split
  · exact h
  · exact h
  · rename_i generation projectId old phase hthread
    obtain ⟨hthread, hlt⟩ := hat hthread
    have hne := h.superseded t generation (congrArg Thread.generation? hthread)
    split
    · exact h.setThread hlt (.inl rfl) rfl (.inr (hthread ▸ id))
    · exact h.advance hlt (f := .tearing generation projectId old) hthread (fun _ => rfl)
        (fun _ => rfl) fun _ => id
  · rename_i owner generation child wait hthread
    obtain ⟨hthread, hlt⟩ := hat hthread
    have hsuperseded := hold (congrArg Thread.generation? hthread)
    split
    · rw [DaemonSupervisor.afterWait, hsuperseded, if_pos rfl]
      exact h.endThread hlt (hthread ▸ id)
    · exact h.setThread hlt (.inr (by rw [hthread]; rfl)) rfl (.inr (hthread ▸ id))
  · rename_i owner generation child phase hthread
    obtain ⟨hthread, hlt⟩ := hat hthread
    have hsuperseded := hold (congrArg Thread.generation? hthread)
    split
    · rw [DaemonSupervisor.afterDiscard.eq_def, hsuperseded, if_pos rfl]
      exact h.endThread hlt (hthread ▸ id)
    · exact h.advance hlt (f := .discarding owner generation child) hthread (fun _ => rfl)
        (fun _ => rfl) fun _ => id
  · rename_i generation detail hthread
    obtain ⟨hthread, hlt⟩ := hat hthread
    rw [hold (congrArg Thread.generation? hthread), if_pos rfl]
    exact h.setThread hlt (.inl rfl) rfl (.inr (hthread ▸ id))
  · rename_i result hthread
    obtain ⟨hthread, hlt⟩ := hat hthread
    refine Ended.setThread ⟨h.spawned, h.child, h.superseded, h.restarts, h.status⟩ hlt (.inl rfl) rfl
      (.inr fun hstops => ?_)
    change (s.threadAt t).Stops at hstops
    rw [hthread] at hstops
    exact absurd hstops id
  · rename_i child phase restart hthread
    obtain ⟨hthread, hlt⟩ := hat hthread
    have hrestart : restart = none := by
      have hnone := h.restarts t
      rw [hthread] at hnone
      exact hnone
    split
    · rw [markStopped]
      exact Ended.setThread ⟨h.spawned, h.child, h.superseded, h.restarts, .inl rfl⟩ hlt (.inl rfl)
        hrestart (.inl rfl)
    · exact h.advance hlt (f := fun phase => .stopping child phase restart) hthread (fun _ => rfl)
        (fun _ => hrestart) fun _ => id
  · rename_i hthread
    obtain ⟨hthread, hlt⟩ := hat hthread
    exact h.setThread hlt (.inl rfl) rfl (.inr (hthread ▸ id))
  · rename_i projectId hthread
    have hnone := h.restarts t
    rw [(hat hthread).1] at hnone
    cases hnone

theorem Ended.step {event : SupervisorEvent} (h : s.Ended n) (hevent : ¬ event.IsCall) :
    (DaemonSupervisor.step options event s).Ended n := by
  cases event with
  | start => exact absurd trivial hevent
  | stop => exact absurd trivial hevent
  | restart => exact absurd trivial hevent
  | resume t answer => exact h.resume
  | exit i code signal =>
    change (s.childExits options i code signal).Ended n
    rw [DaemonSupervisor.childExits]
    split
    · exact h
    · split
      · exact h
      · split
        · exact h.modifyChild
        · exact h.modifyChild.onChildGone
  | error i message gone =>
    change (s.childErrs options i message gone).Ended n
    rw [DaemonSupervisor.childErrs]
    split
    · exact h
    · split
      · exact h.modifyChild
      · exact h.modifyChild.onChildGone

/-! ## What the invariant says -/

theorem Fits.oneAlive (h : s.Fits a) {j : ℕ} (hi : s.Alive i) (hj : s.Alive j) : i = j := by
  have hheld (honly : s.OnlyHeld) : i = j := Option.some.inj ((honly i hi).symm.trans (honly j hj))
  have hending {k : ℕ} {phase : Phase} (honly : s.OnlyEnding k phase) : i = j :=
    (honly.2 i hi).1.trans (honly.2 j hj).1.symm
  cases a with
  | tearing => exact hending h.1
  | discarding => exact hending h.1
  | stopping => exact hending h
  | waiting => exact hheld h.1
  | backoff => exact hheld h.1
  | settled => exact hheld h.1
  | stopped => exact hheld h.1
  | done => exact hheld h.1

theorem Sound.atRest (h : s.Sound) (hquiet : s.Quiet) : s.AtRest := by
  obtain ⟨k, hfits, -⟩ := h.focused
  rw [hquiet k] at hfits
  exact hfits.2

theorem Sound.healthy_iff (h : s.Sound) (hquiet : s.Quiet) : s.status = .healthy ↔ s.HoldsChild := by
  constructor
  · intro hhealthy
    cases h.atRest hquiet with
    | inl hheld =>
      obtain ⟨i, hi⟩ := Option.ne_none_iff_exists'.1 hheld.2
      obtain ⟨-, child, hmem, -, hgone, -⟩ := h.kept.held i hi
      exact ⟨i, child, hi, hmem, hgone⟩
    | inr hnone =>
      rw [hhealthy] at hnone
      exact absurd hnone.1 (by decide)
  · rintro ⟨i, child, hi, -⟩
    cases h.atRest hquiet with
    | inl hheld => exact hheld.1
    | inr hnone =>
      rw [hi] at hnone
      exact absurd hnone.2 (Option.some_ne_none i)

end DaemonSupervisor

/-- The supervisor is truthful in every run whose calls and children come in order. -/
theorem supervisor_truthful {options : DaemonSupervisorOptions} {events : List SupervisorEvent}
    (horderly : Run.Guarded (DaemonSupervisor.step options) Orderly events .initial) :
    Truthful options events (Run.after (DaemonSupervisor.step options) events .initial) := by
  have hrun {events : List SupervisorEvent}
      (horderly : Run.Guarded (DaemonSupervisor.step options) Orderly events .initial) :
      (Run.after (DaemonSupervisor.step options) events .initial).Sound :=
    Run.invariant DaemonSupervisor.Sound (fun _ _ horderly h => h.step horderly) horderly
      DaemonSupervisor.sound_initial
  have hsound := hrun horderly
  refine ⟨fun i j hi hj => ?_, hsound.healthy_iff, fun hquiet hne => ?_,
    fun earlier later heq hlater => ?_⟩
  · obtain ⟨k, hfits, -⟩ := hsound.focused
    exact hfits.oneAlive hi hj
  · cases hsound.atRest hquiet with
    | inl hhealthy => exact absurd hhealthy.1 hne
    | inr hfinal => exact hfinal.1
  · rw [heq, Run.guarded_append] at horderly
    obtain ⟨hearlier, hstop, -⟩ := horderly
    have hended : (Run.after (DaemonSupervisor.step options) events .initial).Ended
        (Run.after (DaemonSupervisor.step options) earlier .initial).children.length := by
      rw [heq, Run.after_append, Run.after_cons]
      exact Run.invariant (DaemonSupervisor.Ended · _) (fun _ _ hcall h => h.step hcall)
        (Run.guarded_of_forall hlater) ((hrun hearlier).ended (hstop.stopsLast rfl))
    refine ⟨hended.spawned, fun hquiet => ?_⟩
    cases hended.status with
    | inl hstopped => exact hstopped
    | inr hpending =>
      obtain ⟨t, ht⟩ := hpending
      rw [hquiet t] at ht
      exact absurd ht id

/-- Nothing throws, and the daemon is found healthy. -/
def allWell : SeamAnswer := ⟨.ok "/run/co.sock", .ok (), .ok true⟩

/-- A start up to its end. -/
def startUp : List SupervisorEvent :=
  [.start "a" allWell, .resume 0 allWell, .resume 0 allWell, .resume 0 allWell]

theorem supervisor_truthful_of_startUp :
    Truthful {} startUp (Run.after (DaemonSupervisor.step {}) startUp .initial) := by
  have hseams : ∀ answer, some allWell = some answer →
      answer.spawn = .ok () ∧ ∃ socketPath, answer.socketPath = .ok socketPath := by
    intro answer heq
    cases heq
    exact ⟨rfl, _, rfl⟩
  have hstart : Orderly (.start "a" allWell) .initial :=
    ⟨fun _ _ _ _ => id, fun heq => (by cases heq), fun _ _ _ _ _ heq => (by cases heq), hseams,
      fun _ _ _ heq => (by cases heq)⟩
  have hresume (s : DaemonSupervisor) (hrestart : (s.threadAt 0).restart? = none)
      (hheld : ∀ owner generation child, s.threadAt 0 = .waiting owner generation child
        (.returned true) → s.child = some child) : Orderly (.resume 0 allWell) s := by
    refine ⟨fun projectId _ hstart => ?_, fun heq => (by cases heq), ?_, hseams,
      fun _ _ _ heq => (by cases heq)⟩
    · obtain ⟨answer, heq⟩ | ⟨t, answer, heq, hthread⟩ := hstart
      · cases heq
      · cases heq
        rw [hthread] at hrestart
        cases hrestart
    · intro t answer owner generation child heq hthread _
      cases heq
      exact hheld owner generation child hthread
  refine supervisor_truthful ⟨hstart, hresume _ rfl ?_, hresume _ rfl ?_, hresume _ rfl ?_, trivial⟩
  · intro owner generation child hthread
    cases hthread
  · intro owner generation child hthread
    cases hthread
    rfl
  · intro owner generation child hthread
    cases hthread

/-- The child exits while the probe is pending that then finds the daemon healthy. -/
def exitDuringProbe : List SupervisorEvent :=
  [.start "a" allWell, .exit 0 (some 1) none, .resume 0 allWell, .resume 0 allWell,
    .resume 0 allWell]

/-- A start while a stop still waits for the old child. -/
def startDuringStop : List SupervisorEvent := startUp ++ [.stop, .start "a" allWell]

/-- A stop while a restart still waits for the old child, which then exits. -/
def stopDuringRestart : List SupervisorEvent :=
  startUp ++ [.restart "a", .stop, .exit 0 none (some "SIGTERM"), .resume 1 allWell,
    .resume 1 allWell, .resume 1 allWell]

/-- A dead daemon shown as healthy, two daemons at once, and a daemon started after the stop. -/
theorem supervisor_lies :
    ¬ Truthful {} exitDuringProbe (Run.after (DaemonSupervisor.step {}) exitDuringProbe .initial) ∧
    ¬ Truthful {} startDuringStop (Run.after (DaemonSupervisor.step {}) startDuringStop .initial) ∧
    ¬ Truthful {} stopDuringRestart
      (Run.after (DaemonSupervisor.step {}) stopDuringRestart .initial) := by
  refine ⟨fun h => ?_, fun h => ?_, fun h => ?_⟩
  · have hquiet : (Run.after (DaemonSupervisor.step {}) exitDuringProbe .initial).Quiet := by
      intro t
      cases t with
      | zero => rfl
      | succ t => rfl
    obtain ⟨i, child, hi, -⟩ := (h.healthy hquiet).1 rfl
    cases hi
  · exact absurd (h.oneAlive 0 1 ⟨_, rfl, rfl, rfl⟩ ⟨_, rfl, rfl, rfl⟩) (by decide)
  · have hspawned := (h.stops (startUp ++ [.restart "a"]) [.exit 0 none (some "SIGTERM"),
      .resume 1 allWell, .resume 1 allWell, .resume 1 allWell] rfl (by simp [SupervisorEvent.IsCall])).1
    exact absurd hspawned (by decide)

end Orchestration.Desktop
