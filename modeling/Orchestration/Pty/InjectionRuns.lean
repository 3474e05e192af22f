import Orchestration.Pty.DialogRuns
import Orchestration.Pty.MailInjector

/-!
# The runs of an injection

A pane may write back at any time, also while it is written to, and a write may fail. Enter is
pressed once at most, and not before the composer has shown what was written to it.
-/

namespace Orchestration.Pty

open Dispatch (Provider)
open Js (isStrWhiteSpace trim)

/-! ## What counts as an echo -/

/-- The provider shows a preview in the place of a paste. -/
def previews (options : InjectMailOptions) (text normalizedEcho : Text) : Bool :=
  let lowered := toLowerCase normalizedEcho
  (usePaste text && options.provider = some .claude &&
      includes lowered "pasted text #".toList &&
      includes lowered "paste again to expand".toList) ||
    (hasNewline text && options.provider = some .codex &&
      CODEX_COLLAPSED_PASTE_NEEDLES.all (includes lowered))

/-- Output that shows the text, or the preview in its place. -/
def shows (options : InjectMailOptions) (text output : Text) : Bool :=
  let normalizedEcho := normalizeStartupOutput output
  includes normalizedEcho (normalizeStartupOutput text) || previews options text normalizedEcho

theorem Injection.echoed_eq (injection : Injection) :
    injection.echoed = shows injection.options injection.text injection.echoBuffer := by
  rw [shows, previews, ← Bool.or_assoc]
  rfl

/-! ## Runs -/

/-- Where an injection stands between two events. -/
inductive Phase where
  /-- The pane is being written to, and has not returned. -/
  | writing (injection : Injection)
  /-- The echo and the retry delay race. -/
  | racing (injection : Injection)
  | submitted
  | refused (error : String)

/-- What a pane and the clock do to an injection. A write to the pane that comes next may fail. -/
inductive PaneEvent where
  | chunk (chunk : Text)
  | returned (fault : Option String)
  | delay
  | delayFails (error : String)
  | resume (fault : Option String)
deriving DecidableEq, Repr

/-- What passes between an injection and its pane. -/
inductive Traffic where
  | output (chunk : Text)
  | wrote (write : Write)
deriving DecidableEq, Repr

namespace Injection

variable (injection : Injection)

/-- `pane.write(SUBMIT)`. -/
def enter (fault : Option String) : List Traffic × Phase :=
  match fault with
  | none => ([.wrote .submit], .submitted)
  | some error => ([], .refused error)

/-- A round of the loop up to its write, or what follows the last round. -/
def openRound (fault : Option String) : List Traffic × Phase :=
  if injection.attempt < injection.options.maxEchoAttempts then
    let retry := decide (0 < injection.attempt)
    let injection := if retry then { injection with echoBuffer := [] } else injection
    match fault with
    | none => ([.wrote (.payload retry injection.text)], .writing injection)
    | some error => ([], .refused error)
  else if injection.options.allowUnverifiedSubmit then enter fault
  else ([], .refused (s!"injectMail: composer did not echo the typed text after " ++
    s!"{injection.options.maxEchoAttempts} attempt(s); refusing to blind-fire Enter"))

/-- The write of a round has returned. -/
def afterWrite (fault : Option String) : List Traffic × Phase :=
  if injection.echoed then enter fault else ([], .racing injection.race)

/-- The injection goes on once its race is decided. -/
def afterRace (fault : Option String) : List Traffic × Phase :=
  match injection.outcome with
  | none => ([], .racing injection)
  | some outcome =>
    let injection := { injection with armed := false, outcome := none }
    if outcome = .echo || injection.echoed then enter fault
    else if usePaste injection.text then
      if injection.options.allowUnverifiedSubmit then enter fault
      else ([], .refused ("injectMail: paste composer did not echo before the retry window; " ++
        "refusing an uncertain paste retry"))
    else { injection with attempt := injection.attempt + 1 }.openRound fault

/-- A chunk of output, and the answers to dialogs that it leads to. -/
def receive (chunk : Text) : List Traffic × Injection :=
  (.output chunk :: (injection.onData chunk).2.map .wrote, (injection.onData chunk).1)

end Injection

def Phase.step : Phase → PaneEvent → List Traffic × Phase
  | .writing injection, .chunk chunk =>
    ((injection.receive chunk).1, .writing (injection.receive chunk).2)
  | .writing injection, .returned fault => injection.afterWrite fault
  | .racing injection, .chunk chunk =>
    ((injection.receive chunk).1, .racing (injection.receive chunk).2)
  | .racing injection, .delay => ([], .racing injection.onDelay)
  | .racing injection, .delayFails error =>
    ([], if injection.outcome.isNone then .refused error else .racing injection)
  | .racing injection, .resume fault => injection.afterRace fault
  | phase, _ => ([], phase)

/-- `injectMail` up to its first write. -/
def openInjection (options : InjectMailOptions) (handoff : Option CodexHandoff) (text : Text)
    (fault : Option String) : List Traffic × Phase :=
  match composerText options handoff text with
  | .error error => ([], .refused error)
  | .ok text =>
    Injection.openRound
      { options, text, attempt := 0, echoBuffer := [], armed := false, outcome := none,
        dialogs := watchDialogs options.provider } fault

/-- The traffic so far and the phase, after one more event. -/
def advance (run : List Traffic × Phase) (event : PaneEvent) : List Traffic × Phase :=
  (run.1 ++ (run.2.step event).1, (run.2.step event).2)

def injectRun (options : InjectMailOptions) (handoff : Option CodexHandoff) (text : Text)
    (fault : Option String) (events : List PaneEvent) : List Traffic × Phase :=
  events.foldl advance (openInjection options handoff text fault)

/-! ### A pane that is silent while it is written to -/

def Progress.phase : Progress → Phase
  | .racing injection => .racing injection
  | .submitted => .submitted
  | .refused error => .refused error

namespace Injection

variable (injection : Injection)

theorem openRound_silent :
    advance (injection.openRound none) (.returned none) =
      (injection.round.1.map .wrote, injection.round.2.phase) := by
  rw [openRound, round]
  split
  · dsimp only
    generalize (if decide (0 < injection.attempt) = true then
      { injection with echoBuffer := [] } else injection) = written
    cases hechoed : written.echoed with
    | true => simp [advance, Phase.step, afterWrite, enter, hechoed, Progress.phase]
    | false => simp [advance, Phase.step, afterWrite, hechoed, Progress.phase]
  · split
    · rfl
    · rfl

theorem afterRace_silent :
    advance (injection.afterRace none) (.returned none) =
      (injection.resume.1.map .wrote, injection.resume.2.phase) := by
  rw [afterRace, resume]
  cases injection.outcome with
  | none => rfl
  | some outcome =>
    dsimp only
    split
    · rfl
    · split
      · split
        · rfl
        · rfl
      · exact openRound_silent _

end Injection

/-! ## What a run keeps -/

/-- The output since the latest payload, chunk by chunk. -/
def received (traffic : List Traffic) : List Text :=
  traffic.foldl
    (fun chunks item => match item with
      | .output chunk => chunks ++ [chunk]
      | .wrote (.payload _ _) => []
      | .wrote _ => chunks) []

/-- By some moment since the latest payload, the end of the output that fits the echo buffer
showed the text. -/
def Echoed (options : InjectMailOptions) (text : Text) (traffic : List Traffic) : Prop :=
  ∃ earlier, earlier <+: received traffic ∧
    shows options text (sliceLast MAX_ECHO_BUFFER_CHARS earlier.flatten) = true

def isSubmit : Traffic → Bool
  | .wrote .submit => true
  | _ => false

/-- A payload that is a bracketed paste. -/
def isPaste : Traffic → Bool
  | .wrote (.payload _ text) => usePaste text
  | _ => false

/-- The injection of `text` has begun and Enter is not pressed. -/
structure Typing (options : InjectMailOptions) (text : Text) (traffic : List Traffic)
    (injection : Injection) : Prop where
  options_eq : injection.options = options
  text_eq : injection.text = text
  echoBuffer_eq :
    injection.echoBuffer = sliceLast MAX_ECHO_BUFFER_CHARS (received traffic).flatten
  noSubmit : traffic.countP isSubmit = 0
  onePaste : traffic.countP isPaste ≤ 1
  /-- A race that the echo has won was won by an echo. -/
  outcome : injection.outcome = some .echo → Echoed options text traffic

/-- What holds of the traffic of an injection of `text` in each phase. -/
def Careful (options : InjectMailOptions) (text : Text) (run : List Traffic × Phase) : Prop :=
  match run.2 with
  | .writing injection => Typing options text run.1 injection
  | .racing injection => Typing options text run.1 injection
  | .submitted => ∃ before, run.1 = before ++ [.wrote .submit] ∧ before.countP isSubmit = 0 ∧
      before.countP isPaste ≤ 1 ∧
      (options.allowUnverifiedSubmit = false → Echoed options text before)
  | .refused _ => run.1.countP isSubmit = 0 ∧ run.1.countP isPaste ≤ 1

section

variable {options : InjectMailOptions} {text : Text} {traffic : List Traffic}
variable {injection : Injection}

theorem received_answers (traffic : List Traffic) (answers : List Write)
    (h : ∀ write ∈ answers, ∃ bytes, write = .answer bytes) :
    received (traffic ++ answers.map .wrote) = received traffic := by
  induction answers generalizing traffic with
  | nil => rw [List.map_nil, List.append_nil]
  | cons write answers ih =>
    rw [List.forall_mem_cons] at h
    obtain ⟨⟨bytes, rfl⟩, h⟩ := h
    rw [List.map_cons, ← List.singleton_append, ← List.append_assoc, ih _ h, received,
      List.foldl_append]
    rfl

theorem received_output (traffic : List Traffic) (chunk : Text) :
    received (traffic ++ [.output chunk]) = received traffic ++ [chunk] := by
  rw [received, List.foldl_append]
  rfl

theorem received_payload (traffic : List Traffic) (retry : Bool) (text : Text) :
    received (traffic ++ [.wrote (.payload retry text)]) = [] := by
  rw [received, List.foldl_append]
  rfl

theorem received_receive (traffic : List Traffic) (injection : Injection) (chunk : Text) :
    received (traffic ++ (injection.receive chunk).1) = received traffic ++ [chunk] := by
  rw [Injection.receive, ← List.singleton_append, ← List.append_assoc,
    received_answers _ _ fun write hwrite => injection.onData_writes hwrite, received_output]

theorem countP_answers (p : Traffic → Bool) (hp : ∀ bytes, p (.wrote (.answer bytes)) = false)
    {answers : List Write} (h : ∀ write ∈ answers, ∃ bytes, write = .answer bytes) :
    (answers.map Traffic.wrote).countP p = 0 := by
  rw [List.countP_eq_zero]
  intro item hitem
  obtain ⟨write, hwrite, rfl⟩ := List.mem_map.1 hitem
  obtain ⟨bytes, rfl⟩ := h write hwrite
  simp [hp bytes]

/-- An echo is not taken back by what comes after it. -/
theorem Echoed.grow {more : List Traffic} (h : Echoed options text traffic)
    (hmore : received traffic <+: received (traffic ++ more)) :
    Echoed options text (traffic ++ more) := by
  obtain ⟨earlier, hearlier, hshows⟩ := h
  exact ⟨earlier, hearlier.trans hmore, hshows⟩

/-- The echo buffer of an injection shows what it shows now. -/
theorem Typing.echoed (h : Typing options text traffic injection)
    (hshows : injection.echoed = true) : Echoed options text traffic := by
  refine ⟨received traffic, List.prefix_refl _, ?_⟩
  rw [← h.echoBuffer_eq, ← h.options_eq, ← h.text_eq, ← Injection.echoed_eq]
  exact hshows

/-- A chunk goes into the echo buffer, and a race is won only by what the buffer then shows. -/
theorem Injection.onData_spec (injection : Injection) (chunk : Text) :
    (injection.onData chunk).1.options = injection.options ∧
      (injection.onData chunk).1.text = injection.text ∧
      (injection.onData chunk).1.echoBuffer =
        sliceLast MAX_ECHO_BUFFER_CHARS (injection.echoBuffer ++ chunk) ∧
      ((injection.onData chunk).1.outcome = injection.outcome ∨
        (injection.onData chunk).1.echoed = true) := by
  rw [Injection.onData]
  dsimp only
  split
  · next hechoed =>
    rw [Bool.and_eq_true] at hechoed
    refine ⟨rfl, rfl, rfl, .inr ?_⟩
    rw [Injection.echoed_eq] at hechoed ⊢
    exact hechoed.2
  · exact ⟨rfl, rfl, rfl, .inl rfl⟩

/-- A chunk goes into the echo buffer, and no payload is written. -/
theorem Typing.receive (h : Typing options text traffic injection) (chunk : Text) :
    Typing options text (traffic ++ (injection.receive chunk).1) (injection.receive chunk).2 := by
  have hanswers : ∀ write ∈ (injection.onData chunk).2, ∃ bytes, write = .answer bytes :=
    fun write hwrite => injection.onData_writes hwrite
  have hreceived := received_receive traffic injection chunk
  have hbuffer : sliceLast MAX_ECHO_BUFFER_CHARS (injection.echoBuffer ++ chunk) =
      sliceLast MAX_ECHO_BUFFER_CHARS (received traffic ++ [chunk]).flatten := by
    rw [h.echoBuffer_eq, sliceLast_append, List.flatten_append, List.flatten_singleton]
  have hgrown : Echoed options text traffic →
      Echoed options text (traffic ++ (injection.receive chunk).1) :=
    fun hechoed => hechoed.grow (hreceived ▸ List.prefix_append _ _)
  have hcount : ∀ p : Traffic → Bool, (∀ chunk, p (.output chunk) = false) →
      (∀ bytes, p (.wrote (.answer bytes)) = false) →
      (traffic ++ (injection.receive chunk).1).countP p = traffic.countP p := by
    intro p houtput hanswer
    rw [Injection.receive, List.countP_append, List.countP_cons, countP_answers p hanswer hanswers,
      houtput]
    rfl
  obtain ⟨hoptions, htext, hecho, houtcome⟩ := injection.onData_spec chunk
  have hnow : shows options text (injection.receive chunk).2.echoBuffer =
      (injection.onData chunk).1.echoed := by
    rw [Injection.echoed_eq, hoptions, htext, h.options_eq, h.text_eq]
    rfl
  refine ⟨hoptions.trans h.options_eq, htext.trans h.text_eq, ?_, ?_, ?_, fun hwon => ?_⟩
  · rw [hreceived, ← hbuffer]
    exact hecho
  · rw [hcount isSubmit (fun _ => rfl) (fun _ => rfl)]
    exact h.noSubmit
  · rw [hcount isPaste (fun _ => rfl) (fun _ => rfl)]
    exact h.onePaste
  · obtain hsame | hechoed := houtcome
    · exact hgrown (h.outcome (hsame ▸ hwon))
    · refine ⟨received (traffic ++ (injection.receive chunk).1), List.prefix_refl _, ?_⟩
      rw [hreceived, ← hbuffer, ← hecho]
      exact hnow.trans hechoed

/-- Pressing Enter, or failing to, after what counts as an echo. -/
theorem careful_enter (fault : Option String) (hsubmit : traffic.countP isSubmit = 0)
    (hpaste : traffic.countP isPaste ≤ 1)
    (hechoed : options.allowUnverifiedSubmit = false → Echoed options text traffic) :
    Careful options text (traffic ++ (Injection.enter fault).1, (Injection.enter fault).2) := by
  cases fault with
  | none => exact ⟨traffic, rfl, hsubmit, hpaste, hechoed⟩
  | some error =>
    rw [Injection.enter, List.append_nil]
    exact ⟨hsubmit, hpaste⟩

/-- A round writes a payload; a paste is written when none was written before. -/
theorem careful_openRound (fault : Option String) (hoptions : injection.options = options)
    (htext : injection.text = text) (hsubmit : traffic.countP isSubmit = 0)
    (hpaste : traffic.countP isPaste + (if usePaste text then 1 else 0) ≤ 1)
    (hbuffer : injection.attempt = 0 → injection.echoBuffer = [])
    (houtcome : injection.outcome = none) :
    Careful options text
      (traffic ++ (injection.openRound fault).1, (injection.openRound fault).2) := by
  have hbefore : traffic.countP isPaste ≤ 1 := by omega
  rw [Injection.openRound]
  split
  · cases fault with
    | none =>
      dsimp only
      generalize hwritten : (if decide (0 < injection.attempt) = true then
        { injection with echoBuffer := [] } else injection) = written
      obtain ⟨hoptions', htext', hbuffer', houtcome'⟩ : written.options = options ∧
          written.text = text ∧ written.echoBuffer = [] ∧ written.outcome = none := by
        subst hwritten
        split
        · exact ⟨hoptions, htext, rfl, houtcome⟩
        · next hfirst =>
          exact ⟨hoptions, htext, hbuffer (by simpa using hfirst), houtcome⟩
      refine ⟨hoptions', htext', ?_, ?_, ?_, fun hwon => ?_⟩
      · rw [received_payload, hbuffer']
        rfl
      · rw [List.countP_append, hsubmit]
        rfl
      · rw [List.countP_append, List.countP_singleton, isPaste, htext']
        exact hpaste
      · rw [houtcome'] at hwon
        cases hwon
    | some error =>
      dsimp only
      rw [List.append_nil]
      exact ⟨hsubmit, hbefore⟩
  · split
    · next hallowed =>
      refine careful_enter fault hsubmit hbefore fun hrefused => ?_
      rw [hoptions, hrefused] at hallowed
      cases hallowed
    · rw [List.append_nil]
      exact ⟨hsubmit, hbefore⟩

theorem careful_afterWrite (h : Typing options text traffic injection) (fault : Option String) :
    Careful options text
      (traffic ++ (injection.afterWrite fault).1, (injection.afterWrite fault).2) := by
  rw [Injection.afterWrite]
  split
  · next hechoed => exact careful_enter fault h.noSubmit h.onePaste fun _ => h.echoed hechoed
  · rw [List.append_nil]
    exact { h with outcome := fun hwon => by cases hwon }

theorem careful_afterRace (h : Typing options text traffic injection) (fault : Option String) :
    Careful options text
      (traffic ++ (injection.afterRace fault).1, (injection.afterRace fault).2) := by
  rw [Injection.afterRace]
  cases houtcome : injection.outcome with
  | none =>
    rw [List.append_nil]
    exact h
  | some outcome =>
    dsimp only
    split
    · next hechoed =>
      refine careful_enter fault h.noSubmit h.onePaste fun _ => ?_
      rw [Bool.or_eq_true, decide_eq_true_eq] at hechoed
      obtain rfl | hechoed := hechoed
      · exact h.outcome houtcome
      · rw [Injection.echoed_eq] at hechoed
        exact h.echoed (injection.echoed_eq ▸ hechoed)
    · split
      · split
        · next hallowed =>
          refine careful_enter fault h.noSubmit h.onePaste fun hrefused => ?_
          have hverified : options.allowUnverifiedSubmit = true := h.options_eq ▸ hallowed
          rw [hrefused] at hverified
          cases hverified
        · rw [List.append_nil]
          exact ⟨h.noSubmit, h.onePaste⟩
      · next hbare =>
        have hpaste : usePaste text = false := by
          rw [← h.text_eq]
          exact Bool.eq_false_iff.2 hbare
        refine careful_openRound fault h.options_eq h.text_eq h.noSubmit ?_
          (fun hzero => absurd hzero (Nat.succ_ne_zero _)) rfl
        rw [hpaste]
        exact h.onePaste

theorem careful_idle {phase : Phase} (h : Careful options text (traffic, phase)) :
    Careful options text (traffic ++ [], phase) := by
  rw [List.append_nil]
  exact h

theorem careful_step {phase : Phase} (h : Careful options text (traffic, phase))
    (event : PaneEvent) : Careful options text (advance (traffic, phase) event) := by
  cases phase with
  | writing injection =>
    cases event with
    | chunk chunk => exact Typing.receive h chunk
    | returned fault => exact careful_afterWrite h fault
    | delay => exact careful_idle h
    | delayFails error => exact careful_idle h
    | resume fault => exact careful_idle h
  | racing injection =>
    cases event with
    | chunk chunk => exact Typing.receive h chunk
    | returned fault => exact careful_idle h
    | delay =>
      -- the delay ends the race only if the echo has not won it
      show Careful options text (traffic ++ [], .racing injection.onDelay)
      apply careful_idle
      refine { h with outcome := fun hwon => h.outcome ?_ }
      cases houtcome : injection.outcome with
      | none =>
        rw [Injection.onDelay, houtcome] at hwon
        cases hwon
      | some outcome =>
        rw [Injection.onDelay, houtcome] at hwon
        exact hwon
    | delayFails error =>
      show Careful options text
        (traffic ++ [], if injection.outcome.isNone then .refused error else .racing injection)
      apply careful_idle
      split
      · exact ⟨h.noSubmit, h.onePaste⟩
      · exact h
    | resume fault => exact careful_afterRace h fault
  | submitted => cases event <;> exact careful_idle h
  | refused error => cases event <;> exact careful_idle h

/-- The injection of a text that the composer cannot be given ends at once. -/
theorem injectRun_error {handoff : Option CodexHandoff} {error : String}
    (h : composerText options handoff text = .error error) (fault : Option String)
    (events : List PaneEvent) :
    injectRun options handoff text fault events = ([], .refused error) := by
  have hopen : openInjection options handoff text fault = ([], .refused error) := by
    rw [openInjection, h]
  rw [injectRun, hopen]
  induction events using List.reverseRecOn with
  | nil => rfl
  | append_singleton events event ih =>
    rw [List.foldl_append, ih]
    cases event <;> rfl

theorem careful_injectRun {handoff : Option CodexHandoff} {composed : Text}
    (h : composerText options handoff text = .ok composed) (fault : Option String)
    (events : List PaneEvent) :
    Careful options composed (injectRun options handoff text fault events) := by
  have hopen : Careful options composed (openInjection options handoff text fault) := by
    have hpaste :
        ([] : List Traffic).countP isPaste + (if usePaste composed then 1 else 0) ≤ 1 := by
      rw [List.countP_nil]
      split <;> decide
    rw [openInjection, h]
    exact careful_openRound fault rfl rfl List.countP_nil hpaste (fun _ => rfl) rfl
  rw [injectRun]
  induction events using List.reverseRecOn with
  | nil => exact hopen
  | append_singleton events event ih =>
    rw [List.foldl_append]
    exact careful_step ih event

/-- What stands before the only submit of the traffic. -/
theorem before_submit {before before' after : List Traffic} (hnone : before'.countP isSubmit = 0)
    (h : before' ++ [.wrote .submit] = before ++ .wrote .submit :: after) : before' = before := by
  have hmem : ∀ item ∈ before', isSubmit item = false := by
    simpa using List.countP_eq_zero.1 hnone
  obtain ⟨rest, rfl, hrest⟩ | ⟨rest, rfl, hrest⟩ := List.append_eq_append_iff.1 h
  · cases rest with
    | nil => exact (List.append_nil _).symm
    | cons item rest =>
      have hlength := congrArg List.length hrest
      simp only [List.length_append, List.length_cons, List.length_nil] at hlength
      omega
  · cases rest with
    | nil => exact List.append_nil _
    | cons item rest =>
      obtain ⟨rfl, -⟩ := List.cons.inj hrest
      cases hmem (.wrote .submit) (by simp)

/-- Enter is pressed once at most, a paste is written once at most, Enter comes after an echo unless
it may go unverified, and an injection that is refused has not pressed it. -/
theorem enter_verified (options : InjectMailOptions) (handoff : Option CodexHandoff) (text : Text)
    (fault : Option String) (events : List PaneEvent) :
    (injectRun options handoff text fault events).1.countP isSubmit ≤ 1 ∧
      (injectRun options handoff text fault events).1.countP isPaste ≤ 1 ∧
      (∀ before after, (injectRun options handoff text fault events).1 =
          before ++ .wrote .submit :: after → options.allowUnverifiedSubmit = false →
        ∃ composed, composerText options handoff text = .ok composed ∧
          Echoed options composed before) ∧
      ∀ error, (injectRun options handoff text fault events).2 = .refused error →
        (injectRun options handoff text fault events).1.countP isSubmit = 0 := by
  have hcount : ∀ {run : List Traffic} {before after : List Traffic},
      run.countP isSubmit = 0 → run ≠ before ++ .wrote .submit :: after := by
    intro run before after hzero heq
    rw [heq, List.countP_append, List.countP_cons] at hzero
    simp [isSubmit] at hzero
  cases hcomposed : composerText options handoff text with
  | error error =>
    rw [injectRun_error hcomposed]
    refine ⟨Nat.zero_le _, Nat.zero_le _, fun before after heq => ?_, fun _ _ => List.countP_nil⟩
    exact absurd heq (hcount List.countP_nil)
  | ok composed =>
    have hcareful := careful_injectRun hcomposed fault events
    generalize injectRun options handoff text fault events = run at hcareful
    obtain ⟨traffic, phase⟩ := run
    cases phase with
    | writing injection =>
      refine ⟨hcareful.noSubmit.le.trans (Nat.zero_le _), hcareful.onePaste, ?_, ?_⟩
      · exact fun before after heq => absurd heq (hcount hcareful.noSubmit)
      · exact fun error hphase => by cases hphase
    | racing injection =>
      refine ⟨hcareful.noSubmit.le.trans (Nat.zero_le _), hcareful.onePaste, ?_, ?_⟩
      · exact fun before after heq => absurd heq (hcount hcareful.noSubmit)
      · exact fun error hphase => by cases hphase
    | submitted =>
      obtain ⟨before', heq, hzero, hpaste, hechoed⟩ := hcareful
      dsimp only at heq
      subst heq
      refine ⟨?_, ?_, fun before after heq hallowed => ?_, fun error hphase => by cases hphase⟩
      · rw [List.countP_append, hzero]
        exact Nat.le_refl 1
      · rw [List.countP_append]
        exact hpaste
      · exact ⟨composed, rfl, before_submit hzero heq ▸ hechoed hallowed⟩
    | refused error =>
      refine ⟨hcareful.1.le.trans (Nat.zero_le _), hcareful.2, ?_, fun _ _ => hcareful.1⟩
      exact fun before after heq => absurd heq (hcount hcareful.1)

end

/-! ## An echo that the buffer cuts out of an escape sequence -/

theorem sliceLast_of_fits {n : ℕ} (text : Text) {last : Text} (h : utf16Length last = n)
    (hne : last ≠ []) : sliceLast n (text ++ last) = last := by
  induction text with
  | nil =>
    cases last with
    | nil => exact absurd rfl hne
    | cons c last => exact if_pos h.le
  | cons c text ih =>
    rw [List.cons_append, sliceLast, if_neg, ih]
    have hpos : 1 ≤ utf16Length [c] := length_le_utf16Length [c]
    rw [← List.singleton_append, utf16Length_append, utf16Length_append, h]
    omega

theorem iterateMatch_suffix {restsOfBody : Text → List Text}
    (h : ∀ text, ∀ rest ∈ restsOfBody text, rest <:+ text) (n : ℕ) (text : Text) :
    ∀ rest ∈ iterateMatch restsOfBody n text, rest <:+ text := by
  induction n generalizing text with
  | zero =>
    intro rest hrest
    rw [List.mem_singleton.1 hrest]
  | succ n ih =>
    intro rest hrest
    obtain hrest | hrest := List.mem_append.1 hrest
    · obtain ⟨mid, hmid, hrest⟩ := List.mem_flatMap.1 hrest
      exact (ih mid rest hrest).trans (h text mid hmid)
    · rw [List.mem_singleton.1 hrest]

/-- A match leaves an end of the text. -/
theorem rests_suffix (pattern : Regex) (text : Text) :
    ∀ rest ∈ pattern.rests text, rest <:+ text := by
  induction pattern generalizing text with
  | one matchesClass =>
    cases text with
    | nil => exact fun rest hrest => absurd hrest List.not_mem_nil
    | cons c text =>
      intro rest hrest
      rw [Regex.rests] at hrest
      split at hrest
      · rw [List.mem_singleton.1 hrest]
        exact List.suffix_cons c text
      · exact absurd hrest List.not_mem_nil
  | seq first second ihFirst ihSecond =>
    intro rest hrest
    obtain ⟨mid, hmid, hrest⟩ := List.mem_flatMap.1 hrest
    exact (ihSecond mid rest hrest).trans (ihFirst text mid hmid)
  | alt first other ihFirst ihOther =>
    intro rest hrest
    obtain hrest | hrest := List.mem_append.1 hrest
    · exact ihFirst text rest hrest
    · exact ihOther text rest hrest
  | upTo n body ih => exact iterateMatch_suffix ih n text
  | star body ih => exact iterateMatch_suffix ih text.length text

/-- A pattern that ends in a character that the text lacks matches nothing. -/
theorem rests_of_lacking (pattern : Regex) {c : Char} {text : Text} (h : c ∉ text) :
    (Regex.seq pattern (.oneOf [c])).rests text = [] := by
  rw [Regex.rests, List.flatMap_eq_nil_iff]
  intro rest hrest
  have hlacks : c ∉ rest := fun hmem => h ((rests_suffix pattern text rest hrest).subset hmem)
  cases rest with
  | nil => rfl
  | cons d rest =>
    have hne : d ≠ c := fun heq => hlacks (heq ▸ List.mem_cons_self)
    rw [Regex.oneOf, Regex.rests, if_neg (by simpa using hne)]

theorem replaceAll_unmatched {pattern : Regex} {c : Char} {text : Text} (replacement : Text)
    (h : pattern.rests (c :: text) = []) (n : ℕ) :
    pattern.replaceAll replacement (n + 1) (c :: text) =
      c :: pattern.replaceAll replacement n text := by
  rw [Regex.replaceAll, h]

theorem replaceAll_matched {pattern : Regex} {c : Char} {text rest : Text} {rests : List Text}
    (replacement : Text) (h : pattern.rests (c :: text) = rest :: rests) (n : ℕ) :
    pattern.replaceAll replacement (n + 1) (c :: text) =
      replacement ++ pattern.replaceAll replacement n rest := by
  rw [Regex.replaceAll, h]

/-- A reset of the screen, and as much output as pushes the escape out of the buffer. -/
def cutSequence (n : ℕ) : Text := ESC :: 'c' :: filler n

theorem noIntroducer_c (n : ℕ) : NoIntroducer ('c' :: filler n) := by
  intro c hc
  obtain rfl | hc := List.mem_cons.1 hc
  · decide
  · exact noIntroducer_filler n c hc

theorem layout_cutSequence (n : ℕ) : ANSI_LAYOUT_ESCAPE.rests (cutSequence n) = [] := by
  rfl

theorem ansi_cutSequence (n : ℕ) : ANSI_ESCAPE.rests (cutSequence n) = [filler n] := by
  have hbell : Char.ofNat 0x07 ∉ 'c' :: filler n := by
    intro hmem
    obtain h | h := List.mem_cons.1 hmem
    · cases h
    · cases mem_filler h
  have hbrackets : (Regex.star (.oneOf ['[', ']', '(', ')', '#', ';', '?'])).rests
      ('c' :: filler n) = ['c' :: filler n] := rfl
  have hfinal : (Regex.seq .parameters (.one isFinalByte)).rests ('c' :: filler n) =
      [filler n] := rfl
  rw [ANSI_ESCAPE, Regex.rests]
  show (Regex.rests _ ('c' :: filler n)) ++ [] = _
  rw [Regex.rests, hbrackets, List.flatMap_singleton, Regex.rests, rests_of_lacking _ hbell, hfinal]
  rfl

theorem trim_filler (text : Text) (n : ℕ) (h : ∀ c ∈ text, isStrWhiteSpace c = false) :
    trim (collapseWhiteSpace (text ++ filler n)) = text ++ filler n := by
  have hplain : ∀ c ∈ text ++ filler n, isStrWhiteSpace c = false := by
    intro c hc
    obtain hc | hc := List.mem_append.1 hc
    · exact h c hc
    · rw [mem_filler hc]
      decide
  rw [← List.nil_append (text ++ filler n), collapse_append hplain]
  exact Js.trim_eq_self (fun c hc => hplain c (List.mem_of_mem_head? hc))
    fun c hc => hplain c (List.mem_of_mem_getLast? hc)

/-- The whole output reads as what follows the sequence. -/
theorem normalize_cutSequence (n : ℕ) : normalizeStartupOutput (cutSequence n) = filler n := by
  have hlayout : ANSI_LAYOUT_ESCAPE.replaceAll [' '] (cutSequence n).length (cutSequence n) =
      cutSequence n := by
    refine (replaceAll_unmatched _ (layout_cutSequence n) _).trans ?_
    rw [ANSI_LAYOUT_ESCAPE, replaceAll_of_noIntroducer _ (noIntroducer_c n)]
    rfl
  have hansi : ANSI_ESCAPE.replaceAll [] (cutSequence n).length (cutSequence n) = filler n := by
    refine (replaceAll_matched _ (ansi_cutSequence n) _).trans ?_
    rw [ANSI_ESCAPE, replaceAll_of_noIntroducer _ (noIntroducer_filler n)]
    rfl
  rw [normalizeStartupOutput, hlayout, hansi]
  exact trim_filler [] n fun c hc => absurd hc List.not_mem_nil

/-- What the echo buffer keeps of the output reads with the end of the sequence. -/
theorem normalize_cut (n : ℕ) : normalizeStartupOutput ('c' :: filler n) = 'c' :: filler n := by
  rw [normalize_of_noIntroducer (noIntroducer_c n)]
  refine trim_filler ['c'] n fun c hc => ?_
  rw [List.mem_singleton.1 hc]
  decide

/-- An echo that is seen decides the race. -/
theorem Injection.onData_wins {injection : Injection} {chunk : Text}
    (harmed : injection.armed = true) (hopen : injection.outcome = none)
    (hshows : shows injection.options injection.text
      (sliceLast MAX_ECHO_BUFFER_CHARS (injection.echoBuffer ++ chunk)) = true) :
    (injection.onData chunk).1.outcome = some .echo := by
  rw [Injection.onData]
  dsimp only
  rw [if_pos]
  · show (injection.outcome <|> some .echo) = _
    rw [hopen]
    rfl
  · rw [Bool.and_eq_true, Injection.echoed_eq]
    exact ⟨harmed, hshows⟩

theorem advance_chunk (traffic : List Traffic) (injection : Injection) (chunk : Text) :
    advance (traffic, .racing injection) (.chunk chunk) =
      (traffic ++ (injection.receive chunk).1, .racing (injection.onData chunk).1) := rfl

theorem advance_resume (traffic : List Traffic) (injection : Injection) (fault : Option String) :
    advance (traffic, .racing injection) (.resume fault) =
      (traffic ++ (injection.afterRace fault).1, (injection.afterRace fault).2) := rfl

/-- The pane returns, puts out the sequence and more than the buffer holds, and the echo wins. -/
def cutEvents (n : ℕ) : List PaneEvent := [.returned none, .chunk (cutSequence n), .resume none]

/-- The injection of `c` at its first write. -/
def cutInjection : Injection where
  options := {}
  text := ['c']
  attempt := 0
  echoBuffer := []
  armed := false
  outcome := none
  dialogs := watchDialogs none

theorem sliceLast_cutSequence (n : ℕ) : sliceLast (n + 1) (cutSequence n) = 'c' :: filler n := by
  have hfits : utf16Length ('c' :: filler n) = n + 1 := by
    rw [← List.singleton_append, utf16Length_append, utf16Length_filler, Nat.add_comm]
    rfl
  exact sliceLast_of_fits [ESC] hfits (List.cons_ne_nil _ _)

theorem shows_cut (n : ℕ) :
    shows {} ['c'] ('c' :: filler n) = true ∧ shows {} ['c'] (cutSequence n) = false := by
  have htext : normalizeStartupOutput ['c'] = ['c'] := by decide
  have hnone : previews {} ['c'] (filler n) = false := rfl
  constructor
  · rw [shows, Bool.or_eq_true]
    left
    rw [normalize_cut, htext]
    exact decide_eq_true (List.prefix_append ['c'] _).isInfix
  · rw [shows, normalize_cutSequence, htext, hnone, Bool.or_false]
    refine decide_eq_false fun hread => ?_
    cases mem_filler (hread.subset List.mem_cons_self)

theorem submits_cutSequence {n : ℕ} (hn : MAX_ECHO_BUFFER_CHARS = n + 1) :
    ∃ before after, (injectRun {} none ['c'] none (cutEvents n)).1 =
        before ++ .wrote .submit :: after ∧
      (received before).flatten = cutSequence n := by
  have hopen : openInjection {} none ['c'] none =
      ([.wrote (.payload false ['c'])], .writing cutInjection) := rfl
  have hreturned : cutInjection.afterWrite none = ([], .racing cutInjection.race) := by
    rw [Injection.afterWrite, if_neg (by decide)]
  have hwon : (cutInjection.race.onData (cutSequence n)).1.outcome = some .echo := by
    refine Injection.onData_wins rfl rfl ?_
    show shows {} ['c'] (sliceLast MAX_ECHO_BUFFER_CHARS (cutSequence n)) = true
    rw [hn, sliceLast_cutSequence]
    exact (shows_cut n).1
  have hentered : (cutInjection.race.onData (cutSequence n)).1.afterRace none =
      ([.wrote .submit], .submitted) := by
    rw [Injection.afterRace, hwon]
    rfl
  have hrace : advance ([.wrote (.payload false ['c'])], .writing cutInjection) (.returned none) =
      ([.wrote (.payload false ['c'])], .racing cutInjection.race) := by
    show (_ ++ (cutInjection.afterWrite none).1, (cutInjection.afterWrite none).2) = _
    rw [hreturned]
    rfl
  refine ⟨[.wrote (.payload false ['c'])] ++ (cutInjection.race.receive (cutSequence n)).1, [],
    ?_, ?_⟩
  · rw [injectRun, hopen, cutEvents, List.foldl_cons, hrace, List.foldl_cons,
      advance_chunk, List.foldl_cons, List.foldl_nil, advance_resume, hentered]
  · have hpayload : received [.wrote (.payload false ['c'])] = [] := received_payload [] false ['c']
    rw [received_receive, hpayload, List.nil_append, List.flatten_singleton]

/-- Enter is pressed although the output since the payload, read as a whole, does not show the
text. -/
theorem cut_echo_submits :
    ∃ before after, (injectRun {} none ['c'] none (cutEvents (MAX_ECHO_BUFFER_CHARS - 1))).1 =
        before ++ .wrote .submit :: after ∧
      shows {} ['c'] (received before).flatten = false := by
  have hn : MAX_ECHO_BUFFER_CHARS = MAX_ECHO_BUFFER_CHARS - 1 + 1 := by decide
  obtain ⟨before, after, hrun, hflat⟩ := submits_cutSequence hn
  refine ⟨before, after, hrun, ?_⟩
  rw [hflat]
  exact (shows_cut _).2

end Orchestration.Pty
