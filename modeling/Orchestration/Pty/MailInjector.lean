import Orchestration.Pty.DialogWatcher

/-!
# The mail injection

A mail is written into the composer of a pane, and Enter is sent once the composer
has echoed it. An injection runs from one await to the next; it waits for the echo
or for the retry delay, whichever comes first.
-/

namespace Orchestration.Pty

open Dispatch (Provider)

def PASTE_START : Text := [ESC, '[', '2', '0', '0', '~']
def PASTE_END : Text := [ESC, '[', '2', '0', '1', '~']
def SUBMIT : Text := ['\r']
/-- Ctrl-U, which clears the current input line. -/
def CLEAR_COMPOSER : Text := [Char.ofNat 0x15]

def CODEX_COLLAPSED_PASTE_NEEDLES : List Text := ["pasted".toList, "lines".toList]

def PASTE_LENGTH_THRESHOLD : ℕ := 256
def MAX_ECHO_BUFFER_CHARS : ℕ := 64 * 1024

structure InjectMailOptions where
  provider : Option Provider := none
  maxEchoAttempts : ℕ := 5
  allowUnverifiedSubmit : Bool := false
deriving DecidableEq, Repr

/-- The file that a text is diverted to, and the message that points at it. -/
structure CodexHandoff where
  write : Text → Except String Text
  pointer : Text → Text

def hasNewline (text : Text) : Bool := text.any fun c => c = '\r' || c = '\n'

def usePaste (text : Text) : Bool :=
  hasNewline text || PASTE_LENGTH_THRESHOLD ≤ utf16Length (normalizeStartupOutput text)

def payload (text : Text) : Text := if usePaste text then PASTE_START ++ text ++ PASTE_END else text

def assertShortSingleLineHandoffPointer (pointer : Text) : Except String Unit :=
  if usePaste pointer then
    .error ("injectMail: codex handoff pointer must be a short single-line command/text (<256 chars) " ++
      "so it never takes the collapsed-paste path")
  else if normalizeStartupOutput pointer = [] then
    .error "injectMail: codex handoff pointer must not be empty"
  else .ok ()

/-- A text that is not diverted. -/
def plainText (text : Text) : Except String Text :=
  if normalizeStartupOutput text = [] then
    .error "injectMail: refusing to inject empty text (nothing to render or submit)"
  else .ok text

/-- Whether a text goes to a file and its pointer into the composer. -/
def diverts (options : InjectMailOptions) (handoff : Option CodexHandoff) (text : Text) : Bool :=
  options.provider = some .codex && usePaste text && handoff.isSome &&
    normalizeStartupOutput text ≠ []

/-- What `injectMail` puts into the composer for `text`: the text, or a pointer to it. -/
def composerText (options : InjectMailOptions) (handoff : Option CodexHandoff) (text : Text) :
    Except String Text :=
  match handoff with
  | none => plainText text
  | some handoff =>
    if normalizeStartupOutput text = [] then plainText text
    else if options.provider = some .codex && usePaste text then do
      let path ← handoff.write text
      let pointer := handoff.pointer path
      assertShortSingleLineHandoffPointer pointer
      plainText pointer
    else plainText text

/-! ## What is written -/

/-- What the injector and its watcher write to a pane. -/
inductive Write where
  /-- The payload of a text, after the line is cleared when it is a retry. -/
  | payload (retry : Bool) (text : Text)
  | submit
  | answer (bytes : Text)
deriving DecidableEq, Repr

def Write.bytes : Write → Text
  | .payload false text => Pty.payload text
  | .payload true text => CLEAR_COMPOSER ++ Pty.payload text
  | .submit => SUBMIT
  | .answer bytes => bytes

/-- A composer whose current line is cleared. -/
def clearLine (composer : Text) : Text :=
  (composer.reverse.dropWhile fun c => c ≠ '\n' && c ≠ '\r').reverse

/-- The text that a composer was given, after one more write. A dialog takes its answer itself. -/
def Write.composed (composer : Text) : Write → Text
  | .payload false text => composer ++ text
  | .payload true text => clearLine composer ++ text
  | .submit => []
  | .answer _ => composer

theorem hasNewline_eq_false_of_usePaste {text : Text} (h : usePaste text = false) :
    hasNewline text = false := (Bool.or_eq_false_iff.1 h).1

/-- A retry takes the place of a text without line breaks. -/
theorem clearLine_eq_nil {text : Text} (h : usePaste text = false) : clearLine text = [] := by
  have hline := hasNewline_eq_false_of_usePaste h
  simp only [hasNewline, List.any_eq_false, Bool.or_eq_true, decide_eq_true_eq, not_or] at hline
  rw [clearLine, List.reverse_eq_nil_iff, List.dropWhile_eq_nil_iff]
  intro c hc
  obtain ⟨hr, hn⟩ := hline c (List.mem_reverse.1 hc)
  simp [hr, hn]

/-! ## The injection -/

inductive Outcome where
  | echo
  | retry
deriving DecidableEq, Repr

/-- An injection that has begun to write. -/
structure Injection where
  options : InjectMailOptions
  /-- What it puts into the composer. -/
  text : Text
  attempt : ℕ
  echoBuffer : Text
  /-- `notifyEcho` is set. -/
  armed : Bool
  /-- The race is decided. -/
  outcome : Option Outcome
  dialogs : DialogWatcher
deriving DecidableEq, Repr

/-- Where an injection stands at its next await. -/
inductive Progress where
  | racing (injection : Injection)
  | submitted
  | refused (error : String)
deriving DecidableEq, Repr

/-- Enter ends the injection. -/
def pressEnter : List Write × Progress := ([.submit], .submitted)

namespace Injection

variable (injection : Injection)

def echoed : Bool :=
  let normalizedEcho := normalizeStartupOutput injection.echoBuffer
  let lowered := toLowerCase normalizedEcho
  includes normalizedEcho (normalizeStartupOutput injection.text) ||
    (usePaste injection.text && injection.options.provider = some .claude &&
      includes lowered "pasted text #".toList &&
      includes lowered "paste again to expand".toList) ||
    (hasNewline injection.text && injection.options.provider = some .codex &&
      CODEX_COLLAPSED_PASTE_NEEDLES.all (includes lowered))

/-- The injection races the echo of its next write against the retry delay. -/
def race : Injection := { injection with armed := true, outcome := none }

/-- One round of the retry loop, or what follows its last round. -/
def round : List Write × Progress :=
  if injection.attempt < injection.options.maxEchoAttempts then
    let retry := decide (0 < injection.attempt)
    let injection := if retry then { injection with echoBuffer := [] } else injection
    if injection.echoed then ([.payload retry injection.text, .submit], .submitted)
    else ([.payload retry injection.text], .racing injection.race)
  else if injection.options.allowUnverifiedSubmit then pressEnter
  else ([], .refused (s!"injectMail: composer did not echo the typed text after " ++
    s!"{injection.options.maxEchoAttempts} attempt(s); refusing to blind-fire Enter"))

/-- The injection goes on once its race is decided. -/
def resume : List Write × Progress :=
  match injection.outcome with
  | none => ([], .racing injection)
  | some outcome =>
    let injection := { injection with armed := false, outcome := none }
    if outcome = .echo || injection.echoed then pressEnter
    else if usePaste injection.text then
      if injection.options.allowUnverifiedSubmit then pressEnter
      else ([], .refused ("injectMail: paste composer did not echo before the retry window; " ++
        "refusing an uncertain paste retry"))
    else { injection with attempt := injection.attempt + 1 }.round

/-- The retry delay is over; a race that the echo has won stays won. -/
def onDelay : Injection := { injection with outcome := injection.outcome <|> some .retry }

/-- A chunk of output: the echo is looked for in it, and a dialog is answered. -/
def onData (chunk : Text) : Injection × List Write :=
  let injection := { injection with
    echoBuffer := sliceLast MAX_ECHO_BUFFER_CHARS (injection.echoBuffer ++ chunk) }
  let injection :=
    if injection.armed && injection.echoed then
      { injection with armed := false, outcome := injection.outcome <|> some .echo }
    else injection
  let (dialogs, answer) := injection.dialogs.onData chunk
  ({ injection with dialogs }, answer.toList.map .answer)

/-! ### What an injection does up to its next await -/

/-- The writes of an injection of `text` and where they leave it. -/
inductive Does (text : Text) : List Write → Progress → Prop
  /-- It goes on waiting. -/
  | waits (injection : Injection) (ht : injection.text = text) : Does text [] (.racing injection)
  /-- It writes its payload again and waits for the echo. -/
  | retries (injection : Injection) (ht : injection.text = text) (hp : usePaste text = false) :
      Does text [.payload true text] (.racing injection)
  /-- It writes its payload again, which is echoed at once. -/
  | retriesAndSubmits (hp : usePaste text = false) :
      Does text [.payload true text, .submit] .submitted
  | submits : Does text [.submit] .submitted
  | refuses (error : String) : Does text [] (.refused error)

/-- A round after the first one. -/
theorem round_does (hattempt : 0 < injection.attempt) (hpaste : usePaste injection.text = false) :
    Does injection.text injection.round.1 injection.round.2 := by
  unfold round
  split
  · simp only [hattempt, decide_true, if_true]
    split
    · exact .retriesAndSubmits hpaste
    · exact .retries _ rfl hpaste
  · split
    · exact .submits
    · exact .refuses _

theorem resume_does : Does injection.text injection.resume.1 injection.resume.2 := by
  unfold resume
  cases injection.outcome with
  | none => exact .waits injection rfl
  | some outcome =>
    dsimp only
    split
    · exact .submits
    · split
      · split
        · exact .submits
        · exact .refuses _
      · rename_i hpaste
        exact round_does
          { injection with armed := false, outcome := none, attempt := injection.attempt + 1 }
          (Nat.succ_pos _) (by simpa using hpaste)

/-- Enter is pressed at most once and last, and it is what submits. -/
def PressesEnterLast (done : List Write × Progress) : Prop :=
  ∃ writes, Write.submit ∉ writes ∧
    (done = (writes ++ [.submit], .submitted) ∨ ∃ progress, progress ≠ .submitted ∧
      done = (writes, progress))

theorem entered_last {writes : List Write} (h : Write.submit ∉ writes) :
    PressesEnterLast (writes ++ [.submit], .submitted) := ⟨writes, h, .inl rfl⟩

theorem racing_last {writes : List Write} (h : Write.submit ∉ writes) :
    PressesEnterLast (writes, .racing injection) := ⟨writes, h, .inr ⟨_, by simp, rfl⟩⟩

theorem refused_last (error : String) : PressesEnterLast ([], .refused error) :=
  ⟨[], List.not_mem_nil, .inr ⟨_, by simp, rfl⟩⟩

theorem round_last : PressesEnterLast injection.round := by
  have hwrites : ∀ (retry : Bool) (written : Injection),
      PressesEnterLast (if written.echoed then ([.payload retry written.text, .submit], .submitted)
        else ([.payload retry written.text], .racing written.race)) := by
    intro retry written
    have hpayload : Write.submit ∉ [Write.payload retry written.text] := by simp
    split
    · exact entered_last hpayload
    · exact racing_last _ hpayload
  unfold round
  split
  · exact hwrites _ _
  · split
    · exact entered_last List.not_mem_nil
    · exact refused_last _

theorem resume_last : PressesEnterLast injection.resume := by
  unfold resume
  cases injection.outcome with
  | none => exact racing_last _ List.not_mem_nil
  | some outcome =>
    dsimp only
    split
    · exact entered_last List.not_mem_nil
    · split
      · split
        · exact entered_last List.not_mem_nil
        · exact refused_last _
      · exact round_last _

@[simp] theorem onDelay_text : injection.onDelay.text = injection.text := rfl

@[simp] theorem onData_text (chunk : Text) : (injection.onData chunk).1.text = injection.text := by
  simp only [onData]
  split <;> rfl

/-- While it waits, an injection writes answers to dialogs only. -/
theorem onData_writes {chunk : Text} {write : Write} (h : write ∈ (injection.onData chunk).2) :
    ∃ bytes, write = .answer bytes := by
  simp only [onData, List.mem_map] at h
  obtain ⟨bytes, -, rfl⟩ := h
  exact ⟨bytes, rfl⟩

end Injection

/-- `injectMail` with the text that goes into the composer, up to its first await. -/
def inject (options : InjectMailOptions) (text : Text) : List Write × Progress :=
  Injection.round
    { options, text, attempt := 0, echoBuffer := [], armed := false, outcome := none,
      dialogs := watchDialogs options.provider }

/-- An injection begins with its payload, on the line as it finds it. -/
theorem inject_eq {options : InjectMailOptions} (text : Text)
    (hmax : 0 < options.maxEchoAttempts) :
    (∃ injection : Injection, injection.text = text ∧
        inject options text = ([.payload false text], .racing injection)) ∨
      inject options text = ([.payload false text, .submit], .submitted) := by
  unfold inject Injection.round
  rw [if_pos hmax]
  simp only [Nat.lt_irrefl, decide_false, Bool.false_eq_true, if_false]
  split
  · exact .inr rfl
  · exact .inl ⟨_, rfl, rfl⟩

end Orchestration.Pty
