import Orchestration.Conductor.WarmPane

/-!
# One injection at a time

An injection that begins while the composer is free and no other one is under way
has the pane to itself until it ends, and what it submits is its own mail. The
conductor does not see to it that injections begin so.
-/

namespace Orchestration.Conductor

open Mail (DeliveredMail)
open Pty (Text Write Progress Injection)

/-! ## The marks of a pane -/

/-- Between a write of an injection and its end, no other injection writes. -/
def Exclusive (trace : List Mark) : Prop :=
  ∀ pre mid post i j v w, trace = pre ++ .wrote i v :: (mid ++ .wrote j w :: post) → i ≠ j →
    .settled i ∈ mid

/-- Call `i` has written and has not settled since. -/
def Open (trace : List Mark) (i : ℕ) : Prop :=
  ∃ pre v mid, trace = pre ++ .wrote i v :: mid ∧ .settled i ∉ mid

theorem exclusive_nil : Exclusive [] := by
  intro pre mid post i j v w h
  simp at h

theorem not_open_nil (i : ℕ) : ¬ Open [] i := by
  rintro ⟨pre, v, mid, h, -⟩
  simp at h

section Append

variable {trace : List Mark} {mark : Mark} {i j : ℕ}

theorem Open.of_append (h : Open (trace ++ [mark]) i) :
    Open trace i ∨ ∃ w, mark = .wrote i w := by
  obtain ⟨pre, v, mid, heq, hmid⟩ := h
  rcases List.eq_nil_or_concat mid with rfl | ⟨mid', last, rfl⟩
  · obtain ⟨-, hlast⟩ := List.append_inj' heq rfl
    exact .inr ⟨v, by simpa using hlast⟩
  · rw [List.concat_eq_append, ← List.cons_append, ← List.append_assoc] at heq
    obtain ⟨hinit, -⟩ := List.append_inj' heq rfl
    refine .inl ⟨pre, v, mid', hinit, fun hmem => hmid ?_⟩
    rw [List.concat_eq_append]
    exact List.mem_append_left _ hmem

theorem Open.of_settled (h : Open (trace ++ [.settled j]) i) : Open trace i ∧ i ≠ j := by
  obtain ⟨pre, v, mid, heq, hmid⟩ := h
  rcases List.eq_nil_or_concat mid with rfl | ⟨mid', last, rfl⟩
  · obtain ⟨-, hlast⟩ := List.append_inj' heq rfl
    cases hlast
  · rw [List.concat_eq_append] at heq hmid
    rw [← List.cons_append, ← List.append_assoc] at heq
    obtain ⟨hinit, hlast⟩ := List.append_inj' heq rfl
    refine ⟨⟨pre, v, mid', hinit, fun hmem => hmid (List.mem_append_left _ hmem)⟩, ?_⟩
    rintro rfl
    exact hmid (List.mem_append_right _ (by rw [← hlast]; exact List.mem_singleton.2 rfl))

/-- A mark that is no write, or a write when only its own injection is open, keeps the order. -/
theorem Exclusive.append (h : Exclusive trace)
    (hmark : ∀ j w, mark = .wrote j w → ∀ i, Open trace i → i = j) :
    Exclusive (trace ++ [mark]) := by
  intro pre mid post i j v w heq hij
  rcases List.eq_nil_or_concat post with rfl | ⟨post', last, rfl⟩
  · rw [← List.cons_append, ← List.append_assoc] at heq
    obtain ⟨hinit, hlast⟩ := List.append_inj' heq rfl
    by_contra hmid
    exact hij (hmark j w (List.singleton_inj.1 hlast) i ⟨pre, v, mid, hinit, hmid⟩)
  · rw [List.concat_eq_append] at heq
    have heq' : trace ++ [mark] = (pre ++ .wrote i v :: (mid ++ .wrote j w :: post')) ++ [last] := by
      rw [heq]
      simp
    obtain ⟨hinit, -⟩ := List.append_inj' heq' rfl
    exact h pre mid post' i j v w hinit hij

end Append

/-! ## What a pane promises -/

/-- Injections do not interleave, and each submit submits one mail's payload. -/
structure Undisturbed (deps : InjectDeps) (s : WarmPane) : Prop where
  exclusive : Exclusive s.trace
  submits : ∀ p ∈ s.submitted, ∃ call, s.calls[p.1]? = some call ∧ p.2 = deps.composed call.mail

def Phase.injection? : Phase → Option Injection
  | .injecting injection => some injection
  | _ => none

namespace WarmPane

variable (s : WarmPane) (i j : ℕ)

/-- The injection of call `i`, while it waits for its echo. -/
def injectionAt : Option Injection := s.calls[i]? >>= fun call => call.phase.injection?

def mailAt : Option DeliveredMail := s.calls[i]?.map Call.mail

/-- No injection is under way, and nothing is left in the composer. -/
def Clear : Prop := (∀ i, s.injectionAt i = none) ∧ s.composer = []

end WarmPane

/-- An injection of the mail that writes at all finds the pane clear. -/
def Begins (deps : InjectDeps) (mail : DeliveredMail) (seams : Seams) (s : WarmPane) : Prop :=
  (∃ text, Pty.composerText deps.options (deps.codexHandoff mail seams.written)
      (deps.renderMail mail) = .ok text) →
    s.Clear ∧ 0 < deps.maxEchoAttempts

/-- Turns and deliveries begin to write one after the other. -/
def Orderly (deps : InjectDeps) (op : WarmOp) (s : WarmPane) : Prop :=
  match op with
  | .runOneTurn mail seams => Begins deps mail seams s
  | .routeInject i seams => ∀ mail, s.mailAt i = some mail → s.due i = true → s.hosted = true →
    Begins deps mail seams s
  | _ => True

/-! ## What moves nothing -/

/-- Nothing was written and no injection began or ended. -/
structure Frame (s s' : WarmPane) : Prop where
  trace : s'.trace = s.trace
  composer : s'.composer = s.composer
  submitted : s'.submitted = s.submitted
  injectionAt : ∀ i, s'.injectionAt i = s.injectionAt i
  mailAt : ∀ i mail, s.mailAt i = some mail → s'.mailAt i = some mail

namespace Frame

variable {s s' s'' : WarmPane} {deps : InjectDeps} {seams : Seams} {i : ℕ}

theorem refl (s : WarmPane) : Frame s s := ⟨rfl, rfl, rfl, fun _ => rfl, fun _ _ h => h⟩

theorem trans (h : Frame s s') (h' : Frame s' s'') : Frame s s'' where
  trace := h'.trace.trans h.trace
  composer := h'.composer.trans h.composer
  submitted := h'.submitted.trans h.submitted
  injectionAt i := (h'.injectionAt i).trans (h.injectionAt i)
  mailAt i mail hm := h'.mailAt i mail (h.mailAt i mail hm)

/-- A change of other fields. -/
theorem of_calls (hc : s'.calls = s.calls) (ht : s'.trace = s.trace)
    (hcomposer : s'.composer = s.composer) (hsubmitted : s'.submitted = s.submitted) :
    Frame s s' := by
  refine ⟨ht, hcomposer, hsubmitted, fun i => ?_, fun i mail h => ?_⟩
  · rw [WarmPane.injectionAt, WarmPane.injectionAt, hc]
  · rw [WarmPane.mailAt, hc]
    exact h

/-- A change of one call that keeps its mail and what it injects. -/
theorem modify {f : Call → Call} (hc : s'.calls = s.calls.modify i f) (ht : s'.trace = s.trace)
    (hcomposer : s'.composer = s.composer) (hsubmitted : s'.submitted = s.submitted)
    (hmail : ∀ call, (f call).mail = call.mail)
    (hphase : ∀ call, s.calls[i]? = some call →
      (f call).phase.injection? = call.phase.injection?) : Frame s s' := by
  refine ⟨ht, hcomposer, hsubmitted, fun j => ?_, fun j mail h => ?_⟩
  · simp only [WarmPane.injectionAt, hc, List.getElem?_modify]
    cases hcall : s.calls[j]? with
    | none => rfl
    | some call =>
      by_cases hij : i = j
      · subst hij
        simpa using hphase call hcall
      · simp [hij]
  · simp only [WarmPane.mailAt, hc, List.getElem?_modify] at h ⊢
    cases hcall : s.calls[j]? with
    | none => simp [hcall] at h
    | some call =>
      rw [hcall] at h
      by_cases hij : i = j
      · simpa [hij, hmail] using h
      · simpa [hij] using h

theorem setPhase {phase : Phase} (hs : s.injectionAt i = none) (hp : phase.injection? = none) :
    Frame s (s.setPhase i phase) := by
  refine modify rfl rfl rfl rfl (fun _ => rfl) fun call hcall => ?_
  rw [WarmPane.injectionAt, hcall] at hs
  exact hp.trans hs.symm

theorem dropHandoff : Frame s (s.dropHandoff i) :=
  modify rfl rfl rfl rfl (fun _ => rfl) fun _ _ => rfl

theorem recordHandoff {file : HandoffFile} {text : Text} : Frame s (s.recordHandoff i file text) :=
  modify rfl rfl rfl rfl (fun _ => rfl) fun _ _ => rfl

theorem scrub {file : HandoffFile} : Frame s (s.scrub deps seams file) := by
  unfold WarmPane.scrub
  split
  · exact of_calls rfl rfl rfl rfl
  · exact refl s

theorem consume {mail : DeliveredMail} :
    Frame s (s.consumeOneShotKickoff deps seams mail).2 := by
  unfold WarmPane.consumeOneShotKickoff
  split
  · exact scrub
  · exact refl s

theorem finalizeRelease : Frame s (s.finalizeRelease deps seams) :=
  (scrub.trans scrub).trans (of_calls rfl rfl rfl rfl)

theorem release : Frame s (s.release deps seams) := by
  unfold WarmPane.release
  split
  · dsimp only
    split
    · exact of_calls rfl rfl rfl rfl
    · have hreleased : Frame s { s with hosted := false } := of_calls rfl rfl rfl rfl
      exact hreleased.trans finalizeRelease
  · exact refl s

theorem finishTurn {result : Except String Unit} (hs : s.injectionAt i = none) :
    Frame s (s.finishTurn deps i seams result) := by
  have hscrubbed : Frame s ((s.scrub deps seams .routed).dropHandoff i) :=
    scrub.trans dropHandoff
  have hended : Frame s ((((s.scrub deps seams .routed).dropHandoff i)).setPhase i
      (.ended result)) :=
    hscrubbed.trans (setPhase ((hscrubbed.injectionAt i).trans hs) rfl)
  unfold WarmPane.finishTurn
  dsimp only
  split
  · refine Frame.trans ?_ finalizeRelease
    exact hended.trans (of_calls rfl rfl rfl rfl)
  · exact hended.trans (of_calls rfl rfl rfl rfl)

theorem failTurn {mail : DeliveredMail} {error : String} (hs : s.injectionAt i = none) :
    Frame s (s.failTurn deps i seams mail error) := by
  unfold WarmPane.failTurn
  dsimp only
  split
  · exact scrub.trans (finishTurn ((scrub.injectionAt i).trans hs))
  · exact finishTurn hs

theorem turnOver : Frame s (s.turnOver i) :=
  modify rfl rfl rfl rfl (fun _ => rfl) fun _ _ => rfl

theorem turnEnd {mail : DeliveredMail} {seen : TurnObservation} (hs : s.injectionAt i = none) :
    Frame s (s.turnEnd deps i seams mail seen) := by
  have hconsumed : Frame s (s.consumeOneShotKickoff deps seams mail).2 := consume
  have hconsumedAt := (hconsumed.injectionAt i).trans hs
  unfold WarmPane.turnEnd
  split
  · exact finishTurn hs
  · dsimp only
    split
    · exact hconsumed.trans (failTurn hconsumedAt)
    · split
      · exact hconsumed.trans (setPhase hconsumedAt rfl)
      · exact hconsumed.trans (finishTurn hconsumedAt)

theorem routeEnd {mail : DeliveredMail} {result : Except String Unit}
    (hs : s.injectionAt i = none) : Frame s (s.routeEnd deps i seams mail result) := by
  have hended : ∀ t : WarmPane, Frame s t → ∀ consumed : Except String Unit,
      Frame s ((WarmPane.dropHandoff i
        { t with routeInjectInFlight := t.routeInjectInFlight - 1 }).setPhase i
        (.ended consumed)) := by
    intro t ht consumed
    have hdropped := (ht.trans (of_calls rfl rfl rfl rfl :
      Frame t { t with routeInjectInFlight := t.routeInjectInFlight - 1 })).trans
      (dropHandoff (i := i))
    exact hdropped.trans (setPhase ((hdropped.injectionAt i).trans hs) rfl)
  unfold WarmPane.routeEnd
  cases result with
  | ok done => exact hended _ (scrub.trans consume) _
  | error error =>
    by_cases hkickoff : Session.isTurnKickoffMail mail = true
    · simp only [hkickoff, Bool.and_self, if_true]
      exact hended _ (scrub.trans scrub) _
    · simp only [hkickoff, Bool.and_false, Bool.false_eq_true, if_false, if_true]
      exact hended _ scrub _

end Frame

/-! ## The invariant -/

namespace WarmPane

/-- At most one injection is under way; it alone has written without having settled, and the
composer holds its text. -/
structure InTurn (deps : InjectDeps) (s : WarmPane) : Prop where
  undisturbed : Undisturbed deps s
  one : ∀ i j, s.injectionAt i ≠ none → s.injectionAt j ≠ none → i = j
  opened : ∀ i, Open s.trace i → s.injectionAt i ≠ none
  text : ∀ i injection, s.injectionAt i = some injection → s.composer = injection.text ∧
    ∃ mail, s.mailAt i = some mail ∧ injection.text = deps.composed mail

/-- The injection of call `i` has written `text`, and no other one is under way. -/
structure Holds (deps : InjectDeps) (i : ℕ) (text : Text) (s : WarmPane) : Prop where
  undisturbed : Undisturbed deps s
  alone : ∀ j, s.injectionAt j ≠ none → j = i
  opened : ∀ j, Open s.trace j → j = i
  composer : s.composer = text
  mail : ∃ mail, s.mailAt i = some mail ∧ text = deps.composed mail

variable {deps : InjectDeps} {s s' : WarmPane} {i : ℕ} {text : Text}

theorem mailAt_eq_some {mail : DeliveredMail} :
    s.mailAt i = some mail ↔ ∃ call, s.calls[i]? = some call ∧ call.mail = mail := by
  simp [mailAt]

theorem Undisturbed_of_frame (h : Undisturbed deps s) (hf : Frame s s') : Undisturbed deps s' where
  exclusive := by
    rw [hf.trace]
    exact h.exclusive
  submits p hp := by
    rw [hf.submitted] at hp
    obtain ⟨call, hcall, htext⟩ := h.submits p hp
    obtain ⟨call', hcall', hmail⟩ := mailAt_eq_some.1
      (hf.mailAt p.1 call.mail (mailAt_eq_some.2 ⟨call, hcall, rfl⟩))
    exact ⟨call', hcall', by rw [hmail, htext]⟩

theorem InTurn.frame (h : InTurn deps s) (hf : Frame s s') : InTurn deps s' where
  undisturbed := Undisturbed_of_frame h.undisturbed hf
  one i j hi hj := h.one i j (by rwa [hf.injectionAt] at hi) (by rwa [hf.injectionAt] at hj)
  opened i hi := by
    rw [hf.trace] at hi
    rw [hf.injectionAt]
    exact h.opened i hi
  text i injection hi := by
    rw [hf.injectionAt] at hi
    obtain ⟨hcomposer, mail, hmail, htext⟩ := h.text i injection hi
    exact ⟨hf.composer.trans hcomposer, mail, hf.mailAt i mail hmail, htext⟩

theorem InTurn.initial : InTurn deps WarmPane.initial where
  undisturbed := ⟨exclusive_nil, fun p hp => by cases hp⟩
  one i j hi := absurd rfl hi
  opened i hi := absurd hi (not_open_nil i)
  text i injection hi := by cases hi

/-- The injection that is under way holds the composer. -/
theorem InTurn.holds (h : InTurn deps s) {injection : Injection}
    (hi : s.injectionAt i = some injection) : Holds deps i injection.text s where
  undisturbed := h.undisturbed
  alone j hj := h.one j i hj (by simp [hi])
  opened j hj := h.one j i (h.opened j hj) (by simp [hi])
  composer := (h.text i injection hi).1
  mail := (h.text i injection hi).2

/-! ### What the holder does -/

theorem injectionAt_setPhase (phase : Phase) (j : ℕ) :
    (s.setPhase i phase).injectionAt j =
      if j = i then s.calls[i]? >>= fun _ => phase.injection? else s.injectionAt j := by
  simp only [injectionAt, setPhase, modifyCall, List.getElem?_modify]
  by_cases hij : j = i
  · subst hij
    cases s.calls[j]? <;> simp
  · have hji : ¬ i = j := fun h => hij h.symm
    cases s.calls[j]? <;> simp [hij, hji]

theorem mailAt_setPhase (phase : Phase) (j : ℕ) : (s.setPhase i phase).mailAt j = s.mailAt j := by
  simp only [mailAt, setPhase, modifyCall, List.getElem?_modify]
  by_cases hij : i = j
  · cases s.calls[j]? <;> simp [hij]
  · cases s.calls[j]? <;> simp [hij]

@[simp] theorem write_calls (w : Write) : (s.write i w).calls = s.calls := by
  unfold write
  dsimp only
  split <;> rfl

@[simp] theorem write_trace (w : Write) : (s.write i w).trace = s.trace ++ [.wrote i w] := by
  unfold write
  dsimp only
  split <;> rfl

@[simp] theorem write_composer (w : Write) : (s.write i w).composer = w.composed s.composer := by
  unfold write
  dsimp only
  split <;> rfl

@[simp] theorem write_submitted (w : Write) : (s.write i w).submitted =
    if w = .submit then s.submitted ++ [(i, s.composer)] else s.submitted := by
  unfold write
  dsimp only
  split <;> rfl

@[simp] theorem write_injectionAt (w : Write) (j : ℕ) :
    (s.write i w).injectionAt j = s.injectionAt j := by
  rw [injectionAt, injectionAt, write_calls]

@[simp] theorem write_mailAt (w : Write) (j : ℕ) : (s.write i w).mailAt j = s.mailAt j := by
  rw [mailAt, mailAt, write_calls]

/-- A write of the holder, which keeps the composer or submits it. -/
theorem Undisturbed_write {w : Write} (h : Undisturbed deps s)
    (hopened : ∀ j, Open s.trace j → j = i)
    (hsubmit : w = .submit → ∃ mail, s.mailAt i = some mail ∧ s.composer = deps.composed mail) :
    Undisturbed deps (s.write i w) where
  exclusive := by
    rw [write_trace]
    refine h.exclusive.append fun j w' hw k hk => ?_
    obtain ⟨rfl, -⟩ := Mark.wrote.inj hw
    exact hopened k hk
  submits p hp := by
    rw [write_submitted] at hp
    rw [write_calls]
    split at hp
    · rename_i hw
      rcases List.mem_append.1 hp with hp | hp
      · exact h.submits p hp
      · obtain rfl := List.mem_singleton.1 hp
        obtain ⟨mail, hmail, htext⟩ := hsubmit hw
        obtain ⟨call, hcall, rfl⟩ := mailAt_eq_some.1 hmail
        exact ⟨call, hcall, htext⟩
    · exact h.submits p hp

theorem open_write {w : Write} {j : ℕ} (h : ∀ j, Open s.trace j → j = i)
    (hj : Open (s.write i w).trace j) : j = i := by
  rw [write_trace] at hj
  rcases hj.of_append with hj | ⟨w', hw⟩
  · exact h j hj
  · exact ((Mark.wrote.inj hw).1).symm

/-- A write that leaves the text in the composer. -/
theorem Holds.write {w : Write} (h : Holds deps i text s) (hw : w.composed text = text)
    (hsubmit : w ≠ .submit) : Holds deps i text (s.write i w) where
  undisturbed := Undisturbed_write h.undisturbed h.opened fun heq => absurd heq hsubmit
  alone j hj := h.alone j (by simpa using hj)
  opened j hj := open_write h.opened hj
  composer := by rw [write_composer, h.composer, hw]
  mail := by simpa using h.mail

/-- The first write of an injection on a clear pane. -/
theorem InTurn.begin (h : InTurn deps s) (hclear : s.Clear) {mail : DeliveredMail}
    (hmail : s.mailAt i = some mail) (htext : text = deps.composed mail) :
    Holds deps i text (s.write i (.payload false text)) := by
  have hnone : ∀ j, ¬ Open s.trace j := fun j hj => h.opened j hj (hclear.1 j)
  refine ⟨Undisturbed_write h.undisturbed (fun j hj => absurd hj (hnone j)) nofun,
    fun j hj => ?_, fun j hj => open_write (fun j hj => absurd hj (hnone j)) hj, ?_, ?_⟩
  · rw [write_injectionAt] at hj
    exact absurd (hclear.1 j) hj
  · rw [write_composer, hclear.2]
    rfl
  · exact ⟨mail, by simpa using hmail, htext⟩

theorem Holds.setPhase (h : Holds deps i text s) {injection : Injection}
    (ht : injection.text = text) : InTurn deps (s.setPhase i (.injecting injection)) where
  undisturbed := by
    refine ⟨h.undisturbed.exclusive, fun p hp => ?_⟩
    obtain ⟨call, hcall, htext⟩ := h.undisturbed.submits p hp
    obtain ⟨call', hcall', hmail⟩ := mailAt_eq_some.1
      ((mailAt_setPhase (.injecting injection) p.1).trans (mailAt_eq_some.2 ⟨call, hcall, rfl⟩))
    exact ⟨call', hcall', by rw [hmail, htext]⟩
  one j k hj hk := by
    have halone : ∀ l, (s.setPhase i (.injecting injection)).injectionAt l ≠ none → l = i := by
      intro l hl
      by_contra hne
      rw [injectionAt_setPhase, if_neg hne] at hl
      exact hne (h.alone l hl)
    rw [halone j hj, halone k hk]
  opened j hj := by
    obtain rfl := h.opened j hj
    obtain ⟨mail, hmail, -⟩ := h.mail
    obtain ⟨call, hcall, -⟩ := mailAt_eq_some.1 hmail
    rw [injectionAt_setPhase, if_pos rfl, hcall]
    simp [Phase.injection?]
  text j injection' hj := by
    have hij : j = i := by
      by_contra hne
      rw [injectionAt_setPhase, if_neg hne] at hj
      exact hne (h.alone j (by simp [hj]))
    subst hij
    obtain ⟨mail, hmail, htext⟩ := h.mail
    obtain ⟨call, hcall, -⟩ := mailAt_eq_some.1 hmail
    rw [injectionAt_setPhase, if_pos rfl, hcall] at hj
    obtain rfl : injection = injection' := by simpa [Phase.injection?] using hj
    rw [mailAt_setPhase]
    exact ⟨h.composer.trans ht.symm, mail, hmail, ht.trans htext⟩

/-- The only injection that was under way settles. -/
theorem inTurn_settle {result : Except String Unit} (h : Undisturbed deps s)
    (halone : ∀ j, s.injectionAt j ≠ none → j = i) (hopened : ∀ j, Open s.trace j → j = i) :
    InTurn deps (s.settle i result) := by
  have hnone : ∀ j, (s.settle i result).injectionAt j = none := by
    intro j
    unfold settle
    rw [injectionAt_setPhase]
    split
    · cases s.calls[i]? <;> rfl
    · rename_i hne
      by_contra hj
      exact hne (halone j hj)
  refine ⟨⟨?_, fun p hp => ?_⟩, fun j k hj => absurd (hnone j) hj, fun j hj => ?_,
    fun j injection hj => ?_⟩
  · exact h.exclusive.append fun j w hw => by cases hw
  · obtain ⟨call, hcall, htext⟩ := h.submits p hp
    obtain ⟨call', hcall', hmail⟩ := mailAt_eq_some.1
      ((mailAt_setPhase (i := i) (s := s) (.injected result) p.1).trans
        (mailAt_eq_some.2 ⟨call, hcall, rfl⟩))
    exact ⟨call', hcall', by rw [hmail, htext]⟩
  · obtain ⟨hj, hne⟩ := Open.of_settled (j := i) hj
    exact absurd (hopened j hj) hne
  · rw [hnone j] at hj
    cases hj

theorem Holds.refuse (h : Holds deps i text s) (error : String) :
    InTurn deps (s.settle i (.error error)) :=
  inTurn_settle h.undisturbed h.alone h.opened

theorem Holds.enter (h : Holds deps i text s) :
    InTurn deps ((s.write i .submit).settle i (.ok ())) := by
  refine inTurn_settle (Undisturbed_write h.undisturbed h.opened fun _ => ?_)
    (fun j hj => h.alone j (by simpa using hj)) fun j hj => open_write h.opened hj
  obtain ⟨mail, hmail, htext⟩ := h.mail
  exact ⟨mail, hmail, h.composer.trans htext⟩

theorem Holds.retry (h : Holds deps i text s) (hpaste : Pty.usePaste text = false) :
    Holds deps i text (s.write i (.payload true text)) := by
  refine h.write ?_ nofun
  rw [Write.composed, Pty.clearLine_eq_nil hpaste, List.nil_append]

theorem Holds.perform (h : Holds deps i text s) {done : List Write × Progress}
    (hdone : Pty.Injection.Does text done.1 done.2) : InTurn deps (s.perform i done) := by
  obtain ⟨writes, progress⟩ := done
  cases hdone with
  | waits injection ht => exact h.setPhase ht
  | retries injection ht hp => exact (h.retry hp).setPhase ht
  | retriesAndSubmits hp => exact (h.retry hp).enter
  | submits => exact h.enter
  | refuses error => exact h.refuse error

/-! ### Steps -/

/-- What `injectMail` puts into the composer is the mail's payload. -/
theorem eq_composed {mail : DeliveredMail} {written : Except String Text} {composed : Text}
    (h : Pty.composerText deps.options (deps.codexHandoff mail written)
      (deps.renderMail mail) = .ok composed) : composed = deps.composed mail := by
  have hplain : ∀ text composed : Text, Pty.plainText text = .ok composed →
      composed = text ∧ Pty.normalizeStartupOutput text ≠ [] := by
    intro text composed h
    unfold Pty.plainText at h
    split at h
    · cases h
    · rename_i hne
      exact ⟨(Except.ok.inj h).symm, hne⟩
  cases hprovider : deps.provider with
  | claude =>
    have hnone : deps.codexHandoff mail written = none := by simp [InjectDeps.codexHandoff, hprovider]
    rw [hnone] at h
    rw [(hplain _ _ h).1]
    simp [InjectDeps.composed, InjectDeps.diverts, hprovider]
  | codex =>
    simp only [InjectDeps.codexHandoff, hprovider, if_true, Pty.composerText,
      InjectDeps.options, decide_true, Bool.true_and] at h
    split at h
    · rename_i hempty
      exact absurd hempty (hplain _ _ h).2
    · rename_i hne
      split at h
      · rename_i hpaste
        obtain ⟨path, -, h⟩ := Fallible.bind_eq_ok.1 h
        obtain ⟨-, -, h⟩ := Fallible.bind_eq_ok.1 h
        rw [(hplain _ _ h).1]
        simp [InjectDeps.composed, InjectDeps.diverts, hprovider, hpaste, hne]
      · rename_i hpaste
        rw [(hplain _ _ h).1]
        simp [InjectDeps.composed, InjectDeps.diverts, hpaste]

/-- A call that has not written settles. -/
theorem InTurn.settle (h : InTurn deps s) {result : Except String Unit}
    (hi : s.injectionAt i = none) : InTurn deps (s.settle i result) := by
  have hf : Frame s (s.setPhase i (.injected result)) := Frame.setPhase hi rfl
  have hset := h.frame hf
  refine ⟨⟨?_, hset.undisturbed.submits⟩, hset.one, fun j hj => ?_, hset.text⟩
  · exact h.undisturbed.exclusive.append fun j w hw => by cases hw
  · exact hset.opened j (Open.of_settled (j := i) hj).1

theorem InTurn.injectMail (h : InTurn deps s) {mail : DeliveredMail} {seams : Seams}
    (hmail : s.mailAt i = some mail) (hi : s.injectionAt i = none)
    (hbegins : Begins deps mail seams s) : InTurn deps (s.injectMail deps i seams mail) := by
  have hrecorded : ∀ recorded : WarmPane, Frame s recorded →
      InTurn deps (recorded.injectComposed deps i (Pty.composerText deps.options
        (deps.codexHandoff mail seams.written) (deps.renderMail mail))) := by
    intro recorded hf
    cases hcomposed : Pty.composerText deps.options (deps.codexHandoff mail seams.written)
        (deps.renderMail mail) with
    | error error => exact (h.frame hf).settle ((hf.injectionAt i).trans hi)
    | ok composed =>
      obtain ⟨hclear, hmax⟩ := hbegins ⟨composed, hcomposed⟩
      have hclear' : recorded.Clear :=
        ⟨fun j => (hf.injectionAt j).trans (hclear.1 j), hf.composer.trans hclear.2⟩
      have hholds := (h.frame hf).begin hclear' (hf.mailAt i mail hmail) (eq_composed hcomposed)
      dsimp only [injectComposed]
      have hmax' : 0 < deps.options.maxEchoAttempts := hmax
      obtain ⟨injection, ht, hinject⟩ | hinject := Pty.inject_eq composed hmax'
      · rw [hinject]
        exact hholds.setPhase ht
      · rw [hinject]
        exact hholds.enter
  unfold WarmPane.injectMail
  dsimp only
  split
  · exact hrecorded _ Frame.recordHandoff
  · exact hrecorded s (Frame.refl s)

theorem injectionAt_eq_none {call : Call} (hcall : s.calls[i]? = some call)
    (hphase : call.phase.injection? = none) : s.injectionAt i = none := by
  rw [injectionAt, hcall]
  exact hphase

theorem frame_append (call : Call) (hphase : call.phase.injection? = none)
    (hc : s'.calls = s.calls ++ [call]) (ht : s'.trace = s.trace)
    (hcomposer : s'.composer = s.composer) (hsubmitted : s'.submitted = s.submitted) :
    Frame s s' := by
  refine ⟨ht, hcomposer, hsubmitted, fun i => ?_, fun i mail h => ?_⟩
  · rw [injectionAt, injectionAt, hc, List.getElem?_append]
    split
    · rfl
    · rename_i hlt
      rw [List.getElem?_eq_none (Nat.le_of_not_lt hlt)]
      cases i - s.calls.length with
      | zero => exact hphase
      | succ n => rfl
  · obtain ⟨call', hcall', hmail⟩ := mailAt_eq_some.1 h
    refine mailAt_eq_some.2 ⟨call', ?_, hmail⟩
    rw [hc, List.getElem?_append_left (List.getElem?_eq_some_iff.1 hcall').1]
    exact hcall'

/-- A chunk of output reaches call `i`. -/
theorem InTurn.hear (h : InTurn deps s) (chunk : Text) : InTurn deps (s.hear i chunk) := by
  unfold WarmPane.hear
  split
  · rename_i source mail injection handoff hcall
    have hi : s.injectionAt i = some injection := by rw [injectionAt, hcall]; rfl
    have hanswers : ∀ (writes : List Write), (∀ w ∈ writes, ∃ bytes, w = .answer bytes) →
        ∀ t : WarmPane, Holds deps i injection.text t →
          Holds deps i injection.text (writes.foldl (fun t w => t.write i w) t) := by
      intro writes
      induction writes with
      | nil => exact fun _ t ht => ht
      | cons w writes ih =>
        intro hw t ht
        obtain ⟨bytes, rfl⟩ := hw w List.mem_cons_self
        exact ih (fun w' hw' => hw w' (List.mem_cons_of_mem _ hw')) _ (ht.write rfl nofun)
    exact (hanswers _ (fun w hw => injection.onData_writes hw) s (h.holds hi)).setPhase
      (injection.onData_text chunk)
  · rename_i source mail dialogs handoff hcall
    have hi : s.injectionAt i = none := injectionAt_eq_none hcall rfl
    dsimp only
    obtain ⟨dialogs', answer⟩ := dialogs.onData chunk
    have hf : ∀ marks, Frame { s with trace := s.trace ++ marks }
        (WarmPane.setPhase i { s with trace := s.trace ++ marks } (.observing dialogs')) :=
      fun marks => Frame.setPhase hi rfl
    refine InTurn.frame ?_ (hf _)
    cases answer with
    | none =>
      rw [Option.toList_none, List.map_nil, List.append_nil]
      exact h
    | some bytes =>
      refine ⟨⟨?_, h.undisturbed.submits⟩, h.one, fun j hj => ?_, h.text⟩
      · exact h.undisturbed.exclusive.append fun j w hw => by cases hw
      · have hj' : Open (s.trace ++ [.watched i (.answer bytes)]) j := hj
        obtain hj | ⟨w, hw⟩ := hj'.of_append
        · exact h.opened j hj
        · cases hw
  · exact h

theorem Frame_resume {seams : Seams} (hi : s.injectionAt i = none) :
    Frame s (s.resume deps i seams) := by
  unfold WarmPane.resume
  split
  · rename_i source mail injection handoff hcall
    rw [injectionAt, hcall] at hi
    cases hi
  · exact Frame.setPhase hi rfl
  · exact Frame.failTurn hi
  · exact Frame.finishTurn hi
  · exact Frame.routeEnd hi
  · exact Frame.refl s

theorem InTurn.resume (h : InTurn deps s) {seams : Seams} :
    InTurn deps (s.resume deps i seams) := by
  cases hi : s.injectionAt i with
  | none => exact h.frame (Frame_resume hi)
  | some injection =>
    obtain ⟨⟨source, mail, phase, handoff⟩, hcall, hphase⟩ := Option.bind_eq_some_iff.1 hi
    cases phase <;> try cases hphase
    unfold WarmPane.resume
    rw [hcall]
    exact (h.holds hi).perform injection.resume_does

theorem InTurn.delay (h : InTurn deps s) : InTurn deps (s.delay i) := by
  unfold WarmPane.delay
  split
  · rename_i source mail injection handoff hcall
    have hi : s.injectionAt i = some injection := by rw [injectionAt, hcall]; rfl
    exact (h.holds hi).setPhase rfl
  · exact h

theorem Frame_observe {seams : Seams} {seen : Except String TurnObservation} :
    Frame s (s.observe deps i seams seen) := by
  unfold WarmPane.observe
  split
  · rename_i mail dialogs handoff hcall
    have hi : s.injectionAt i = none := injectionAt_eq_none hcall rfl
    have hover : (s.turnOver i).injectionAt i = none := (Frame.turnOver.injectionAt i).trans hi
    cases seen with
    | error error => exact Frame.turnOver.trans (Frame.failTurn hover)
    | ok seen => exact Frame.turnOver.trans (Frame.turnEnd hover)
  · exact Frame.refl s

theorem InTurn.routeInject (h : InTurn deps s) {seams : Seams} {mail : DeliveredMail}
    (hmail : s.mailAt i = some mail) (hi : s.injectionAt i = none)
    (hbegins : s.hosted = true → Begins deps mail seams s) :
    InTurn deps (s.routeInject deps i seams mail) := by
  unfold WarmPane.routeInject
  split
  · rename_i hhosted
    have hf : Frame s { s with routeInjectInFlight := s.routeInjectInFlight + 1 } :=
      Frame.of_calls rfl rfl rfl rfl
    exact (h.frame hf).injectMail hmail hi (hbegins hhosted)
  · exact h.frame (Frame.setPhase hi rfl)

theorem injectionAt_of_due (h : s.due i = true) : s.injectionAt i = none := by
  unfold due at h
  split at h
  · rename_i sender mail handoff hcall
    exact injectionAt_eq_none hcall rfl
  · cases h

/-- What an orderly step preserves. -/
theorem InTurn.step {op : WarmOp} (horderly : Orderly deps op s) (h : InTurn deps s) :
    InTurn deps (s.step deps op) := by
  cases op with
  | runOneTurn mail seams =>
    have hf : Frame s { s with
        calls := s.calls ++ [⟨.driven, mail, .queued, none⟩], turnInFlight := true } :=
      frame_append _ rfl rfl rfl rfl rfl
    refine (h.frame hf).injectMail ?_ ?_ fun hwrites => ?_
    · simp [mailAt]
    · simp [injectionAt, Phase.injection?]
    · obtain ⟨hclear, hmax⟩ := horderly hwrites
      exact ⟨⟨fun j => (hf.injectionAt j).trans (hclear.1 j), hclear.2⟩, hmax⟩
  | enqueueInject sender mail => exact h.frame (frame_append _ rfl rfl rfl rfl rfl)
  | routeInject i seams =>
    show InTurn deps (s.routeDue deps i seams)
    unfold routeDue
    split
    · rename_i call hcall
      have hmail : s.mailAt i = some call.mail := mailAt_eq_some.2 ⟨call, hcall, rfl⟩
      split
      · rename_i hdue
        exact h.routeInject hmail (injectionAt_of_due hdue) (horderly call.mail hmail hdue)
      · exact h
    · exact h
  | data chunk =>
    show InTurn deps (Run.after (fun i s => s.hear i chunk) (List.range s.calls.length) s)
    exact Run.always (InTurn deps) (fun i s hs => hs.hear chunk) h
  | delay i => exact h.delay
  | resume i seams => exact h.resume
  | observe i seams seen => exact h.frame Frame_observe
  | agentIdle => exact h.frame (Frame.of_calls rfl rfl rfl rfl)
  | release seams => exact h.frame Frame.release

end WarmPane

/-- While turns and deliveries begin one after the other, injections do not interleave and each
submit submits the payload of one mail. -/
theorem injections_undisturbed (deps : InjectDeps) (ops : List WarmOp)
    (horderly : Run.Guarded (WarmPane.step deps) (Orderly deps) ops .initial) :
    Undisturbed deps (Run.after (WarmPane.step deps) ops .initial) :=
  (Run.invariant (WarmPane.InTurn deps) (fun _ _ ho h => h.step ho) horderly
    .initial).undisturbed

/-! ## Two senders -/

/-- A mail of one letter. -/
def letter (seq : ℕ) (sender : String) : DeliveredMail where
  seq
  recipient := "builder"
  sender
  type := .clarifyRequest
  subject := ""
  body := ""
  correlationId := none
  causationId := none
  idempotencyKey := none
  ts := 0
  decision := none
  reviewVerdict := none

/-- A claude pane that is sent letters. -/
def letterDeps : InjectDeps where
  provider := .claude
  renderMail mail := if mail.seq = 1 then ['a'] else ['b']

/-- Seams that always answer. -/
def willing : Seams := ⟨.ok [], true, .ok ()⟩

theorem injections_undisturbed_turn_and_delivery :
    Undisturbed letterDeps (Run.after (WarmPane.step letterDeps)
      [.enqueueInject "scout" (letter 2 "scout"), .runOneTurn (letter 1 "lead") willing,
        .data ['a'], .resume 1 willing, .routeInject 0 willing, .data ['b'], .resume 0 willing]
      .initial) := by
  refine injections_undisturbed letterDeps _
    ⟨trivial, fun _ => ⟨⟨fun i => ?_, rfl⟩, by decide⟩, trivial, trivial,
      fun mail _ _ _ _ => ⟨⟨fun i => ?_, by decide +kernel⟩, by decide⟩, trivial, trivial, trivial⟩
  · match i with
    | 0 => rfl
    | i + 1 => rfl
  · match i with
    | 0 => decide +kernel
    | 1 => decide +kernel
    | i + 2 => rfl

/-- Two senders deliver to one pane. The second payload is written before the first injection has
ended, and the first submit sends both. -/
theorem two_senders_interleave :
    ¬ Undisturbed letterDeps (Run.after (WarmPane.step letterDeps)
      [.enqueueInject "scout" (letter 1 "scout"), .enqueueInject "tester" (letter 2 "tester"),
        .routeInject 0 willing, .routeInject 1 willing, .data ['a', 'b'], .resume 0 willing]
      .initial) ∧
    (Run.after (WarmPane.step letterDeps)
      [.enqueueInject "scout" (letter 1 "scout"), .enqueueInject "tester" (letter 2 "tester"),
        .routeInject 0 willing, .routeInject 1 willing, .data ['a', 'b'], .resume 0 willing]
      .initial).submitted = [(0, ['a', 'b'])] := by
  refine ⟨fun h => ?_, by decide +kernel⟩
  have hmid := h.exclusive [] [] [.wrote 0 .submit, .settled 0] 0 1
    (.payload false ['a']) (.payload false ['b']) (by decide +kernel) (by decide)
  cases hmid

end Orchestration.Conductor
