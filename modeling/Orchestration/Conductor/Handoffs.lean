import Orchestration.Conductor.CodexHandoff
import Orchestration.Conductor.Injections

/-!
# Handoff pointers

A pointer is good for the agent while its launch gave it the path and the file
keeps the mail's text. The files are shared by all calls on the pane, and each call
that ends takes a file away, whoever uses it.
-/

namespace Orchestration.Conductor

open Mail (DeliveredMail)
open Pty (Text Write Progress Injection)
open Session (isTurnKickoffMail)

namespace WarmPane

variable (s : WarmPane)

/-- Call `i` has the file in use, from its write to the end of its turn. -/
def Uses (i : ℕ) (file : HandoffFile) : Prop := ∃ text, s.handoffOf i = some (file, text)

/-- No call but `i` has the file in use. -/
def FreeBut (i : ℕ) (file : HandoffFile) : Prop := ∀ j, s.Uses j file → j = i

/-- The files that the end of call `i` takes away are free, and the routed one can be removed. -/
structure LetsGo (seams : Seams) (i : ℕ) : Prop where
  routed : s.FreeBut i .routed
  kickoff : ∀ mail, s.mailAt i = some mail → isTurnKickoffMail mail = true → s.FreeBut i .kickoff
  removes : s.active .routed = true → seams.removes = true

end WarmPane

/-- Whether the next step of a call takes its handoff file away. -/
def Call.closes (call : Call) : Bool :=
  match call.source, call.phase with
  | .driven, .injected (.error _) => true
  | .driven, .capturingCost => true
  | .driven, .observing _ => true
  | .routed _, .injected _ => true
  | _, _ => false

/-- Handoff files are used by driven turns only, one call at a time, and no mail is diverted to a
file that the launch did not provide. -/
def Careful (launch : Launch) (identity : PaneIdentity) (deps : InjectDeps) (op : WarmOp)
    (s : WarmPane) : Prop :=
  match op with
  | .runOneTurn mail seams => deps.diverts mail = true → seams.written.isOk = true →
    launch.provides identity (handoffFile mail) = true ∧ ∀ j, ¬ s.Uses j (handoffFile mail)
  | .routeInject i seams => ∀ mail, s.mailAt i = some mail → s.due i = true → s.hosted = true →
    ¬ (deps.diverts mail = true ∧ seams.written.isOk = true)
  | .resume i seams => ∀ call, s.calls[i]? = some call → call.closes = true → s.LetsGo seams i
  | .observe i seams _ => ∀ call, s.calls[i]? = some call → call.closes = true → s.LetsGo seams i
  | .release seams => s.active .routed = true → seams.removes = true
  | _ => True

/-- The pointers that the agent was given are good for it. -/
structure Readable (identity : PaneIdentity) (env : Env) (deps : InjectDeps) (s : WarmPane) :
    Prop where
  /-- The variable of each pointer names the path that its text was written to. -/
  points : ∀ p ∈ s.pointed, Points identity env p.file
  /-- What was written there is the mail's text. -/
  texts : ∀ p ∈ s.pointed, ∃ mail, s.mailAt p.call = some mail ∧ p.file = handoffFile mail ∧
    p.text = deps.renderMail mail
  /-- Until the end of the turn, the file holds that text. -/
  keeps : ∀ p ∈ s.reading, s.files p.file = some p.text
  /-- No routed file outlives the turn that uses it. -/
  scrubbed : (∀ i, ¬ s.Uses i .routed) → s.files .routed = none

/-! ## The invariant -/

/-- The agent may have been given the pointer of a call in this phase. -/
def Phase.Given : Phase → Prop
  | .injected (.ok ()) => True
  | .observing _ => True
  | _ => False

namespace WarmPane

/-- Every file in use holds its call's text, except that call `off` is about to let its own go. -/
structure KeepsBut (deps : InjectDeps) (set : HandoffFile → Prop) (off : Option ℕ)
    (s : WarmPane) : Prop where
  owner : ∀ (i : ℕ) (call : Call) (file : HandoffFile) (text : Text), s.calls[i]? = some call →
    call.handoff = some (file, text) → deps.provider = .codex ∧ call.source = .driven ∧
      file = handoffFile call.mail ∧ text = deps.renderMail call.mail ∧ set file
  kept : s.killed = false → ∀ (i : ℕ) (file : HandoffFile) (text : Text), s.handoffOf i = some (file, text) →
    some i ≠ off → s.files file = some text
  reads : ∀ p ∈ s.reading, s.killed = false ∧ some p.call ≠ off ∧
    ∃ call : Call, s.calls[p.call]? = some call ∧ call.handoff = some (p.file, p.text) ∧
      call.phase.Given
  left : s.files .routed ≠ none → deps.provider = .codex ∧ s.active .routed = true ∧
    ∃ i, s.Uses i .routed
  pointed : ∀ p ∈ s.pointed, set p.file ∧ ∃ mail, s.mailAt p.call = some mail ∧
    p.file = handoffFile mail ∧ p.text = deps.renderMail mail

abbrev Keeps (deps : InjectDeps) (set : HandoffFile → Prop) (s : WarmPane) : Prop :=
  KeepsBut deps set none s

section

variable {deps : InjectDeps} {set : HandoffFile → Prop} {off : Option ℕ} {s s' : WarmPane}
  {seams : Seams} {i : ℕ}

theorem getElem?_modifyCall (f : Call → Call) (j : ℕ) : (s.modifyCall i f).calls[j]? =
    (s.calls[j]?).map fun call => if j = i then f call else call := by
  simp only [modifyCall, List.getElem?_modify]
  by_cases hij : i = j
  · simp [hij]
  · have hji : ¬ j = i := fun h => hij h.symm
    cases s.calls[j]? <;> simp [hij, hji]

theorem KeepsBut.initial : Keeps deps set WarmPane.initial where
  owner i call file text hcall := by cases hcall
  kept _ i file text h := by cases h
  reads p hp := by cases hp
  left h := absurd rfl h
  pointed p hp := by cases hp

theorem KeepsBut.readable {identity : PaneIdentity} {env : Env}
    (h : Keeps deps (Points identity env) s) : Readable identity env deps s where
  points p hp := (h.pointed p hp).1
  texts p hp := (h.pointed p hp).2
  keeps p hp := by
    obtain ⟨hkilled, -, call, hcall, hhandoff, -⟩ := h.reads p hp
    refine h.kept hkilled p.call p.file p.text ?_ nofun
    rw [handoffOf, hcall]
    exact hhandoff
  scrubbed hfree := by
    by_contra hne
    obtain ⟨-, -, i, hi⟩ := h.left hne
    exact hfree i hi

/-- A change of other fields. -/
theorem KeepsBut.congr (h : KeepsBut deps set off s) (hc : s'.calls = s.calls)
    (hf : s'.files = s.files) (ha : s'.active = s.active) (hr : s'.reading = s.reading)
    (hp : s'.pointed = s.pointed) (hk : s'.killed = s.killed) : KeepsBut deps set off s' := by
  have hhandoff : ∀ i, s'.handoffOf i = s.handoffOf i := fun i => by rw [handoffOf, handoffOf, hc]
  have hmail : ∀ i, s'.mailAt i = s.mailAt i := fun i => by rw [mailAt, mailAt, hc]
  refine ⟨?_, ?_, ?_, ?_, ?_⟩
  · rw [hc]
    exact h.owner
  · rw [hk, hf]
    intro hkilled i file text hi hoff
    exact h.kept hkilled i file text (by rw [← hhandoff, hi]) hoff
  · rw [hr, hc, hk]
    exact h.reads
  · rw [hf, ha]
    intro hne
    obtain ⟨hprovider, hactive, i, text, hi⟩ := h.left hne
    exact ⟨hprovider, hactive, i, text, by rw [hhandoff, hi]⟩
  · rw [hp]
    intro p hmem
    obtain ⟨hset, mail, hm⟩ := h.pointed p hmem
    exact ⟨hset, mail, by rw [hmail]; exact hm⟩

/-- Call `i` changes its phase; a pointer that it gave stays given. -/
theorem KeepsBut.setPhase (h : KeepsBut deps set off s) {phase : Phase}
    (hgiven : (∃ p ∈ s.reading, p.call = i) → phase.Given) :
    KeepsBut deps set off (s.setPhase i phase) := by
  have hcalls := getElem?_modifyCall (s := s) (i := i) fun call => { call with phase }
  have hhandoff : ∀ j, (s.setPhase i phase).handoffOf j = s.handoffOf j := by
    intro j
    rw [handoffOf, handoffOf, WarmPane.setPhase, hcalls]
    cases s.calls[j]? with
    | none => rfl
    | some call => by_cases hji : j = i <;> simp [hji]
  refine ⟨fun j call file text hcall hcallHandoff => ?_, fun hkilled j file text hj hoff => ?_,
    fun p hp => ?_, fun hne => ?_, fun p hp => ?_⟩
  · rw [WarmPane.setPhase, hcalls, Option.map_eq_some_iff] at hcall
    obtain ⟨call', hcall', rfl⟩ := hcall
    by_cases hji : j = i
    · simp only [hji, if_true] at hcallHandoff ⊢
      exact h.owner j call' file text hcall' hcallHandoff
    · simp only [hji, if_false] at hcallHandoff ⊢
      exact h.owner j call' file text hcall' hcallHandoff
  · rw [hhandoff] at hj
    exact h.kept hkilled j file text hj hoff
  · obtain ⟨hkilled, hoff, call, hcall, hcallHandoff, hphase⟩ := h.reads p hp
    refine ⟨hkilled, hoff, if p.call = i then { call with phase } else call, ?_, ?_, ?_⟩
    · rw [WarmPane.setPhase, hcalls, hcall]
      rfl
    · by_cases hi : p.call = i <;> simp only [hi, if_true, if_false] <;> exact hcallHandoff
    · by_cases hi : p.call = i
      · simp only [hi, if_true]
        exact hgiven ⟨p, hp, hi⟩
      · simp only [hi, if_false]
        exact hphase
  · obtain ⟨hprovider, hactive, j, text, hj⟩ := h.left hne
    exact ⟨hprovider, hactive, j, text, by rw [hhandoff, hj]⟩
  · obtain ⟨hset, mail, hm⟩ := h.pointed p hp
    exact ⟨hset, mail, by rw [mailAt_setPhase]; exact hm⟩

/-! ### Taking files away -/

theorem KeepsBut.excluding (h : Keeps deps set s) (hno : ∀ p ∈ s.reading, p.call ≠ i) :
    KeepsBut deps set (some i) s where
  owner := h.owner
  kept hkilled j file text hj _ := h.kept hkilled j file text hj nofun
  reads p hp := by
    obtain ⟨hkilled, -, hcall⟩ := h.reads p hp
    exact ⟨hkilled, fun heq => hno p hp (Option.some.inj heq), hcall⟩
  left := h.left
  pointed := h.pointed

@[simp] theorem scrub_calls (file : HandoffFile) :
    (s.scrub deps seams file).calls = s.calls := by
  unfold scrub
  split <;> rfl

@[simp] theorem scrub_reading (file : HandoffFile) :
    (s.scrub deps seams file).reading = s.reading := by
  unfold scrub
  split <;> rfl

@[simp] theorem scrub_pointed (file : HandoffFile) :
    (s.scrub deps seams file).pointed = s.pointed := by
  unfold scrub
  split <;> rfl

@[simp] theorem scrub_killed (file : HandoffFile) :
    (s.scrub deps seams file).killed = s.killed := by
  unfold scrub
  split <;> rfl

theorem scrub_files_of_ne {file file' : HandoffFile} (hne : file' ≠ file) :
    (s.scrub deps seams file).files file' = s.files file' := by
  unfold scrub
  split
  · dsimp only
    split
    · exact Function.update_of_ne hne _ _
    · rfl
  · rfl

theorem scrub_active_of_ne {file file' : HandoffFile} (hne : file' ≠ file) :
    (s.scrub deps seams file).active file' = s.active file' := by
  unfold scrub
  split
  · exact Function.update_of_ne hne _ _
  · rfl

theorem active_of_scrub {file file' : HandoffFile}
    (h : (s.scrub deps seams file).active file' = true) : s.active file' = true := by
  by_cases hne : file' = file
  · subst hne
    unfold scrub at h
    split at h
    · simp at h
    · exact h
  · rwa [scrub_active_of_ne hne] at h

theorem uses_scrub {file file' : HandoffFile} {j : ℕ} :
    (s.scrub deps seams file).Uses j file' ↔ s.Uses j file' := by
  simp only [Uses, handoffOf, scrub_calls]

theorem LetsGo.scrub (h : s.LetsGo seams i) {file : HandoffFile} :
    (s.scrub deps seams file).LetsGo seams i where
  routed j hj := h.routed j (uses_scrub.1 hj)
  kickoff mail hmail hkickoff j hj := by
    rw [mailAt, scrub_calls] at hmail
    exact h.kickoff mail hmail hkickoff j (uses_scrub.1 hj)
  removes hactive := h.removes (active_of_scrub hactive)

/-- The routed file is gone once it has been scrubbed. -/
theorem KeepsBut.files_scrub (h : KeepsBut deps set off s)
    (hremoves : s.active .routed = true → seams.removes = true) :
    (s.scrub deps seams .routed).files .routed = none := by
  unfold scrub
  split
  · rename_i hactive
    simp [hremoves hactive.2]
  · rename_i hactive
    by_contra hne
    obtain ⟨hprovider, hact, -⟩ := h.left hne
    exact hactive ⟨hprovider, hact⟩

theorem KeepsBut.scrub (h : KeepsBut deps set off s) {file : HandoffFile}
    (hfree : s.killed = false → ∀ j, s.Uses j file → some j = off)
    (hremoves : file = .routed → s.active .routed = true → seams.removes = true) :
    KeepsBut deps set off (s.scrub deps seams file) := by
  have hhandoff : ∀ j, (s.scrub deps seams file).handoffOf j = s.handoffOf j := fun j => by
    rw [handoffOf, handoffOf, scrub_calls]
  refine ⟨?_, fun hkilled j file' text hj hoff => ?_, ?_, fun hne => ?_, ?_⟩
  · rw [scrub_calls]
    exact h.owner
  · rw [scrub_killed] at hkilled
    rw [hhandoff] at hj
    have hother : file' ≠ file := fun heq => hoff (hfree hkilled j ⟨text, heq ▸ hj⟩)
    rw [scrub_files_of_ne hother]
    exact h.kept hkilled j file' text hj hoff
  · rw [scrub_reading, scrub_calls, scrub_killed]
    exact h.reads
  · cases file with
    | routed => exact absurd (h.files_scrub (hremoves rfl)) hne
    | kickoff =>
      rw [scrub_files_of_ne (by decide)] at hne
      obtain ⟨hprovider, hactive, j, text, hj⟩ := h.left hne
      exact ⟨hprovider, (scrub_active_of_ne (by decide)).trans hactive, j, text, by rw [hhandoff, hj]⟩
  · rw [scrub_pointed]
    intro p hp
    obtain ⟨hset, mail, hm⟩ := h.pointed p hp
    exact ⟨hset, mail, by rw [mailAt, scrub_calls]; exact hm⟩

/-- The call whose file is gone no longer uses it. -/
theorem KeepsBut.dropHandoff (h : KeepsBut deps set (some i) s) (hgone : s.files .routed = none) :
    Keeps deps set (s.dropHandoff i) := by
  have hcalls := getElem?_modifyCall (s := s) (i := i) fun call => { call with handoff := none }
  have hhandoff : ∀ j file text, (s.dropHandoff i).handoffOf j = some (file, text) →
      j ≠ i ∧ s.handoffOf j = some (file, text) := by
    intro j file text hj
    rw [handoffOf, WarmPane.dropHandoff, hcalls] at hj
    cases hcall : s.calls[j]? with
    | none =>
      rw [hcall] at hj
      cases hj
    | some call =>
      rw [hcall] at hj
      by_cases hji : j = i
      · simp [hji] at hj
      · refine ⟨hji, ?_⟩
        rw [handoffOf, hcall]
        simpa [hji] using hj
  refine ⟨fun j call file text hcall hcallHandoff => ?_, fun hkilled j file text hj _ => ?_,
    fun p hp => ?_, fun hne => absurd hgone hne, fun p hp => ?_⟩
  · rw [WarmPane.dropHandoff, hcalls, Option.map_eq_some_iff] at hcall
    obtain ⟨call', hcall', rfl⟩ := hcall
    by_cases hji : j = i
    · simp [hji] at hcallHandoff
    · simp only [hji, if_false] at hcallHandoff ⊢
      exact h.owner j call' file text hcall' hcallHandoff
  · obtain ⟨hji, hj⟩ := hhandoff j file text hj
    exact h.kept hkilled j file text hj fun heq => hji (Option.some.inj heq)
  · obtain ⟨hkilled, hoff, call, hcall, hrest⟩ := h.reads p hp
    have hji : ¬ p.call = i := fun heq => hoff (congrArg some heq)
    refine ⟨hkilled, nofun, call, ?_, hrest⟩
    rw [WarmPane.dropHandoff, hcalls, hcall]
    simp [hji]
  · obtain ⟨hset, mail, hm, hrest⟩ := h.pointed p hp
    exact ⟨hset, mail, Frame.dropHandoff.mailAt _ _ hm, hrest⟩

theorem KeepsBut.finalizeRelease (h : Keeps deps set s)
    (hremoves : s.active .routed = true → seams.removes = true) :
    Keeps deps set (s.finalizeRelease deps seams) := by
  have hcomm : ∀ (t : WarmPane) (file : HandoffFile),
      { t.scrub deps seams file with killed := true, reading := [] } =
        WarmPane.scrub deps { t with killed := true, reading := [] } seams file := by
    intro t file
    unfold WarmPane.scrub
    dsimp only
    split <;> rfl
  have hkilled : Keeps deps set { s with killed := true, reading := [] } :=
    ⟨h.owner, fun hfalse => (by cases hfalse), fun p hp => (by cases hp), h.left, h.pointed⟩
  unfold WarmPane.finalizeRelease
  dsimp only
  rw [hcomm, hcomm]
  have hkickoff : Keeps deps set
      (WarmPane.scrub deps { s with killed := true, reading := [] } seams .kickoff) :=
    hkilled.scrub (fun hfalse => (by cases hfalse)) nofun
  refine hkickoff.scrub (fun hfalse => ?_) fun _ hact => ?_
  · rw [scrub_killed] at hfalse
    cases hfalse
  · have hactive := active_of_scrub hact
    exact hremoves hactive

/-- A call whose pointer is no longer read comes to the end of its turn. -/
theorem KeepsBut.finishTurn (h : KeepsBut deps set (some i) s) (hfree : s.FreeBut i .routed)
    (hremoves : s.active .routed = true → seams.removes = true) {result : Except String Unit} :
    Keeps deps set (s.finishTurn deps i seams result) := by
  have hscrubbed := h.scrub (fun _ j hj => congrArg some (hfree j hj)) fun _ => hremoves
  have hdropped := hscrubbed.dropHandoff (h.files_scrub hremoves)
  have hended : Keeps deps set
      (((s.scrub deps seams .routed).dropHandoff i).setPhase i (.ended result)) := by
    refine hdropped.setPhase ?_
    rintro ⟨p, hp, hpi⟩
    exact absurd (congrArg some hpi) (hscrubbed.reads p hp).2.1
  unfold WarmPane.finishTurn
  dsimp only
  split
  · exact KeepsBut.finalizeRelease (hended.congr rfl rfl rfl rfl rfl rfl) fun hact =>
      hremoves (active_of_scrub hact)
  · exact hended.congr rfl rfl rfl rfl rfl rfl

theorem KeepsBut.failTurn (h : KeepsBut deps set (some i) s) {mail : DeliveredMail}
    (hmail : s.mailAt i = some mail) (hgo : s.LetsGo seams i) {error : String} :
    Keeps deps set (s.failTurn deps i seams mail error) := by
  unfold WarmPane.failTurn
  dsimp only
  split
  · rename_i hkickoff
    exact (h.scrub (fun _ j hj => congrArg some (hgo.kickoff mail hmail hkickoff j hj))
      nofun).finishTurn hgo.scrub.routed hgo.scrub.removes
  · exact h.finishTurn hgo.routed hgo.removes

theorem turnOver_handoff (j : ℕ) {file : HandoffFile} {text : Text} :
    (s.turnOver i).handoffOf j = some (file, text) ↔
      s.handoffOf j = some (file, text) ∧ (j = i → file ≠ .kickoff) := by
  rw [handoffOf, handoffOf, turnOver, getElem?_modifyCall]
  cases hcall : s.calls[j]? with
  | none => simp
  | some call =>
    by_cases hji : j = i
    · simp [hji, Option.filter_eq_some_iff]
    · simp [hji]

theorem turnOver_uses {j : ℕ} {file : HandoffFile} (h : (s.turnOver i).Uses j file) :
    s.Uses j file := by
  obtain ⟨text, h⟩ := h
  exact ⟨text, ((turnOver_handoff j).1 h).1⟩

/-- The turn of call `i` is over for the agent. -/
theorem KeepsBut.turnOver (h : Keeps deps set s) : Keeps deps set (s.turnOver i) where
  owner j call file text hcall hcallHandoff := by
    rw [WarmPane.turnOver, getElem?_modifyCall, Option.map_eq_some_iff] at hcall
    obtain ⟨call', hcall', rfl⟩ := hcall
    by_cases hji : j = i
    · simp only [hji, if_true, Option.filter_eq_some_iff] at hcallHandoff ⊢
      exact h.owner j call' file text hcall' hcallHandoff.1
    · simp only [hji, if_false] at hcallHandoff ⊢
      exact h.owner j call' file text hcall' hcallHandoff
  kept hkilled j file text hj _ := h.kept hkilled j file text ((turnOver_handoff j).1 hj).1 nofun
  reads p hp := by
    obtain ⟨hp, hpi⟩ := List.mem_filter.1 hp
    obtain ⟨hkilled, -, call, hcall, hrest⟩ := h.reads p hp
    have hne : ¬ p.call = i := by simpa using hpi
    refine ⟨hkilled, nofun, call, ?_, hrest⟩
    rw [WarmPane.turnOver, getElem?_modifyCall]
    simp [hcall, hne]
  left hne := by
    obtain ⟨hprovider, hactive, j, text, hj⟩ := h.left hne
    exact ⟨hprovider, hactive, j, text, (turnOver_handoff j).2 ⟨hj, nofun⟩⟩
  pointed p hp := by
    obtain ⟨hset, mail, hm, hrest⟩ := h.pointed p hp
    exact ⟨hset, mail, Frame.turnOver.mailAt _ _ hm, hrest⟩

theorem turnOver_reading {p : Pointer} (h : p ∈ (s.turnOver i).reading) : p.call ≠ i := by
  simpa using (List.mem_filter.1 h).2

theorem LetsGo.turnOver (h : s.LetsGo seams i) : (s.turnOver i).LetsGo seams i where
  routed j hj := h.routed j (turnOver_uses hj)
  kickoff mail hmail hkickoff j hj := by
    refine h.kickoff mail ?_ hkickoff j (turnOver_uses hj)
    have hcalls := hmail
    rw [mailAt, WarmPane.turnOver, getElem?_modifyCall] at hcalls
    rw [mailAt]
    cases hcall : s.calls[i]? with
    | none => simp [hcall] at hcalls
    | some call => simpa [hcall] using hcalls
  removes := h.removes

/-- What the turn of call `i` does after it was observed. -/
theorem KeepsBut.turnEnd (h : Keeps deps set s) (hno : ∀ p ∈ s.reading, p.call ≠ i)
    {mail : DeliveredMail} (hmail : s.mailAt i = some mail) (hgo : s.LetsGo seams i)
    (hkept : ¬ s.Uses i .kickoff) {seen : TurnObservation} :
    Keeps deps set (s.turnEnd deps i seams mail seen) := by
  have hconsumed : Keeps deps set (s.consumeOneShotKickoff deps seams mail).2 ∧
      (s.consumeOneShotKickoff deps seams mail).2.LetsGo seams i ∧
      (s.consumeOneShotKickoff deps seams mail).2.reading = s.reading ∧
      (s.consumeOneShotKickoff deps seams mail).2.mailAt i = some mail := by
    unfold consumeOneShotKickoff
    split
    · rename_i hkickoff
      refine ⟨h.scrub (fun _ j hj => ?_) nofun, hgo.scrub, scrub_reading _, ?_⟩
      · have hji := hgo.kickoff mail hmail hkickoff j hj
        exact absurd (hji ▸ hj) hkept
      · rw [mailAt, scrub_calls]
        exact hmail
    · exact ⟨h, hgo, rfl, hmail⟩
  obtain ⟨hkeeps, hgo', hreading, hmail'⟩ := hconsumed
  have hno' : ∀ p ∈ (s.consumeOneShotKickoff deps seams mail).2.reading, p.call ≠ i := by
    rw [hreading]
    exact hno
  unfold WarmPane.turnEnd
  split
  · exact (h.excluding hno).finishTurn hgo.routed hgo.removes
  · dsimp only
    split
    · exact (hkeeps.excluding hno').failTurn hmail' hgo'
    · split
      · refine hkeeps.setPhase ?_
        rintro ⟨p, hp, hpi⟩
        exact absurd hpi (hno' p hp)
      · exact (hkeeps.excluding hno').finishTurn hgo'.routed hgo'.removes

/-- The end of a delivery. -/
theorem KeepsBut.routeEnd (h : Keeps deps set s) (hno : ∀ p ∈ s.reading, p.call ≠ i)
    {mail : DeliveredMail} (hmail : s.mailAt i = some mail) (hgo : s.LetsGo seams i)
    {result : Except String Unit} : Keeps deps set (s.routeEnd deps i seams mail result) := by
  have hoff : KeepsBut deps set (some i) s := h.excluding hno
  have hkickoff : ∀ t : WarmPane, KeepsBut deps set (some i) t → t.LetsGo seams i →
      t.mailAt i = some mail → isTurnKickoffMail mail = true →
      KeepsBut deps set (some i) (t.scrub deps seams .kickoff) := fun t ht hgo hmail hk =>
    ht.scrub (fun _ j hj => congrArg some (hgo.kickoff mail hmail hk j hj)) nofun
  have hrouted : ∀ t : WarmPane, KeepsBut deps set (some i) t → t.LetsGo seams i →
      KeepsBut deps set (some i) (t.scrub deps seams .routed) ∧
        (t.scrub deps seams .routed).files .routed = none := fun t ht hgo =>
    ⟨ht.scrub (fun _ j hj => congrArg some (hgo.routed j hj)) fun _ => hgo.removes,
      ht.files_scrub hgo.removes⟩
  have hended : ∀ t : WarmPane, KeepsBut deps set (some i) t → t.files .routed = none →
      ∀ consumed : Except String Unit, Keeps deps set ((WarmPane.dropHandoff i
        { t with routeInjectInFlight := t.routeInjectInFlight - 1 }).setPhase i
        (.ended consumed)) := by
    intro t ht hgone consumed
    have hcounted : KeepsBut deps set (some i)
        { t with routeInjectInFlight := t.routeInjectInFlight - 1 } :=
      ht.congr rfl rfl rfl rfl rfl rfl
    refine (hcounted.dropHandoff hgone).setPhase ?_
    rintro ⟨p, hp, hpi⟩
    exact absurd (congrArg some hpi) (ht.reads p hp).2.1
  unfold WarmPane.routeEnd consumeOneShotKickoff
  cases result with
  | ok done =>
    obtain ⟨ht, hgone⟩ := hrouted s hoff hgo
    by_cases hk : isTurnKickoffMail mail = true
    · simp only [hk, Bool.false_and, Bool.false_eq_true, if_false, if_true]
      refine hended _ (hkickoff _ ht hgo.scrub ?_ hk) ?_ _
      · rw [mailAt, scrub_calls]
        exact hmail
      · rw [scrub_files_of_ne (by decide)]
        exact hgone
    · simp only [hk, Bool.false_and, Bool.false_eq_true, if_false]
      exact hended _ ht hgone _
  | error error =>
    by_cases hk : isTurnKickoffMail mail = true
    · simp only [hk, Bool.and_self, if_true]
      obtain ⟨ht, hgone⟩ := hrouted _ (hkickoff s hoff hgo hmail hk) hgo.scrub
      exact hended _ ht hgone _
    · simp only [hk, Bool.and_false, Bool.false_eq_true, if_false, if_true]
      obtain ⟨ht, hgone⟩ := hrouted s hoff hgo
      exact hended _ ht hgone _

/-! ### Giving pointers -/

/-- A call that has given no pointer is none that the agent reads. -/
theorem KeepsBut.not_reading (h : KeepsBut deps set off s)
    (hcall : ∀ call, s.calls[i]? = some call → ¬ call.phase.Given) :
    ∀ p ∈ s.reading, p.call ≠ i := by
  rintro p hp rfl
  obtain ⟨-, -, call, hcall', -, hphase⟩ := h.reads p hp
  exact hcall call hcall' hphase

theorem KeepsBut.write (h : KeepsBut deps set off s) {w : Write} (hw : w ≠ .submit) :
    KeepsBut deps set off (s.write i w) ∧ (s.write i w).reading = s.reading := by
  unfold WarmPane.write
  cases w with
  | submit => exact absurd rfl hw
  | payload retry text => exact ⟨h.congr rfl rfl rfl rfl rfl rfl, rfl⟩
  | answer bytes => exact ⟨h.congr rfl rfl rfl rfl rfl rfl, rfl⟩

theorem KeepsBut.writes {writes : List Write} (hw : .submit ∉ writes)
    (h : KeepsBut deps set off s) :
    KeepsBut deps set off (writes.foldl (fun s w => s.write i w) s) ∧
      (writes.foldl (fun s w => s.write i w) s).reading = s.reading := by
  induction writes generalizing s with
  | nil => exact ⟨h, rfl⟩
  | cons w writes ih =>
    obtain ⟨hne, hrest⟩ := not_or.1 fun hmem => hw (List.mem_cons.2 hmem)
    obtain ⟨hwritten, hreading⟩ := h.write (i := i) (Ne.symm hne)
    obtain ⟨hdone, hsame⟩ := ih hrest hwritten
    exact ⟨hdone, hsame.trans hreading⟩

theorem KeepsBut.settle (h : Keeps deps set s) {result : Except String Unit}
    (hgiven : (∃ p ∈ s.reading, p.call = i) → (Phase.injected result).Given) :
    Keeps deps set (s.settle i result) := by
  have hmarked : Keeps deps set { s with trace := s.trace ++ [.settled i] } :=
    h.congr rfl rfl rfl rfl rfl rfl
  exact hmarked.setPhase hgiven

/-- Enter submits the pointer of call `i`, whose file holds the text it points at. -/
theorem KeepsBut.enter (h : Keeps deps set s) :
    Keeps deps set ((s.write i .submit).settle i (.ok ())) := by
  cases hhandoff : s.handoffOf i with
  | none =>
    have hwritten : Keeps deps set (s.write i .submit) := by
      unfold WarmPane.write
      dsimp only
      split
      · rename_i file text hsubmit hsome
        have hnone : s.handoffOf i = some (file, text) := hsome
        rw [hhandoff] at hnone
        cases hnone
      · exact h.congr rfl rfl rfl rfl rfl rfl
    exact hwritten.settle fun _ => trivial
  | some handoff =>
    obtain ⟨file, text⟩ := handoff
    obtain ⟨call, hcall, hcallHandoff⟩ := Option.bind_eq_some_iff.1 hhandoff
    obtain ⟨-, -, hfile, htext, hset⟩ := h.owner i call file text hcall hcallHandoff
    have hwritten : s.write i .submit = WarmPane.point
        { s with
          trace := s.trace ++ [.wrote i .submit]
          composer := []
          submitted := s.submitted ++ [(i, s.composer)] } ⟨i, file, text⟩ := by
      unfold WarmPane.write
      dsimp only
      split
      · rename_i hsome
        have heq := hhandoff.symm.trans hsome
        simp only [Option.some.injEq, Prod.mk.injEq] at heq
        obtain ⟨rfl, rfl⟩ := heq
        rfl
      · rename_i hother
        exact absurd hhandoff (hother file text rfl)
    have hcalls := getElem?_modifyCall (s := s) (i := i)
      fun call => { call with phase := .injected (.ok ()) }
    -- The phase first: the pointer that is read is then one that was given.
    have hgiven : Keeps deps set (s.setPhase i (.injected (.ok ()))) := h.setPhase fun _ => trivial
    rw [hwritten]
    refine ⟨hgiven.owner, hgiven.kept, fun p hp => ?_, hgiven.left, fun p hp => ?_⟩
    · have hread : p ∈ s.reading ∨ s.killed = false ∧ p = ⟨i, file, text⟩ := by
        change p ∈ (if s.killed = true then s.reading else s.reading ++ [⟨i, file, text⟩]) at hp
        split at hp
        · exact .inl hp
        · rename_i hkilled
          obtain hp | hp := List.mem_append.1 hp
          · exact .inl hp
          · exact .inr ⟨by simpa using hkilled, List.mem_singleton.1 hp⟩
      obtain hp | ⟨hkilled, rfl⟩ := hread
      · exact hgiven.reads p hp
      · refine ⟨hkilled, nofun, { call with phase := .injected (.ok ()) }, ?_, hcallHandoff, trivial⟩
        change (s.setPhase i (.injected (.ok ()))).calls[i]? = _
        rw [WarmPane.setPhase, hcalls, hcall]
        simp
    · obtain hp | hp := List.mem_append.1 (show p ∈ s.pointed ++ [⟨i, file, text⟩] from hp)
      · exact hgiven.pointed p hp
      · obtain rfl := List.mem_singleton.1 hp
        refine ⟨hset, call.mail, ?_, hfile, htext⟩
        exact (mailAt_setPhase (.injected (.ok ())) i).trans (mailAt_eq_some.2 ⟨call, hcall, rfl⟩)

theorem KeepsBut.perform (h : Keeps deps set s) (hno : ∀ p ∈ s.reading, p.call ≠ i)
    {done : List Write × Progress} (hlast : Pty.Injection.PressesEnterLast done) :
    Keeps deps set (s.perform i done) := by
  obtain ⟨writes, hw, rfl | ⟨progress, hprogress, rfl⟩⟩ := hlast
  · obtain ⟨hwritten, -⟩ := h.writes (i := i) hw
    unfold WarmPane.perform
    dsimp only
    rw [List.foldl_append]
    exact hwritten.enter
  · obtain ⟨hwritten, hreading⟩ := h.writes (i := i) hw
    have hnot : ¬ ∃ p ∈ (writes.foldl (fun s w => s.write i w) s).reading, p.call = i := by
      rw [hreading]
      rintro ⟨p, hp, hpi⟩
      exact hno p hp hpi
    unfold WarmPane.perform
    cases progress with
    | racing injection => exact hwritten.setPhase fun hex => absurd hex hnot
    | submitted => exact absurd rfl hprogress
    | refused error => exact hwritten.settle fun hex => absurd hex hnot

/-! ### Steps -/

/-- A call that waits for its turn comes in. -/
theorem KeepsBut.append (h : Keeps deps set s) {call : Call} (hnone : call.handoff = none)
    (hc : s'.calls = s.calls ++ [call]) (hf : s'.files = s.files) (ha : s'.active = s.active)
    (hr : s'.reading = s.reading) (hp : s'.pointed = s.pointed) (hk : s'.killed = s.killed) :
    Keeps deps set s' := by
  have hold : ∀ (j : ℕ) (call' : Call), s.calls[j]? = some call' → s'.calls[j]? = some call' := by
    intro j call' hj
    rw [hc, List.getElem?_append_left (List.getElem?_eq_some_iff.1 hj).1]
    exact hj
  have hnew : ∀ (j : ℕ) (call' : Call) (handoff : HandoffFile × Text),
      s'.calls[j]? = some call' → call'.handoff = some handoff → s.calls[j]? = some call' := by
    intro j call' handoff hj hhandoff
    rw [hc, List.getElem?_append] at hj
    split at hj
    · exact hj
    · cases hn : j - s.calls.length with
      | zero =>
        rw [hn] at hj
        cases hj
        rw [hnone] at hhandoff
        cases hhandoff
      | succ n =>
        rw [hn] at hj
        cases hj
  have huses : ∀ j file text, s'.handoffOf j = some (file, text) ↔
      s.handoffOf j = some (file, text) := by
    intro j file text
    simp only [handoffOf, Option.bind_eq_bind, Option.bind_eq_some_iff]
    constructor
    · rintro ⟨call', hj, hhandoff⟩
      exact ⟨call', hnew j call' _ hj hhandoff, hhandoff⟩
    · rintro ⟨call', hj, hhandoff⟩
      exact ⟨call', hold j call' hj, hhandoff⟩
  refine ⟨fun j call' file text hj hhandoff => ?_, fun hkilled j file text hj _ => ?_,
    fun p hmem => ?_, fun hne => ?_, fun p hmem => ?_⟩
  · exact h.owner j call' file text (hnew j call' _ hj hhandoff) hhandoff
  · rw [hf]
    exact h.kept (hk ▸ hkilled) j file text ((huses j file text).1 hj) nofun
  · rw [hr] at hmem
    obtain ⟨hkilled, hoff, call', hj, hrest⟩ := h.reads p hmem
    exact ⟨hk ▸ hkilled, hoff, call', hold _ _ hj, hrest⟩
  · rw [hf] at hne
    obtain ⟨hprovider, hactive, j, text, hj⟩ := h.left hne
    exact ⟨hprovider, ha ▸ hactive, j, text, (huses j _ text).2 hj⟩
  · rw [hp] at hmem
    obtain ⟨hset, mail, hm, hrest⟩ := h.pointed p hmem
    obtain ⟨call', hj, hmail⟩ := mailAt_eq_some.1 hm
    exact ⟨hset, mail, mailAt_eq_some.2 ⟨call', hold _ _ hj, hmail⟩, hrest⟩

/-- A call diverts its mail to a file that no call uses. -/
theorem KeepsBut.recordHandoff (h : Keeps deps set s) {call : Call}
    (hcall : s.calls[i]? = some call) (hphase : ¬ call.phase.Given) (hnone : call.handoff = none)
    (hdriven : call.source = .driven) (hcodex : deps.provider = .codex)
    (hset : set (handoffFile call.mail))
    (hfree : ∀ j, ¬ s.Uses j (handoffFile call.mail)) :
    Keeps deps set (s.recordHandoff i (handoffFile call.mail) (deps.renderMail call.mail)) := by
  have hno : ∀ p ∈ s.reading, p.call ≠ i := h.not_reading fun call' hcall' => by
    rw [hcall] at hcall'
    cases hcall'
    exact hphase
  have hcalls : ∀ j : ℕ, (s.recordHandoff i (handoffFile call.mail)
      (deps.renderMail call.mail)).calls[j]? = (s.calls[j]?).map fun call' => if j = i then
        { call' with handoff := some (handoffFile call.mail, deps.renderMail call.mail) }
      else call' := fun j => getElem?_modifyCall _ j
  have hhandoff : ∀ j, (s.recordHandoff i (handoffFile call.mail)
      (deps.renderMail call.mail)).handoffOf j = if j = i then
        some (handoffFile call.mail, deps.renderMail call.mail) else s.handoffOf j := by
    intro j
    rw [handoffOf, hcalls]
    by_cases hji : j = i
    · simp [hji, hcall]
    · cases hj : s.calls[j]? <;> simp [hji, handoffOf, hj]
  refine ⟨fun j call' file text hj hjHandoff => ?_, fun hkilled j file text hj _ => ?_,
    fun p hp => ?_, fun hne => ?_, fun p hp => ?_⟩
  · rw [hcalls, Option.map_eq_some_iff] at hj
    obtain ⟨call'', hj, rfl⟩ := hj
    by_cases hji : j = i
    · subst hji
      rw [hcall] at hj
      cases hj
      simp only [if_true, Option.some.injEq, Prod.mk.injEq] at hjHandoff
      obtain ⟨rfl, rfl⟩ := hjHandoff
      simp only [if_true]
      exact ⟨hcodex, hdriven, trivial, trivial, hset⟩
    · simp only [hji, if_false] at hjHandoff ⊢
      exact h.owner j call'' file text hj hjHandoff
  · rw [hhandoff] at hj
    by_cases hji : j = i
    · simp only [hji, if_true, Option.some.injEq, Prod.mk.injEq] at hj
      obtain ⟨rfl, rfl⟩ := hj
      exact Function.update_self _ _ _
    · simp only [hji, if_false] at hj
      have hother : file ≠ handoffFile call.mail := fun heq => hfree j ⟨text, heq ▸ hj⟩
      refine (Function.update_of_ne hother _ _).trans ?_
      exact h.kept hkilled j file text hj nofun
  · obtain ⟨hkilled, hoff, call', hj, hrest⟩ := h.reads p hp
    refine ⟨hkilled, hoff, call', ?_, hrest⟩
    rw [hcalls, hj]
    simp [hno p hp]
  · by_cases hrouted : handoffFile call.mail = .routed
    · refine ⟨hcodex, ?_, i, deps.renderMail call.mail, ?_⟩
      · rw [← hrouted]
        exact Function.update_self _ _ _
      · rw [hhandoff, if_pos rfl, hrouted]
    · have hfile : s.files .routed ≠ none := by
        intro hgone
        exact hne ((Function.update_of_ne (Ne.symm hrouted) _ _).trans hgone)
      obtain ⟨-, hactive, j, text, hj⟩ := h.left hfile
      have hji : j ≠ i := by
        rintro rfl
        rw [handoffOf, hcall] at hj
        exact absurd (hnone.symm.trans hj) nofun
      refine ⟨hcodex, ?_, j, text, ?_⟩
      · exact (Function.update_of_ne (Ne.symm hrouted) _ _).trans hactive
      · rw [hhandoff, if_neg hji]
        exact hj
  · obtain ⟨hset', mail, hm, hrest⟩ := h.pointed p hp
    exact ⟨hset', mail, Frame.recordHandoff.mailAt _ _ hm, hrest⟩

theorem KeepsBut.injectComposed (h : Keeps deps set s) (hno : ∀ p ∈ s.reading, p.call ≠ i)
    (composed : Except String Text) : Keeps deps set (s.injectComposed deps i composed) := by
  cases composed with
  | error error => exact h.settle fun ⟨p, hp, hpi⟩ => absurd hpi (hno p hp)
  | ok composed => exact h.perform hno (Pty.Injection.round_last _)

/-- A call whose mail is diverted, if it is, to a file that no call uses. -/
theorem KeepsBut.injectMail (h : Keeps deps set s) {call : Call} {mail : DeliveredMail}
    (hcall : s.calls[i]? = some call) (hmail : call.mail = mail) (hphase : ¬ call.phase.Given)
    (hdiverts : deps.diverts mail = true → seams.written.isOk = true →
      call.handoff = none ∧ call.source = .driven ∧ set (handoffFile mail) ∧
        ∀ j, ¬ s.Uses j (handoffFile mail)) :
    Keeps deps set (s.injectMail deps i seams mail) := by
  subst hmail
  have hno : ∀ p ∈ s.reading, p.call ≠ i := h.not_reading fun call' hcall' => by
    rw [hcall] at hcall'
    cases hcall'
    exact hphase
  unfold WarmPane.injectMail
  dsimp only
  split
  · rename_i hwritten
    obtain ⟨hdiv, hok⟩ := Bool.and_eq_true_iff.1 hwritten
    have hcodex : deps.provider = .codex := by
      have hall := hdiv
      simp only [InjectDeps.diverts, Bool.and_eq_true, decide_eq_true_eq] at hall
      exact hall.1.1
    obtain ⟨hnone, hdriven, hset, hfree⟩ := hdiverts hdiv hok
    refine (h.recordHandoff hcall hphase hnone hdriven hcodex hset hfree).injectComposed ?_ _
    exact hno
  · exact h.injectComposed hno _

theorem KeepsBut.hear (h : Keeps deps set s) (chunk : Text) : Keeps deps set (s.hear i chunk) := by
  unfold WarmPane.hear
  split
  · rename_i source mail injection handoff hcall
    have hno : ∀ p ∈ s.reading, p.call ≠ i := h.not_reading fun call hcall' => by
      rw [hcall] at hcall'
      cases hcall'
      exact id
    have hanswers : Write.submit ∉ (injection.onData chunk).2 := fun hmem => by
      obtain ⟨bytes, hbytes⟩ := injection.onData_writes hmem
      cases hbytes
    obtain ⟨hwritten, hreading⟩ := h.writes (i := i) hanswers
    refine hwritten.setPhase ?_
    rintro ⟨p, hp, hpi⟩
    rw [hreading] at hp
    exact absurd hpi (hno p hp)
  · rename_i source mail dialogs handoff hcall
    dsimp only
    have hmarked : ∀ marks : List Mark, Keeps deps set { s with trace := s.trace ++ marks } :=
      fun marks => h.congr rfl rfl rfl rfl rfl rfl
    exact (hmarked _).setPhase fun _ => trivial
  · exact h

theorem KeepsBut.delay (h : Keeps deps set s) : Keeps deps set (s.delay i) := by
  unfold WarmPane.delay
  split
  · rename_i source mail injection handoff hcall
    refine h.setPhase ?_
    rintro ⟨p, hp, hpi⟩
    refine absurd hpi (h.not_reading (fun call hcall' => ?_) p hp)
    rw [hcall] at hcall'
    cases hcall'
    exact id
  · exact h

/-- The next step of a call. -/
theorem KeepsBut.resume (h : Keeps deps set s)
    (hgo : ∀ call, s.calls[i]? = some call → call.closes = true → s.LetsGo seams i) :
    Keeps deps set (s.resume deps i seams) := by
  have hno : ∀ call, s.calls[i]? = some call → ¬ call.phase.Given →
      ∀ p ∈ s.reading, p.call ≠ i := fun call hcall hphase => h.not_reading fun call' hcall' => by
    rw [hcall] at hcall'
    cases hcall'
    exact hphase
  unfold WarmPane.resume
  split
  · rename_i source mail injection handoff hcall
    exact h.perform (hno _ hcall id) injection.resume_last
  · exact h.setPhase fun _ => trivial
  · rename_i mail error handoff hcall
    exact (h.excluding (hno _ hcall id)).failTurn (mailAt_eq_some.2 ⟨_, hcall, rfl⟩)
      (hgo _ hcall rfl)
  · rename_i mail handoff hcall
    have hgone := hgo _ hcall rfl
    exact (h.excluding (hno _ hcall id)).finishTurn hgone.routed hgone.removes
  · rename_i sender mail result handoff hcall
    refine h.routeEnd ?_ (mailAt_eq_some.2 ⟨_, hcall, rfl⟩) (hgo _ hcall rfl)
    -- A delivery never has a file in use, so it gave no pointer.
    rintro p hp rfl
    obtain ⟨-, -, call, hcall', hhandoff, -⟩ := h.reads p hp
    have hdriven := (h.owner p.call call p.file p.text hcall' hhandoff).2.1
    rw [hcall] at hcall'
    cases hcall'
    cases hdriven
  · exact h

theorem KeepsBut.observe (h : Keeps deps set s) {seen : Except String TurnObservation}
    (hgo : ∀ call, s.calls[i]? = some call → call.closes = true → s.LetsGo seams i) :
    Keeps deps set (s.observe deps i seams seen) := by
  unfold WarmPane.observe
  split
  · rename_i mail dialogs handoff hcall
    have hgone := (hgo _ hcall rfl).turnOver
    have hmail : (s.turnOver i).mailAt i = some mail :=
      Frame.turnOver.mailAt i mail (mailAt_eq_some.2 ⟨_, hcall, rfl⟩)
    have hno : ∀ p ∈ (s.turnOver i).reading, p.call ≠ i := fun p hp => turnOver_reading hp
    have hkept : ¬ (s.turnOver i).Uses i .kickoff := by
      rintro ⟨text, huses⟩
      exact ((turnOver_handoff i).1 huses).2 rfl rfl
    cases seen with
    | error error => exact (h.turnOver.excluding hno).failTurn hmail hgone
    | ok seen => exact h.turnOver.turnEnd hno hmail hgone hkept
  · exact h

theorem handoffOf_append {call : Call} (hnone : call.handoff = none)
    (hc : s'.calls = s.calls ++ [call]) {j : ℕ} {handoff : HandoffFile × Text}
    (hj : s'.handoffOf j = some handoff) : s.handoffOf j = some handoff := by
  rw [handoffOf, hc, List.getElem?_append] at hj
  split at hj
  · exact hj
  · cases hn : j - s.calls.length with
    | zero =>
      rw [hn] at hj
      exact absurd (hnone.symm.trans hj) nofun
    | succ n =>
      rw [hn] at hj
      cases hj

theorem KeepsBut.runOneTurn (h : Keeps deps set s) {mail : DeliveredMail}
    (hdiverts : deps.diverts mail = true → seams.written.isOk = true →
      set (handoffFile mail) ∧ ∀ j, ¬ s.Uses j (handoffFile mail)) :
    Keeps deps set (s.runOneTurn deps seams mail) := by
  have hinjected : ∀ t : WarmPane, t.calls = s.calls ++ [⟨.driven, mail, .queued, none⟩] →
      Keeps deps set t → Keeps deps set (t.injectMail deps s.calls.length seams mail) := by
    intro t ht hkeeps
    have hcall : t.calls[s.calls.length]? = some ⟨.driven, mail, .queued, none⟩ := by
      rw [ht]
      simp
    refine hkeeps.injectMail hcall rfl id fun hdiv hwritten => ?_
    obtain ⟨hset, hfree⟩ := hdiverts hdiv hwritten
    refine ⟨rfl, rfl, hset, ?_⟩
    rintro j ⟨text, hj⟩
    exact hfree j ⟨text, handoffOf_append rfl ht hj⟩
  exact hinjected _ rfl (h.append rfl rfl rfl rfl rfl rfl rfl)

theorem KeepsBut.routeInject (h : Keeps deps set s) {call : Call} (hcall : s.calls[i]? = some call)
    (hdue : s.due i = true) (hplain : s.hosted = true →
      ¬ (deps.diverts call.mail = true ∧ seams.written.isOk = true)) :
    Keeps deps set (s.routeInject deps i seams call.mail) := by
  have hphase : ¬ call.phase.Given := by
    unfold due at hdue
    rw [hcall] at hdue
    split at hdue
    · rename_i heq
      cases heq
      exact id
    · cases hdue
  unfold WarmPane.routeInject
  split
  · rename_i hhosted
    have hcounted : Keeps deps set { s with routeInjectInFlight := s.routeInjectInFlight + 1 } :=
      h.congr rfl rfl rfl rfl rfl rfl
    exact hcounted.injectMail hcall rfl hphase fun hdiverts hwritten =>
      absurd ⟨hdiverts, hwritten⟩ (hplain hhosted)
  · refine h.setPhase ?_
    rintro ⟨p, hp, hpi⟩
    refine absurd hpi (h.not_reading (fun call' hcall' => ?_) p hp)
    rw [hcall] at hcall'
    cases hcall'
    exact hphase

theorem KeepsBut.release (h : Keeps deps set s)
    (hremoves : s.active .routed = true → seams.removes = true) :
    Keeps deps set (s.release deps seams) := by
  unfold WarmPane.release
  split
  · have hreleased : Keeps deps set { s with hosted := false } :=
      h.congr rfl rfl rfl rfl rfl rfl
    dsimp only
    split
    · exact h.congr rfl rfl rfl rfl rfl rfl
    · exact hreleased.finalizeRelease hremoves
  · exact h

/-- What a careful step preserves. -/
theorem KeepsBut.step {launch : Launch} {identity : PaneIdentity} {op : WarmOp}
    (hset : ∀ file, launch.provides identity file = true → set file)
    (hcareful : Careful launch identity deps op s) (h : Keeps deps set s) :
    Keeps deps set (s.step deps op) := by
  cases op with
  | runOneTurn mail seams =>
    refine h.runOneTurn fun hdiverts hwritten => ?_
    obtain ⟨hprovides, hfree⟩ := hcareful hdiverts hwritten
    exact ⟨hset _ hprovides, hfree⟩
  | enqueueInject sender mail => exact h.append rfl rfl rfl rfl rfl rfl rfl
  | routeInject i seams =>
    show Keeps deps set (s.routeDue deps i seams)
    unfold routeDue
    split
    · rename_i call hcall
      split
      · rename_i hdue
        exact h.routeInject hcall hdue
          (hcareful call.mail (mailAt_eq_some.2 ⟨call, hcall, rfl⟩) hdue)
      · exact h
    · exact h
  | data chunk =>
    show Keeps deps set (Run.after (fun i s => s.hear i chunk) (List.range s.calls.length) s)
    exact Run.always (Keeps deps set) (fun i s hs => hs.hear chunk) h
  | delay i => exact h.delay
  | resume i seams => exact h.resume hcareful
  | observe i seams seen => exact h.observe hcareful
  | agentIdle =>
    exact ⟨h.owner, h.kept, fun p hp => h.reads p (List.mem_of_mem_filter hp), h.left, h.pointed⟩
  | release seams => exact h.release hcareful

end

end WarmPane

/-- On a pane however launched, pointers stay good while the handoff files are used with care. -/
theorem handoffs_readable {launch : Launch} {identity : PaneIdentity} {env : Env}
    (henv : launch.env identity = .ok env) (deps : InjectDeps) (ops : List WarmOp)
    (hcareful : Run.Guarded (WarmPane.step deps) (Careful launch identity deps) ops .initial) :
    Readable identity env deps (Run.after (WarmPane.step deps) ops .initial) :=
  (Run.invariant (WarmPane.Keeps deps (Points identity env))
    (fun _ _ hc h => h.step (fun file hp => (points_iff_provides henv file).2 hp) hc) hcareful
    .initial).readable

/-! ## A codex pane -/

/-- A codex pane of the builder. -/
def builderPane : PaneIdentity where
  agent := "builder".toList
  projectDataDir := "/data/projects/p".toList
  provider := .codex
  resume := .codex "/data/homes/builder".toList

/-- Mails of two lines, which go to a handoff file. -/
def noteDeps : InjectDeps where
  provider := .codex
  renderMail _ := ['a', '\n', 'b']

theorem letsGo_of_single {s : WarmPane} {seams : Seams} (hlength : s.calls.length = 1)
    (hremoves : seams.removes = true) : s.LetsGo seams 0 := by
  have hfree : ∀ file, s.FreeBut 0 file := by
    rintro file j ⟨text, hj⟩
    obtain ⟨call, hcall, -⟩ := Option.bind_eq_some_iff.1 hj
    have hlt := (List.getElem?_eq_some_iff.1 hcall).1
    omega
  exact ⟨hfree _, fun _ _ _ => hfree _, fun _ => hremoves⟩

/-- A driven turn through its handoff file, on a pane with the default launch. -/
theorem handoffs_readable_turn : ∃ env, Launch.default.env builderPane = .ok env ∧
    Readable builderPane env noteDeps (Run.after (WarmPane.step noteDeps)
      [.runOneTurn (letter 1 "lead") willing, .data HandoffFile.routed.pointer,
        .resume 0 willing, .resume 0 willing, .observe 0 willing (.ok ⟨true, false⟩),
        .resume 0 willing] .initial) := by
  refine ⟨_, rfl, @handoffs_readable .default _ _ rfl noteDeps _
    ⟨fun _ _ => ⟨by decide, fun j ⟨text, hj⟩ => by cases hj⟩, trivial, fun _ _ _ => ?_,
      fun _ _ _ => ?_, fun _ _ _ => ?_, fun _ _ _ => ?_, trivial⟩⟩
  all_goals exact letsGo_of_single (by decide +kernel) rfl

/-- A delivery takes its handoff file away as soon as its pointer is submitted, and the isolated
launch does not set the variable that a driven turn's pointer names. -/
theorem pointers_dangle :
    (∃ env, Launch.default.env builderPane = .ok env ∧
      ¬ Readable builderPane env noteDeps (Run.after (WarmPane.step noteDeps)
        [.enqueueInject "scout" (letter 1 "scout"), .routeInject 0 willing,
          .data HandoffFile.routed.pointer, .resume 0 willing, .resume 0 willing] .initial)) ∧
    ∃ env, (Launch.hosted ⟨"/data/homes/builder".toList, none⟩).env builderPane = .ok env ∧
      ¬ Readable builderPane env noteDeps (Run.after (WarmPane.step noteDeps)
        [.runOneTurn (letter 1 "lead") willing, .data HandoffFile.routed.pointer,
          .resume 0 willing] .initial) := by
  refine ⟨⟨_, rfl, fun h => ?_⟩, ⟨_, rfl, fun h => ?_⟩⟩
  · have hread := h.keeps ⟨0, .routed, ['a', '\n', 'b']⟩ (by decide +kernel)
    revert hread
    decide +kernel
  · have hpoints := h.points ⟨0, .routed, ['a', '\n', 'b']⟩ (by decide +kernel)
    rw [@points_iff_provides (.hosted ⟨"/data/homes/builder".toList, none⟩) _ _ rfl] at hpoints
    cases hpoints

end Orchestration.Conductor
