import Orchestration.Library.Transaction

/-!
# Cleaning up after a failure

A procedure that took something gives it back when its work fails. The cleanup is a
procedure too: it may fail in its turn, and then its failure is the one that is thrown.
A part of a larger state is worked on through its reader and writer.
-/

namespace Transaction.Proc

variable {σ τ ε α β : Type}

/-- Run `p`; when it throws, run `cleanup` before the failure goes on. -/
def onError (p : Proc σ ε α) (cleanup : Proc σ ε Unit) : Proc σ ε α :=
  tryCatch p fun cause => do
    cleanup
    throw cause

/-- Run `p` unless a fault strikes first. -/
def unlessFault (fault : Option ε) (p : Proc σ ε α) : Proc σ ε α :=
  match fault with
  | some e => throw e
  | none => p

/-- Run `p` on the condition `c`. -/
def when (c : Bool) (p : Proc σ ε Unit) : Proc σ ε Unit := if c then p else pure ()

@[simp] theorem when_true (p : Proc σ ε Unit) : when true p = p := rfl

@[simp] theorem when_false (p : Proc σ ε Unit) : when false p = pure () := rfl

/-- A procedure on the part of the state that `get` reads and `set` writes. -/
def on (get : τ → σ) (set : σ → τ → τ) (p : Proc σ ε α) : Proc τ ε α := fun t =>
  ((p (get t)).1, set (p (get t)).2 t)

variable {p : Proc σ ε α} {cleanup : Proc σ ε Unit} {s s' : σ}

/-- Binding is associative, and handing a value on changes nothing. -/
theorem bind_bind {γ : Type} (p : Proc σ ε α) (f : α → Proc σ ε β) (g : β → Proc σ ε γ) (s : σ) :
    ((p >>= f) >>= g) s = (p >>= fun a => f a >>= g) s := by
  change Proc.bind (Proc.bind p f) g s = Proc.bind p (fun a => Proc.bind (f a) g) s
  simp only [Proc.bind]
  rcases p s with ⟨_ | a, s'⟩ <;> rfl

theorem bind_congr {p : Proc σ ε α} {f g : α → Proc σ ε β} (h : ∀ a s, f a s = g a s) (s : σ) :
    (p >>= f) s = (p >>= g) s := by
  have hfg : f = g := funext fun a => funext fun s => h a s
  rw [hfg]

theorem onError_eq_ok {a : α} : onError p cleanup s = (.ok a, s') ↔ p s = (.ok a, s') := by
  rw [onError, tryCatch_eq_ok]
  constructor
  · rintro (h | ⟨cause, mid, -, hthrow⟩)
    · exact h
    · obtain ⟨_, _, -, hthrow⟩ := bind_eq_ok.1 hthrow
      exact nomatch hthrow
  · exact .inl

theorem onError_eq_error {e : ε} : onError p cleanup s = (.error e, s') ↔
    ∃ cause mid, p s = (.error cause, mid) ∧
      (cleanup mid = (.ok (), s') ∧ cause = e ∨ cleanup mid = (.error e, s')) := by
  rw [onError, tryCatch_eq_error]
  refine exists_congr fun cause => exists_congr fun mid => and_congr_right fun _ => ?_
  rw [bind_eq_error]
  constructor
  · rintro (hfailed | ⟨_, last, hclean, hthrow⟩)
    · exact .inr hfailed
    · obtain ⟨hcause, rfl⟩ := Prod.mk.inj hthrow
      exact .inl ⟨hclean, Except.error.inj hcause⟩
  · rintro (⟨hclean, rfl⟩ | hfailed)
    · exact .inr ⟨(), s', hclean, rfl⟩
    · exact .inl hfailed

/-- Whatever the cleanup yields, the failure goes on from the state that it leaves. -/
theorem onError_of_error {e : ε} {mid : σ} {cleaned : Except ε Unit} (h : p s = (.error e, mid))
    (hclean : cleanup mid = (cleaned, s')) : ∃ e', onError p cleanup s = (.error e', s') := by
  cases cleaned with
  | ok u => exact ⟨e, onError_eq_error.2 ⟨e, mid, h, .inl ⟨hclean, rfl⟩⟩⟩
  | error e' => exact ⟨e', onError_eq_error.2 ⟨e, mid, h, .inr hclean⟩⟩

theorem bind_apply {f : α → Proc σ ε β} {a : α} (h : p s = (.ok a, s')) :
    (p >>= f) s = f a s' := by
  change Proc.bind p f s = f a s'
  rw [Proc.bind, h]

theorem bind_error {f : α → Proc σ ε β} {e : ε} (h : p s = (.error e, s')) :
    (p >>= f) s = (.error e, s') := by
  change Proc.bind p f s = (.error e, s')
  rw [Proc.bind, h]

/-- A procedure on a part works on the part, and writes it back. -/
theorem on_eq {get : τ → σ} {set : σ → τ → τ} {t t' : τ} {result : Except ε α} :
    p.on get set t = (result, t') ↔ ∃ s', p (get t) = (result, s') ∧ t' = set s' t := by
  rw [on]
  constructor
  · rintro h
    obtain ⟨rfl, rfl⟩ := Prod.mk.inj h
    exact ⟨_, rfl, rfl⟩
  · rintro ⟨s', hp, rfl⟩
    rw [hp]

@[simp] theorem unlessFault_none : unlessFault none p = p := rfl

@[simp] theorem unlessFault_some {e : ε} : unlessFault (some e) p s = (.error e, s) := rfl

/-- What a step that may fault yields can be worked out beforehand. -/
theorem unlessFault_pure_bind {fault : Option ε} {a : α} {f : α → Proc σ ε β} (s : σ) :
    (unlessFault fault (pure a) >>= f) s = (unlessFault fault (pure ()) >>= fun _ => f a) s := by
  cases fault <;> rfl

theorem unlessFault_eq_ok {fault : Option ε} {a : α} :
    unlessFault fault p s = (.ok a, s') ↔ fault = none ∧ p s = (.ok a, s') := by
  cases fault <;> simp

/-- A procedure fails by the fault, which leaves the state alone, or by itself. -/
theorem unlessFault_eq_error {fault : Option ε} {e : ε} :
    unlessFault fault p s = (.error e, s') ↔
      fault = some e ∧ s' = s ∨ fault = none ∧ p s = (.error e, s') := by
  cases fault with
  | none => simp
  | some f => simp [eq_comm]

theorem Atomic.unlessFault (h : Atomic p) (fault : Option ε) : Atomic (unlessFault fault p) := by
  intro s e s' hrun
  rcases unlessFault_eq_error.1 hrun with ⟨-, rfl⟩ | ⟨-, hp⟩
  · rfl
  · exact h s e s' hp

end Transaction.Proc
