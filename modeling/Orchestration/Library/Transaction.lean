import Orchestration.Library.Fallible

/-!
# Transactions over a shared state

A store is used in two ways. Inside a transaction a body reads and writes the
state step by step, and everything it wrote is lost when it throws. Outside, a
procedure strings transactions together: what one of them committed stays
committed even if the procedure throws later. The two are kept apart as two
monads, so that a procedure which fails after its first commit cannot be
mistaken for one that never happened.
-/

namespace Transaction

variable {σ ε α β γ : Type}

/-- The body of one transaction: it yields a value and the state it would commit,
or throws. -/
abbrev Tx (σ ε α : Type) := StateT σ (Except ε) α

/-- A procedure outside any transaction: it leaves a state behind however it ends. -/
def Proc (σ ε α : Type) := σ → Except ε α × σ

namespace Proc

/-- Run `p`, then `f` on its value from the state `p` left behind; a throw skips `f`. -/
def bind (p : Proc σ ε α) (f : α → Proc σ ε β) : Proc σ ε β := fun s =>
  match p s with
  | (.ok a, s') => f a s'
  | (.error e, s') => (.error e, s')

instance : Monad (Proc σ ε) where
  pure a := fun s => (.ok a, s)
  bind := bind

instance : MonadExceptOf ε (Proc σ ε) where
  throw e := fun s => (.error e, s)
  tryCatch p handle := fun s =>
    match p s with
    | (.ok a, s') => (.ok a, s')
    | (.error e, s') => handle e s'

instance : MonadLift (Except ε) (Proc σ ε) where
  monadLift x := fun s => (x, s)

/-- The state a procedure leaves behind. -/
def exec (p : Proc σ ε α) (s : σ) : σ := (p s).2

end Proc

/-- Run a transaction body: commit what it wrote, or roll back and rethrow. -/
def transaction (body : Tx σ ε α) : Proc σ ε α := fun s =>
  match body s with
  | .ok (a, s') => (.ok a, s')
  | .error e => (.error e, s)

/-- Run `f` on every entry in order, and collect what each of them yields. -/
def Proc.collect (f : α → Proc σ ε (List β)) : List α → Proc σ ε (List β)
  | [] => pure []
  | a :: as => do
    let found ← f a
    let rest ← Proc.collect f as
    return found ++ rest

namespace Tx

theorem bind_eq_ok {x : Tx σ ε α} {f : α → Tx σ ε β} {s s'' : σ} {b : β} :
    (x >>= f) s = .ok (b, s'') ↔ ∃ a s', x s = .ok (a, s') ∧ f a s' = .ok (b, s'') := by
  change (x s >>= fun p => f p.1 p.2) = .ok (b, s'') ↔ _
  cases x s with
  | error e => exact ⟨fun h => (nomatch h), fun ⟨_, _, h, _⟩ => (nomatch h)⟩
  | ok p =>
    constructor
    · intro h
      exact ⟨p.1, p.2, rfl, h⟩
    · rintro ⟨a, s', h, hf⟩
      cases h
      exact hf

theorem get_bind {f : σ → Tx σ ε β} {s : σ} : (get >>= f) s = f s s := rfl

theorem liftM_bind_eq_ok {x : Except ε α} {f : α → Tx σ ε β} {s s' : σ} {b : β} :
    ((liftM x : Tx σ ε α) >>= f) s = .ok (b, s') ↔ ∃ a, x = .ok a ∧ f a s = .ok (b, s') := by
  cases x with
  | error e => exact ⟨fun h => (nomatch h), fun ⟨_, h, _⟩ => (nomatch h)⟩
  | ok a =>
    constructor
    · intro h
      exact ⟨a, rfl, h⟩
    · rintro ⟨a', h, hf⟩
      cases h
      exact hf

@[simp] theorem pure_eq_ok {a b : α} {s s' : σ} :
    (pure a : Tx σ ε α) s = .ok (b, s') ↔ a = b ∧ s = s' := by
  change Except.ok (a, s) = .ok (b, s') ↔ _
  simp

@[simp] theorem throw_eq_ok {e : ε} {b : α} {s s' : σ} :
    (throw e : Tx σ ε α) s = .ok (b, s') ↔ False := by
  change Except.error e = .ok (b, s') ↔ _
  simp

@[simp] theorem get_eq_ok {a s s' : σ} :
    (get : Tx σ ε σ) s = .ok (a, s') ↔ a = s ∧ s' = s := by
  change Except.ok (s, s) = .ok (a, s') ↔ _
  simp [eq_comm]

@[simp] theorem set_eq_ok {t s s' : σ} {u : PUnit} :
    (set t : Tx σ ε PUnit) s = .ok (u, s') ↔ s' = t := by
  change Except.ok (PUnit.unit, t) = .ok (u, s') ↔ _
  simp [eq_comm]

@[simp] theorem liftM_eq_ok {x : Except ε α} {a : α} {s s' : σ} :
    (liftM x : Tx σ ε α) s = .ok (a, s') ↔ x = .ok a ∧ s' = s := by
  change (x >>= fun a => Except.ok (a, s)) = .ok (a, s') ↔ _
  cases x with
  | error e => exact ⟨fun h => (nomatch h), fun h => (nomatch h.1)⟩
  | ok b =>
    change Except.ok (b, s) = .ok (a, s') ↔ _
    simp [eq_comm]

end Tx

@[simp] theorem transaction_eq_ok {body : Tx σ ε α} {s s' : σ} {a : α} :
    transaction body s = (.ok a, s') ↔ body s = .ok (a, s') := by
  unfold transaction
  cases body s with
  | error e => simp
  | ok p => simp [Prod.ext_iff]

/-- A transaction that throws leaves the state as it found it. -/
theorem transaction_error {body : Tx σ ε α} {s s' : σ} {e : ε}
    (h : transaction body s = (.error e, s')) : s' = s := by
  unfold transaction at h
  cases hb : body s with
  | error e' => simp_all
  | ok p => simp [hb] at h

/-- What a committed or rolled back transaction leaves behind. -/
theorem transaction_exec {body : Tx σ ε α} {s : σ} :
    (∃ a, body s = .ok (a, (transaction body).exec s)) ∨ (transaction body).exec s = s := by
  unfold Proc.exec transaction
  cases body s with
  | error e => exact .inr rfl
  | ok p => exact .inl ⟨p.1, rfl⟩

namespace Proc

theorem bind_eq_ok {p : Proc σ ε α} {f : α → Proc σ ε β} {s s'' : σ} {b : β} :
    (p >>= f) s = (.ok b, s'') ↔ ∃ a s', p s = (.ok a, s') ∧ f a s' = (.ok b, s'') := by
  change Proc.bind p f s = (.ok b, s'') ↔ _
  unfold Proc.bind
  rcases p s with ⟨_ | a, s'⟩ <;> simp

theorem bind_eq_error {p : Proc σ ε α} {f : α → Proc σ ε β} {s s'' : σ} {e : ε} :
    (p >>= f) s = (.error e, s'') ↔
      p s = (.error e, s'') ∨ ∃ a s', p s = (.ok a, s') ∧ f a s' = (.error e, s'') := by
  change Proc.bind p f s = (.error e, s'') ↔ _
  unfold Proc.bind
  rcases p s with ⟨_ | a, s'⟩ <;> simp

/-- A sequence ends where its first part throws, or where the second part ends. -/
theorem bind_cases {p : Proc σ ε α} {f : α → Proc σ ε β} {s s'' : σ} {result : Except ε β}
    (h : (p >>= f) s = (result, s'')) :
    (∃ e, p s = (.error e, s'') ∧ result = .error e) ∨
      ∃ a s', p s = (.ok a, s') ∧ f a s' = (result, s'') := by
  cases result with
  | ok b => exact .inr (bind_eq_ok.1 h)
  | error e =>
    cases bind_eq_error.1 h with
    | inl h => exact .inl ⟨e, h, rfl⟩
    | inr h => exact .inr h

theorem liftM_bind_eq_ok {x : Except ε α} {f : α → Proc σ ε β} {s s' : σ} {b : β} :
    ((liftM x : Proc σ ε α) >>= f) s = (.ok b, s') ↔ ∃ a, x = .ok a ∧ f a s = (.ok b, s') := by
  change Proc.bind (fun s => (x, s)) f s = (.ok b, s') ↔ _
  unfold Proc.bind
  cases x <;> simp

theorem tryCatch_eq_ok {p : Proc σ ε α} {handle : ε → Proc σ ε α} {s s'' : σ} {a : α} :
    (tryCatch p handle) s = (.ok a, s'') ↔
      p s = (.ok a, s'') ∨ ∃ e s', p s = (.error e, s') ∧ handle e s' = (.ok a, s'') := by
  change (match p s with | (.ok a, s') => (Except.ok a, s') | (.error e, s') => handle e s') = _ ↔ _
  rcases p s with ⟨e | a', s'⟩ <;> simp

theorem tryCatch_eq_error {p : Proc σ ε α} {handle : ε → Proc σ ε α} {s s'' : σ} {e : ε} :
    (tryCatch p handle) s = (.error e, s'') ↔
      ∃ cause s', p s = (.error cause, s') ∧ handle cause s' = (.error e, s'') := by
  change (match p s with | (.ok a, s') => (Except.ok a, s') | (.error e, s') => handle e s') = _ ↔ _
  rcases p s with ⟨cause | a, s'⟩ <;> simp

/-- What a relation needs to hold between the two ends of a sequence. -/
theorem exec_bind {R : σ → σ → Prop} {p : Proc σ ε α} {f : α → Proc σ ε β} {s : σ}
    (herror : ∀ e s', p s = (.error e, s') → R s s')
    (hok : ∀ a s', p s = (.ok a, s') → R s ((f a).exec s')) : R s ((p >>= f).exec s) := by
  change R s (Proc.bind p f s).2
  unfold Proc.bind
  rcases hp : p s with ⟨e | a, s'⟩
  · exact herror e s' hp
  · exact hok a s' hp

theorem exec_liftM_bind {R : σ → σ → Prop} {x : Except ε α} {f : α → Proc σ ε β} {s : σ}
    (hrefl : R s s) (hok : ∀ a, x = .ok a → R s ((f a).exec s)) :
    R s (((liftM x : Proc σ ε α) >>= f).exec s) := by
  refine exec_bind ?_ ?_
  · rintro e s' h
    obtain ⟨-, rfl⟩ := Prod.mk.inj h
    exact hrefl
  · rintro a s' h
    obtain ⟨hx, rfl⟩ := Prod.mk.inj h
    exact hok a hx

theorem exec_transaction {R : σ → σ → Prop} {body : Tx σ ε α} {s : σ} (hrefl : R s s)
    (hok : ∀ a s', body s = .ok (a, s') → R s s') : R s ((transaction body).exec s) := by
  rcases @transaction_exec σ ε α body s with ⟨a, h⟩ | h
  · exact hok a _ h
  · rw [h]
    exact hrefl

/-- A handler that writes nothing leaves what the failed procedure left. -/
theorem exec_tryCatch {p : Proc σ ε α} {handle : ε → Proc σ ε α} {s : σ}
    (h : ∀ e s', p s = (.error e, s') → s' = (handle e).exec s') :
    (tryCatch p handle).exec s = p.exec s := by
  change (match p s with | (.ok a, s') => (Except.ok a, s') | (.error e, s') => handle e s').2 = _
  unfold exec
  rcases hp : p s with ⟨e | a, s'⟩
  · exact (h e s' hp).symm
  · rfl

/-- A loop whose body writes nothing writes nothing. -/
theorem exec_forM {f : α → Proc σ ε PUnit} {as : List α} {s : σ}
    (h : ∀ a s, (f a).exec s = s) : (as.forM f).exec s = s := by
  induction as generalizing s with
  | nil => rfl
  | cons a as ih =>
    refine exec_bind (R := fun s s' => s' = s) (fun e s' he => ?_) fun _ s' hok => ?_
    · simpa [exec, he] using h a s
    · obtain rfl : s' = s := by simpa [exec, hok] using h a s
      exact ih

@[simp] theorem pure_apply {a : α} {s : σ} : (pure a : Proc σ ε α) s = (.ok a, s) := rfl

@[simp] theorem throw_apply {e : ε} {s : σ} : (throw e : Proc σ ε α) s = (.error e, s) := rfl

@[simp] theorem liftM_apply {x : Except ε α} {s : σ} : (liftM x : Proc σ ε α) s = (x, s) := rfl

/-! ### Preserving a property -/

/-- A procedure that keeps a property of the state, however it ends. -/
def Preserves (P : σ → Prop) (p : Proc σ ε α) : Prop := ∀ s, P s → P (p.exec s)

theorem preserves_pure {P : σ → Prop} (a : α) : Preserves P (pure a : Proc σ ε α) :=
  fun _ hs => hs

theorem Preserves.bind {P : σ → Prop} {p : Proc σ ε α} {f : α → Proc σ ε β} (hp : Preserves P p)
    (hf : ∀ a, Preserves P (f a)) : Preserves P (p >>= f) := by
  intro s hs
  have hmid := hp s hs
  refine exec_bind (R := fun _ s' => P s') (fun e s' h => ?_) fun a s' h => ?_
  · rwa [exec, h] at hmid
  · rw [exec, h] at hmid
    exact hf a s' hmid

/-! ### Failing without a trace -/

/-- A procedure that never writes. -/
def ReadOnly (p : Proc σ ε α) : Prop := ∀ s, p.exec s = s

/-- A procedure that leaves no trace when it fails. -/
def Atomic (p : Proc σ ε α) : Prop := ∀ s e s', p s = (.error e, s') → s' = s

theorem ReadOnly.atomic {p : Proc σ ε α} (h : ReadOnly p) : Atomic p := by
  intro s e s' hp
  have hexec := h s
  rw [exec, hp] at hexec
  exact hexec

theorem readOnly_pure (a : α) : ReadOnly (pure a : Proc σ ε α) := fun _ => rfl

theorem readOnly_throw (e : ε) : ReadOnly (throw e : Proc σ ε α) := fun _ => rfl

theorem readOnly_liftM (x : Except ε α) : ReadOnly (liftM x : Proc σ ε α) := fun _ => rfl

theorem readOnly_transaction {body : Tx σ ε α} (h : ∀ s a s', body s = .ok (a, s') → s' = s) :
    ReadOnly (transaction body) := by
  intro s
  rcases @transaction_exec σ ε α body s with ⟨a, hbody⟩ | hsame
  · exact h s a _ hbody
  · exact hsame

theorem ReadOnly.forM {f : α → Proc σ ε PUnit} (h : ∀ a, ReadOnly (f a)) (as : List α) :
    ReadOnly (as.forM f) := fun _ => exec_forM fun a => h a

theorem atomic_transaction (body : Tx σ ε α) : Atomic (transaction body) :=
  fun _ _ _ h => transaction_error h

/-- What reads first and then fails without a trace fails without a trace. -/
theorem ReadOnly.atomic_bind {p : Proc σ ε α} {f : α → Proc σ ε β} (hp : ReadOnly p)
    (hf : ∀ a, Atomic (f a)) : Atomic (p >>= f) := by
  intro s e s'' h
  rcases bind_eq_error.1 h with h | ⟨a, s', h, hfa⟩
  · exact hp.atomic s e s'' h
  · have hexec := hp s
    rw [exec, h] at hexec
    obtain rfl : s' = s := hexec
    exact hf a s' e s'' hfa

/-- An atomic procedure either succeeded or changed nothing. -/
theorem Atomic.exec {R : σ → σ → Prop} {p : Proc σ ε α} (hp : Atomic p) {s : σ} (hrefl : R s s)
    (hok : ∀ a s', p s = (.ok a, s') → R s s') : R s (p.exec s) := by
  rcases hrun : p s with ⟨e | a, s'⟩
  · have hsame : s' = s := hp s e s' hrun
    simpa [Proc.exec, hrun, hsame] using hrefl
  · simpa [Proc.exec, hrun] using hok a s' hrun

theorem ReadOnly.bind_eq_ok {p : Proc σ ε α} (hp : ReadOnly p) {f : α → Proc σ ε β} {s s'' : σ}
    {b : β} (h : (p >>= f) s = (.ok b, s'')) : ∃ a, p s = (.ok a, s) ∧ f a s = (.ok b, s'') := by
  obtain ⟨a, s', hpa, hfa⟩ := Proc.bind_eq_ok.1 h
  have hexec := hp s
  rw [exec, hpa] at hexec
  obtain rfl : s' = s := hexec
  exact ⟨a, hpa, hfa⟩

/-- Handing on a result adds no way to fail. -/
theorem Atomic.bind_pure {p : Proc σ ε α} (hp : Atomic p) (g : α → β) :
    Atomic (p >>= fun a => pure (g a)) := by
  intro s e s'' h
  rcases bind_eq_error.1 h with h | ⟨a, s', -, hpure⟩
  · exact hp s e s'' h
  · cases hpure

theorem Atomic.tryCatch {p : Proc σ ε α} {handle : ε → Proc σ ε α} (hp : Atomic p)
    (hhandle : ∀ e, Atomic (handle e)) : Atomic (MonadExcept.tryCatch p handle) := by
  intro s e s'' h
  change (match p s with | (.ok a, s') => (Except.ok a, s') | (.error e, s') => handle e s') =
    (.error e, s'') at h
  rcases hrun : p s with ⟨e' | a, s'⟩
  · rw [hrun] at h
    obtain rfl := hp s e' s' hrun
    exact hhandle e' s' e s'' h
  · rw [hrun] at h
    cases h

/-- A loop that is ready for its entries goes through all of them: what one entry does is a step,
and `R` composes the steps. -/
theorem collect_spec {f : α → Proc σ ε (List β)} (Ready : List α → σ → Prop)
    (R : List α → σ → σ → Prop) (hnil : ∀ s, R [] s s)
    (hstep : ∀ a as s, Ready (a :: as) s → ∃ found s', f a s = (.ok found, s') ∧ Ready as s' ∧
      ∀ s'', R as s' s'' → R (a :: as) s s'') {as : List α} {s : σ} (h : Ready as s) :
    ∃ all s', collect f as s = (.ok all, s') ∧ R as s s' := by
  induction as generalizing s with
  | nil => exact ⟨[], s, rfl, hnil s⟩
  | cons a as ih =>
    obtain ⟨found, mid, hfound, hready, hcompose⟩ := hstep a as s h
    obtain ⟨rest, last, hrest, hR⟩ := ih hready
    refine ⟨found ++ rest, last, ?_, hcompose last hR⟩
    exact bind_eq_ok.2 ⟨found, mid, hfound, bind_eq_ok.2 ⟨rest, last, hrest, rfl⟩⟩

end Proc

end Transaction
