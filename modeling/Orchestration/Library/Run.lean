import Mathlib.Data.List.Basic

/-!
# Runs of a deterministic system

A run performs a list of operations one after the other. An interleaving of
several parties is such a list, so a statement over every run is a statement
over every interleaving.
-/

namespace Run

variable {σ ι : Type}

/-- The state after performing `ops` in order, starting from `s`. -/
def after (step : ι → σ → σ) (ops : List ι) (s : σ) : σ :=
  ops.foldl (fun s op => step op s) s

variable {step : ι → σ → σ}

@[simp] theorem after_nil (s : σ) : after step [] s = s := rfl

@[simp] theorem after_cons (op : ι) (ops : List ι) (s : σ) :
    after step (op :: ops) s = after step ops (step op s) := rfl

theorem after_append (ops ops' : List ι) (s : σ) :
    after step (ops ++ ops') s = after step ops' (after step ops s) :=
  List.foldl_append

/-- Every operation of the run is allowed in the state it is performed in. -/
def Guarded (step : ι → σ → σ) (Allowed : ι → σ → Prop) : List ι → σ → Prop
  | [], _ => True
  | op :: ops, s => Allowed op s ∧ Guarded step Allowed ops (step op s)

/-- On a concrete run the guard can be evaluated. -/
instance decidableGuarded {Allowed : ι → σ → Prop} [∀ op s, Decidable (Allowed op s)] :
    ∀ (ops : List ι) (s : σ), Decidable (Guarded step Allowed ops s)
  | [], _ => .isTrue trivial
  | op :: ops, s =>
    have : Decidable (Guarded step Allowed ops (step op s)) := decidableGuarded ops (step op s)
    inferInstanceAs (Decidable (Allowed op s ∧ Guarded step Allowed ops (step op s)))

theorem guarded_append {Allowed : ι → σ → Prop} {ops ops' : List ι} {s : σ} :
    Guarded step Allowed (ops ++ ops') s ↔
      Guarded step Allowed ops s ∧ Guarded step Allowed ops' (after step ops s) := by
  induction ops generalizing s with
  | nil => simp [Guarded]
  | cons op ops ih => simp [Guarded, ih, and_assoc]

theorem guarded_and {Allowed Allowed' : ι → σ → Prop} {ops : List ι} {s : σ} :
    Guarded step (fun op s => Allowed op s ∧ Allowed' op s) ops s ↔
      Guarded step Allowed ops s ∧ Guarded step Allowed' ops s := by
  induction ops generalizing s with
  | nil => simp [Guarded]
  | cons op ops ih =>
    simp only [Guarded, ih]
    exact and_and_and_comm

/-- Operations that are allowed in every state make a guarded run. -/
theorem guarded_of_always {Allowed : ι → σ → Prop} {ops : List ι} {s : σ}
    (h : ∀ op ∈ ops, ∀ s, Allowed op s) : Guarded step Allowed ops s := by
  induction ops generalizing s with
  | nil => trivial
  | cons op ops ih =>
    exact ⟨h op List.mem_cons_self s, ih fun o ho => h o (List.mem_cons_of_mem _ ho)⟩

theorem guarded_of_forall {Allowed : ι → Prop} {ops : List ι} {s : σ}
    (h : ∀ op ∈ ops, Allowed op) : Guarded step (fun op _ => Allowed op) ops s :=
  guarded_of_always fun op hop _ => h op hop

/-- What makes an operation allowed in some state holds of every operation of the run. -/
theorem forall_of_guarded {Allowed : ι → σ → Prop} {P : ι → Prop}
    (hP : ∀ op s, Allowed op s → P op) {ops : List ι} {s : σ} (h : Guarded step Allowed ops s) :
    ∀ op ∈ ops, P op := by
  induction ops generalizing s with
  | nil => simp
  | cons op ops ih =>
    intro o ho
    rcases List.mem_cons.1 ho with rfl | ho
    · exact hP o s h.1
    · exact ih h.2 o ho

/-- What every allowed operation preserves holds after every guarded run. -/
theorem invariant (Inv : σ → Prop) {Allowed : ι → σ → Prop}
    (preserved : ∀ op s, Allowed op s → Inv s → Inv (step op s)) {ops : List ι} {s : σ}
    (hops : Guarded step Allowed ops s) (hs : Inv s) : Inv (after step ops s) := by
  induction ops generalizing s with
  | nil => exact hs
  | cons op ops ih => exact ih hops.2 (preserved op s hops.1 hs)

/-- What every operation preserves holds after every run. -/
theorem always (Inv : σ → Prop) (preserved : ∀ op s, Inv s → Inv (step op s)) {ops : List ι}
    {s : σ} (hs : Inv s) : Inv (after step ops s) := by
  induction ops generalizing s with
  | nil => exact hs
  | cons op ops ih => exact ih (preserved op s hs)

end Run
