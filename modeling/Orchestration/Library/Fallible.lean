import Mathlib.Tactic.Common

/-!
# Computations that may fail

Small rules for reading a successful run of a computation in `Except` backwards:
which guards it passed and which values it went through.
-/

namespace Fallible

variable {ε α β : Type}

/-- Throw `msg` when `c` holds. -/
def refuse (c : Prop) [Decidable c] (msg : ε) : Except ε Unit :=
  if c then .error msg else .ok ()

/-- The value of `o`, or throw `msg`. -/
def orThrow (o : Option α) (msg : ε) : Except ε α :=
  match o with
  | some a => .ok a
  | none => .error msg

/-- Run the check on the value of `o`, if it has one. -/
def whenSome (o : Option α) (check : α → Except ε Unit) : Except ε Unit :=
  match o with
  | some a => check a
  | none => .ok ()

theorem bind_eq_ok {x : Except ε α} {f : α → Except ε β} {b : β} :
    (x >>= f) = .ok b ↔ ∃ a, x = .ok a ∧ f a = .ok b := by
  cases x with
  | error e => exact ⟨fun h => (nomatch h), fun ⟨_, h, _⟩ => (nomatch h)⟩
  | ok a =>
    constructor
    · intro h
      exact ⟨a, rfl, h⟩
    · rintro ⟨a', h, hf⟩
      cases h
      exact hf

@[simp] theorem pure_eq_ok {a b : α} : (pure a : Except ε α) = .ok b ↔ a = b := by
  change Except.ok a = .ok b ↔ _
  simp

@[simp] theorem throw_eq_ok {e : ε} {b : α} : (throw e : Except ε α) = .ok b ↔ False := by
  change Except.error e = .ok b ↔ _
  simp

@[simp] theorem refuse_eq_ok {c : Prop} [Decidable c] {msg : ε} {u : Unit} :
    refuse c msg = .ok u ↔ ¬ c := by
  by_cases h : c <;> simp [refuse, h]

@[simp] theorem orThrow_eq_ok {o : Option α} {msg : ε} {a : α} :
    orThrow o msg = .ok a ↔ o = some a := by
  cases o <;> simp [orThrow]

@[simp] theorem whenSome_eq_ok {o : Option α} {check : α → Except ε Unit} {u : Unit} :
    whenSome o check = .ok u ↔ ∀ a, o = some a → check a = .ok () := by
  cases o <;> simp [whenSome]

/-- A loop of checks passes exactly where every check does. -/
theorem forM_eq_ok {check : α → Except ε Unit} {entries : List α} {u : Unit} :
    entries.forM check = .ok u ↔ ∀ a ∈ entries, check a = .ok () := by
  rw [List.forM_eq_forM]
  induction entries with
  | nil => simp
  | cons a entries ih =>
    rw [List.forM_cons, bind_eq_ok, List.forall_mem_cons]
    constructor
    · rintro ⟨u', hcheck, hrest⟩
      exact ⟨hcheck, ih.1 hrest⟩
    · rintro ⟨hcheck, hrest⟩
      exact ⟨(), hcheck, ih.2 hrest⟩

theorem exists_eq_ok {ε α : Type} {x : Except ε α} (h : x.toOption.isSome = true) :
    ∃ a, x = .ok a := by
  cases x with
  | error e => cases h
  | ok a => exact ⟨a, rfl⟩

/-- A map over a list succeeds when it does on every entry. -/
theorem mapM_ok {f : α → Except ε β} (P : β → Prop) {entries : List α}
    (h : ∀ a ∈ entries, ∃ b, f a = .ok b ∧ P b) :
    ∃ bs, entries.mapM f = .ok bs ∧ ∀ b ∈ bs, P b := by
  induction entries with
  | nil => exact ⟨[], rfl, fun _ hb => absurd hb List.not_mem_nil⟩
  | cons a entries ih =>
    obtain ⟨b, hb, hPb⟩ := h a List.mem_cons_self
    obtain ⟨bs, hbs, hP⟩ := ih fun x hx => h x (List.mem_cons_of_mem a hx)
    refine ⟨b :: bs, ?_, List.forall_mem_cons.2 ⟨hPb, hP⟩⟩
    rw [List.mapM_cons, bind_eq_ok]
    exact ⟨b, hb, bind_eq_ok.2 ⟨bs, hbs, rfl⟩⟩

/-- What holds of every result of a step holds of all that a map yields. -/
theorem forall_of_mapM {f : α → Except ε β} (P : β → Prop) (hf : ∀ a b, f a = .ok b → P b)
    {entries : List α} {bs : List β} (h : entries.mapM f = .ok bs) : ∀ b ∈ bs, P b := by
  induction entries generalizing bs with
  | nil =>
    obtain rfl := pure_eq_ok.1 h
    exact fun b hb => absurd hb List.not_mem_nil
  | cons a entries ih =>
    rw [List.mapM_cons, bind_eq_ok] at h
    obtain ⟨b, hb, hbind⟩ := h
    obtain ⟨rest, hrest, hpure⟩ := bind_eq_ok.1 hbind
    obtain rfl := pure_eq_ok.1 hpure
    exact List.forall_mem_cons.2 ⟨hf a b hb, ih hrest⟩

theorem mapM_eq_map {f : α → Except ε β} {g : α → β} {entries : List α}
    (h : ∀ a ∈ entries, f a = .ok (g a)) : entries.mapM f = .ok (entries.map g) := by
  induction entries with
  | nil => rfl
  | cons a entries ih =>
    rw [List.mapM_cons, bind_eq_ok]
    refine ⟨g a, h a List.mem_cons_self, bind_eq_ok.2 ⟨entries.map g, ?_, rfl⟩⟩
    exact ih fun x hx => h x (List.mem_cons_of_mem a hx)

/-- A map whose every result is a function of its entry. -/
theorem eq_map_of_mapM {f : α → Except ε β} {g : α → β} (hf : ∀ a b, f a = .ok b → b = g a)
    {entries : List α} {bs : List β} (h : entries.mapM f = .ok bs) : bs = entries.map g := by
  induction entries generalizing bs with
  | nil => exact (pure_eq_ok.1 h).symm
  | cons a entries ih =>
    rw [List.mapM_cons, bind_eq_ok] at h
    obtain ⟨b, hb, hbind⟩ := h
    obtain ⟨rest, hrest, hpure⟩ := bind_eq_ok.1 hbind
    obtain rfl := pure_eq_ok.1 hpure
    rw [hf a b hb, ih hrest, List.map_cons]

/-- A map that succeeds has succeeded on every entry. -/
theorem exists_of_mapM {f : α → Except ε β} {entries : List α} {bs : List β}
    (h : entries.mapM f = .ok bs) {a : α} (ha : a ∈ entries) : ∃ b, f a = .ok b := by
  induction entries generalizing bs with
  | nil => exact absurd ha List.not_mem_nil
  | cons x entries ih =>
    rw [List.mapM_cons, bind_eq_ok] at h
    obtain ⟨b, hb, hbind⟩ := h
    obtain ⟨rest, hrest, -⟩ := bind_eq_ok.1 hbind
    rcases List.mem_cons.1 ha with rfl | ha
    · exact ⟨b, hb⟩
    · exact ih hrest ha

/-- What every step of a loop that did not fail preserves. -/
theorem foldlM_invariant {f : β → α → Except ε β} (Inv : β → Prop)
    (step : ∀ b a b', Inv b → f b a = .ok b' → Inv b') {entries : List α} {b b' : β} (hb : Inv b)
    (h : entries.foldlM f b = .ok b') : Inv b' := by
  induction entries generalizing b with
  | nil =>
    obtain rfl := pure_eq_ok.1 h
    exact hb
  | cons a entries ih =>
    rw [List.foldlM_cons, bind_eq_ok] at h
    obtain ⟨mid, hmid, hrest⟩ := h
    exact ih (step b a mid hb hmid) hrest

end Fallible
