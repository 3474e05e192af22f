import Mathlib.Data.List.Induction
import Orchestration.Library.Loop
import Orchestration.Library.Transaction

/-!
# Event-sourced stores

A store keeps a log of numbered events and the tables that are folded from it. An event is
appended and folded in one transaction, so the tables are the fold of the log in every state:
what is shown of the fold, one event after the other, holds of the store, and folding the whole
log again changes nothing.
-/

namespace EventStore

open Fallible Transaction

/-- An event as the log keeps it. -/
structure Entry (E : Type) where
  event : E
  seq : ℕ
  ts : ℕ
deriving DecidableEq, Repr

/-- How events are admitted to a log, and how tables are folded from them. -/
structure Projection (E T ε : Type) where
  empty : T
  /-- Refuse a number that the log cannot keep. -/
  number : ℕ → Except ε Unit
  /-- What an event must satisfy, when it is written and when it is read. -/
  schema : E → Except ε Unit
  apply : T → Entry E → Except ε T

/-- A store: its log, its tables, and the clock that each append reads. -/
structure Store (E T : Type) where
  clock : ℕ → ℕ
  log : List (Entry E) := []
  tables : T

namespace Store

variable {E T : Type}

/-- The number of the next event. -/
def nextSeq (s : Store E T) : ℕ := s.log.length + 1

/-- The next event as the log will keep it. -/
def entry (s : Store E T) (event : E) : Entry E := ⟨event, s.nextSeq, s.clock s.nextSeq⟩

/-- The store with one more event and the tables after it. -/
def push (s : Store E T) (event : E) (tables : T) : Store E T :=
  { s with log := s.log ++ [s.entry event], tables }

@[simp] theorem push_tables (s : Store E T) (event : E) (tables : T) :
    (s.push event tables).tables = tables := rfl

@[simp] theorem push_log (s : Store E T) (event : E) (tables : T) :
    (s.push event tables).log = s.log ++ [s.entry event] := rfl

@[simp] theorem push_clock (s : Store E T) (event : E) (tables : T) :
    (s.push event tables).clock = s.clock := rfl

end Store

namespace Projection

variable {E T R ε : Type} (p : Projection E T ε)

/-- A new store. -/
def start (clock : ℕ → ℕ) : Store E T := { clock, tables := p.empty }

/-- Check one event of the log, and fold it. -/
def step (t : T) (entry : Entry E) : Except ε T := do
  p.schema entry.event
  p.apply t entry

/-- Fold a log. -/
def fold (t : T) (log : List (Entry E)) : Except ε T := log.foldlM p.step t

/-- Append one event and fold it. -/
def record (event : E) : Tx (Store E T) ε Unit := do
  p.schema event
  let s ← get
  p.number s.nextSeq
  let tables ← p.step s.tables (s.entry event)
  set (s.push event tables)

/-- Record an event, unless the tables show what it would lead to already. -/
def settle (check : T → Except ε (Option R)) (event : E) (read : T → Except ε R) :
    Proc (Store E T) ε R :=
  transaction do
    let s ← get
    match ← check s.tables with
    | some found => return found
    | none =>
      p.record event
      let s ← get
      read s.tables

/-- Fold the whole log again, `limit` events at a time. -/
def rebuild (limit : ℕ) : Proc (Store E T) ε Unit :=
  transaction do
    let s ← get
    let tables ← Loop.foldPages Entry.seq limit s.log p.step 0 p.empty
    set { s with tables }

variable {p}
variable {event : E} {s s' : Store E T}

theorem step_eq_ok {t t' : T} {entry : Entry E} :
    p.step t entry = .ok t' ↔ p.schema entry.event = .ok () ∧ p.apply t entry = .ok t' := by
  rw [step, bind_eq_ok]
  exact ⟨fun ⟨_, hschema, happly⟩ => ⟨hschema, happly⟩, fun ⟨hschema, happly⟩ =>
    ⟨(), hschema, happly⟩⟩

theorem record_eq_ok {u : Unit} : p.record event s = .ok (u, s') ↔
    p.number s.nextSeq = .ok () ∧ ∃ tables, p.step s.tables (s.entry event) = .ok tables ∧
      s' = s.push event tables := by
  constructor
  · intro h
    obtain ⟨_, -, h⟩ := Tx.liftM_bind_eq_ok.1 h
    rw [Tx.get_bind] at h
    obtain ⟨_, hnumber, h⟩ := Tx.liftM_bind_eq_ok.1 h
    obtain ⟨tables, htables, h⟩ := Tx.liftM_bind_eq_ok.1 h
    exact ⟨hnumber, tables, htables, Tx.set_eq_ok.1 h⟩
  · rintro ⟨hnumber, tables, htables, rfl⟩
    refine Tx.liftM_bind_eq_ok.2 ⟨(), (step_eq_ok.1 htables).1, ?_⟩
    rw [Tx.get_bind]
    refine Tx.liftM_bind_eq_ok.2 ⟨(), hnumber, ?_⟩
    exact Tx.liftM_bind_eq_ok.2 ⟨tables, htables, rfl⟩

/-- One event was recorded, or nothing happened. -/
def Writes (p : Projection E T ε) (s s' : Store E T) : Prop :=
  s' = s ∨ ∃ event u, p.record event s = .ok (u, s')

section

variable {check : T → Except ε (Option R)} {read : T → Except ε R}

/-- A settled call returns what the tables show, or records its event and reads it back. -/
theorem settle_eq_ok {r : R} (h : p.settle check event read s = (.ok r, s')) :
    (check s.tables = .ok (some r) ∧ s' = s) ∨
      (check s.tables = .ok none ∧ p.record event s = .ok ((), s') ∧ read s'.tables = .ok r) := by
  have hbody := transaction_eq_ok.1 h
  rw [Tx.get_bind] at hbody
  obtain ⟨found, hcheck, hbody⟩ := Tx.liftM_bind_eq_ok.1 hbody
  cases found with
  | some found =>
    obtain ⟨rfl, rfl⟩ := Tx.pure_eq_ok.1 hbody
    exact .inl ⟨hcheck, rfl⟩
  | none =>
    obtain ⟨_, mid, hrecord, hbody⟩ := Tx.bind_eq_ok.1 hbody
    rw [Tx.get_bind] at hbody
    obtain ⟨hread, rfl⟩ := Tx.liftM_eq_ok.1 hbody
    exact .inr ⟨hcheck, hrecord, hread⟩

/-- Whatever a call returns, it leaves the store alone, or records its event where the tables do
not show it. -/
theorem settle_exec (check : T → Except ε (Option R)) (event : E) (read : T → Except ε R)
    (s : Store E T) : (p.settle check event read).exec s = s ∨
      check s.tables = .ok none ∧
        p.record event s = .ok ((), (p.settle check event read).exec s) := by
  rcases hrun : p.settle check event read s with ⟨e | r, last⟩
  · exact .inl ((congrArg Prod.snd hrun).trans (transaction_error hrun))
  · have hlast : (p.settle check event read).exec s = last := congrArg Prod.snd hrun
    rw [hlast]
    rcases settle_eq_ok hrun with ⟨-, rfl⟩ | ⟨hcheck, hrecord, -⟩
    · exact .inl rfl
    · exact .inr ⟨hcheck, hrecord⟩

theorem settle_writes (check : T → Except ε (Option R)) (event : E) (read : T → Except ε R)
    (s : Store E T) : p.Writes s ((p.settle check event read).exec s) :=
  (settle_exec check event read s).imp id fun ⟨_, hrecord⟩ => ⟨event, (), hrecord⟩

end

/-! ## Sound stores -/

theorem fold_append {t t' : T} {log log' : List (Entry E)} :
    p.fold t (log ++ log') = .ok t' ↔
      ∃ mid, p.fold t log = .ok mid ∧ p.fold mid log' = .ok t' := by
  rw [fold, List.foldlM_append, bind_eq_ok]
  rfl

theorem fold_concat {t t' : T} {log : List (Entry E)} {entry : Entry E} :
    p.fold t (log ++ [entry]) = .ok t' ↔
      ∃ mid, p.fold t log = .ok mid ∧ p.step mid entry = .ok t' := by
  have hone : ∀ mid : T, p.fold mid [entry] = p.step mid entry := by
    intro mid
    rw [fold, List.foldlM_cons]
    exact bind_pure _
  simp only [fold_append, hone]

/-- The log is numbered from 1, and the tables are its fold. -/
structure Sound (p : Projection E T ε) (s : Store E T) : Prop where
  numbered : s.log.map Entry.seq = List.range' 1 s.log.length
  replayed : p.fold p.empty s.log = .ok s.tables

theorem Sound.start (clock : ℕ → ℕ) : p.Sound (p.start clock) where
  numbered := rfl
  replayed := rfl

theorem Sound.record {u : Unit} (h : p.Sound s) (hrecord : p.record event s = .ok (u, s')) :
    p.Sound s' := by
  obtain ⟨-, tables, htables, rfl⟩ := record_eq_ok.1 hrecord
  refine ⟨?_, fold_concat.2 ⟨s.tables, h.replayed, htables⟩⟩
  simp only [Store.push_log, List.map_append, h.numbered, List.length_append, List.map_singleton,
    List.length_singleton, Store.entry, Store.nextSeq]
  rw [List.range'_concat, Nat.one_mul, Nat.add_comm 1]

theorem Sound.writes (h : p.Sound s) (hwrites : p.Writes s s') : p.Sound s' := by
  rcases hwrites with rfl | ⟨event, u, hrecord⟩
  · exact h
  · exact h.record hrecord

/-- What holds of a new store and is kept by every event that is folded holds of every store. -/
theorem Sound.induction (Inv : List (Entry E) → T → Prop) (empty : Inv [] p.empty)
    (step : ∀ log t entry t', Inv log t → p.step t entry = .ok t' → Inv (log ++ [entry]) t')
    (h : p.Sound s) : Inv s.log s.tables := by
  have hfold : ∀ (log : List (Entry E)) (t : T), p.fold p.empty log = .ok t → Inv log t := by
    intro log
    induction log using List.reverseRecOn with
    | nil =>
      intro t ht
      obtain rfl := pure_eq_ok.1 ht
      exact empty
    | append_singleton log entry ih =>
      intro t ht
      obtain ⟨mid, hmid, hstep⟩ := fold_concat.1 ht
      exact step log mid entry t (ih mid hmid) hstep
  exact hfold _ _ h.replayed

theorem Sound.sorted (h : p.Sound s) : s.log.Pairwise fun a b => a.seq < b.seq := by
  have hseqs : (s.log.map Entry.seq).Pairwise (· < ·) := by
    rw [h.numbered]
    exact List.pairwise_lt_range'
  exact List.pairwise_map.1 hseqs

/-- Folding the log of a sound store again changes nothing. -/
theorem Sound.rebuild_eq {limit : ℕ} (h : p.Sound s) (hlimit : 0 < limit) :
    p.rebuild limit s = (.ok (), s) := by
  have hall : (s.log.filter fun entry => 0 < entry.seq) = s.log := by
    refine List.filter_eq_self.2 fun entry hentry => ?_
    have hmem : entry.seq ∈ List.range' 1 s.log.length := by
      rw [← h.numbered]
      exact List.mem_map_of_mem hentry
    exact decide_eq_true (List.mem_range'_1.1 hmem).1
  have hpages := @Loop.foldPages_eq _ _ _ Entry.seq limit s.log p.step hlimit h.sorted 0 p.empty
  rw [hall] at hpages
  refine transaction_eq_ok.2 ?_
  rw [Tx.get_bind]
  exact Tx.liftM_bind_eq_ok.2 ⟨s.tables, hpages.trans h.replayed, Tx.set_eq_ok.2 rfl⟩

end Projection

end EventStore
