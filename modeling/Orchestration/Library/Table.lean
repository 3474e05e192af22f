import Mathlib.Data.List.Pairwise
import Mathlib.Tactic.Common

/-!
# Tables with a primary key

A table is the list of its rows in insertion order together with the fact that
no two of them share a key. The operations are those of a relational store:
look up, insert, upsert, update and delete. Each keeps the key constraint by
construction, and what a lookup returns after it is one lemma.
-/

/-- A table of rows `ρ` whose primary key is `key`. -/
structure Table {κ ρ : Type} (key : ρ → κ) where
  rows : List ρ := []
  unique : rows.Pairwise fun a b => key a ≠ key b := by simp

namespace Table

variable {κ ρ : Type} [DecidableEq κ] {key : ρ → κ}

/-- A change of a row that keeps its key. -/
structure Update (key : ρ → κ) where
  run : ρ → ρ
  keeps : ∀ r, key (run r) = key r := by intro; rfl

omit [DecidableEq κ] in
@[ext] theorem ext {t t' : Table key} (h : t.rows = t'.rows) : t = t' := by
  cases t; cases t'; cases h; rfl

/-- The row with key `k`. -/
def find? (t : Table key) (k : κ) : Option ρ := t.rows.find? fun row => key row = k

/-- Replace the row with the key of `row` by its `update`, or append `row`. -/
def upsert (t : Table key) (row : ρ) (update : Update key) : Table key :=
  if hmem : ∃ r ∈ t.rows, key r = key row then
    { rows := t.rows.map fun r => if key r = key row then update.run r else r
      unique := by
        refine List.Pairwise.map _ (fun a b h => ?_) t.unique
        split <;> split <;> simpa only [update.keeps] using h }
  else
    { rows := t.rows ++ [row]
      unique := List.pairwise_append.2 ⟨t.unique, List.pairwise_singleton _ _,
        fun a ha b hb h => hmem ⟨a, ha, by rw [h, List.mem_singleton.1 hb]⟩⟩ }

/-- Append `row` unless its key is taken. -/
def insert? (t : Table key) (row : ρ) : Option (Table key) :=
  if hmem : ∃ r ∈ t.rows, key r = key row then none
  else
    some { rows := t.rows ++ [row]
           unique := List.pairwise_append.2 ⟨t.unique, List.pairwise_singleton _ _,
             fun a ha b hb h => hmem ⟨a, ha, by rw [h, List.mem_singleton.1 hb]⟩⟩ }

/-- Update every row that satisfies `p`. -/
def updateWhere (t : Table key) (p : ρ → Bool) (update : Update key) : Table key where
  rows := t.rows.map fun r => if p r then update.run r else r
  unique := by
    refine List.Pairwise.map _ (fun a b h => ?_) t.unique
    split <;> split <;> simpa only [update.keeps] using h

/-- Keep the rows that satisfy `p`. -/
def filter (t : Table key) (p : ρ → Bool) : Table key where
  rows := t.rows.filter p
  unique := t.unique.filter p

variable {t : Table key} {row : ρ} {k : κ}

omit [DecidableEq κ] in
theorem eq_of_key_eq {a b : ρ} (ha : a ∈ t.rows) (hb : b ∈ t.rows) (h : key a = key b) :
    a = b := by
  by_contra hne
  have : Std.Symm fun a b => key a ≠ key b := ⟨fun _ _ hab => hab.symm⟩
  exact t.unique.forall ha hb hne h

theorem find?_eq_some {row : ρ} : t.find? k = some row ↔ row ∈ t.rows ∧ key row = k := by
  constructor
  · intro h
    exact ⟨List.mem_of_find?_eq_some h, by simpa using List.find?_some h⟩
  · rintro ⟨hmem, hk⟩
    cases hfind : t.find? k with
    | none => exact absurd hk (by simpa using List.find?_eq_none.1 hfind row hmem)
    | some r =>
      have hr := List.mem_of_find?_eq_some hfind
      have hkr : key r = k := by simpa using List.find?_some hfind
      rw [eq_of_key_eq hr hmem (hkr.trans hk.symm)]

theorem find?_eq_none : t.find? k = none ↔ ∀ row ∈ t.rows, key row ≠ k := by
  simp [find?, List.find?_eq_none]

theorem find?_upsert_self {update : Update key} : (t.upsert row update).find? (key row) =
    some (((t.find? (key row)).map update.run).getD row) := by
  rw [find?_eq_some]
  cases hfind : t.find? (key row) with
  | some r =>
    obtain ⟨hr, hk⟩ := find?_eq_some.1 hfind
    refine ⟨?_, by simp [update.keeps, hk]⟩
    rw [upsert, dif_pos ⟨r, hr, hk⟩]
    exact List.mem_map.2 ⟨r, hr, by simp [hk]⟩
  | none =>
    refine ⟨?_, rfl⟩
    rw [upsert, dif_neg (by simpa using find?_eq_none.1 hfind)]
    simp

theorem find?_upsert_of_ne {update : Update key} (hk : k ≠ key row) :
    (t.upsert row update).find? k = t.find? k := by
  ext r
  simp only [find?_eq_some]
  refine and_congr_left fun hr => ?_
  subst hr
  unfold upsert
  split
  · simp only [List.mem_map]
    constructor
    · rintro ⟨a, ha, rfl⟩
      split at hk
      · next hrow => exact absurd ((update.keeps a).trans hrow) hk
      · next hrow => simpa [hrow] using ha
    · intro hr
      exact ⟨r, hr, by simp [hk]⟩
  · simp only [List.mem_append, List.mem_singleton, or_iff_left_iff_imp]
    rintro rfl
    exact absurd rfl hk

/-- A row with a new key is appended. -/
theorem rows_upsert_of_none {update : Update key} (h : t.find? (key row) = none) :
    (t.upsert row update).rows = t.rows ++ [row] := by
  have hfree := find?_eq_none.1 h
  rw [upsert, dif_neg fun ⟨r, hr, hk⟩ => hfree r hr hk]

/-- What a lookup returns after an upsert. -/
theorem find?_upsert {update : Update key} : (t.upsert row update).find? k =
    if k = key row then some (((t.find? k).map update.run).getD row) else t.find? k := by
  split
  · next hk => rw [hk, find?_upsert_self]
  · next hk => rw [find?_upsert_of_ne hk]

/-- Two tables of the same rows whose keys single out the same row do the same on an upsert. -/
theorem rows_upsert_congr {κ' : Type} [DecidableEq κ'] {key' : ρ → κ'} {t' : Table key'}
    {update : Update key} {update' : Update key'} (hrows : t'.rows = t.rows)
    (hkeys : ∀ r ∈ t.rows, key' r = key' row ↔ key r = key row)
    (hrun : update'.run = update.run) :
    (t'.upsert row update').rows = (t.upsert row update).rows := by
  unfold upsert
  by_cases hmem : ∃ r ∈ t.rows, key r = key row
  · obtain ⟨r, hr, hk⟩ := hmem
    have hmem' : ∃ r ∈ t'.rows, key' r = key' row := ⟨r, hrows ▸ hr, (hkeys r hr).2 hk⟩
    rw [dif_pos hmem', dif_pos ⟨r, hr, hk⟩]
    simp only [hrows, hrun]
    refine List.map_congr_left fun r hr => ?_
    simp only [hkeys r hr]
  · have hnone : ¬ ∃ r ∈ t'.rows, key' r = key' row := by
      rintro ⟨r, hr, hk⟩
      rw [hrows] at hr
      exact hmem ⟨r, hr, (hkeys r hr).1 hk⟩
    rw [dif_neg hnone, dif_neg hmem]
    exact congrArg (· ++ [row]) hrows

/-- A row of the table after an upsert is an old row with another key, the updated row, or the
new one. -/
theorem mem_upsert {update : Update key} {r : ρ} (h : r ∈ (t.upsert row update).rows) :
    r ∈ t.rows ∨ (∃ old ∈ t.rows, key old = key row ∧ r = update.run old) ∨ r = row := by
  unfold upsert at h
  split at h
  · obtain ⟨a, ha, rfl⟩ := List.mem_map.1 h
    split
    · next hk => exact .inr (.inl ⟨a, ha, hk, rfl⟩)
    · exact .inl ha
  · rcases List.mem_append.1 h with h | h
    · exact .inl h
    · exact .inr (.inr (List.mem_singleton.1 h))

/-- After an upsert there is a row with the key: the new one, or an old one updated. -/
theorem exists_mem_upsert (t : Table key) (row : ρ) (update : Update key) :
    ∃ r, r ∈ (t.upsert row update).rows ∧ key r = key row ∧
      (r = row ∨ ∃ old, r = update.run old) := by
  obtain ⟨hmem, hkey⟩ := find?_eq_some.1 (@find?_upsert_self _ _ _ _ t row update)
  refine ⟨_, hmem, hkey, ?_⟩
  cases t.find? (key row) with
  | none => exact .inl rfl
  | some old => exact .inr ⟨old, rfl⟩

theorem upsert_eq_self {update : Update key} {r : ρ} (hfind : t.find? (key row) = some r)
    (hupdate : update.run r = r) : t.upsert row update = t := by
  obtain ⟨hr, hk⟩ := find?_eq_some.1 hfind
  rw [upsert, dif_pos ⟨r, hr, hk⟩]
  refine ext ((List.map_congr_left fun a ha => ?_).trans (List.map_id _))
  split
  · next hka => rw [eq_of_key_eq ha hr (hka.trans hk.symm)]; exact hupdate
  · rfl

theorem insert?_eq_none (hfind : (t.find? (key row)).isSome = true) : t.insert? row = none := by
  obtain ⟨r, hr⟩ := Option.isSome_iff_exists.1 hfind
  obtain ⟨hmem, hk⟩ := find?_eq_some.1 hr
  rw [insert?, dif_pos ⟨r, hmem, hk⟩]

omit [DecidableEq κ] in
theorem updateWhere_eq_self {p : ρ → Bool} {update : Update key}
    (h : ∀ r ∈ t.rows, p r = true → update.run r = r) : t.updateWhere p update = t := by
  refine ext ((List.map_congr_left fun a ha => ?_).trans (List.map_id _))
  split
  · next hp => exact h a ha hp
  · rfl

/-- What a lookup returns after an update. -/
theorem find?_updateWhere {p : ρ → Bool} {update : Update key} :
    (t.updateWhere p update).find? k =
      (t.find? k).map fun r => if p r then update.run r else r := by
  have hkey : ∀ r, key (if p r then update.run r else r) = key r := by
    intro r
    split
    · exact update.keeps r
    · rfl
  simp only [find?, updateWhere, List.find?_map]
  have hcomp : ((fun row => decide (key row = k)) ∘ fun r => if p r then update.run r else r) =
      fun row => decide (key row = k) := by
    funext r
    simp only [Function.comp_apply, hkey r]
  rw [hcomp]

omit [DecidableEq κ] in
/-- An update of rows that a query does not see, before or after. -/
theorem filter_updateWhere {p q : ρ → Bool} {update : Update key}
    (h : ∀ r, p r = true → q r = false ∧ q (update.run r) = false) :
    (t.updateWhere p update).rows.filter q = t.rows.filter q := by
  simp only [updateWhere]
  induction t.rows with
  | nil => rfl
  | cons r rows ih =>
    rw [List.map_cons, List.filter_cons, List.filter_cons, ih]
    by_cases hp : p r = true
    · simp [hp, (h r hp).1, (h r hp).2]
    · simp [hp]

theorem insert?_eq_some {t' : Table key} :
    t.insert? row = some t' ↔ t.find? (key row) = none ∧ t'.rows = t.rows ++ [row] := by
  unfold insert?
  rw [find?_eq_none]
  split
  · next hmem =>
    obtain ⟨r, hr, hk⟩ := hmem
    exact ⟨fun h => (nomatch h), fun h => absurd hk (h.1 r hr)⟩
  · next hmem =>
    have hnot : ∀ r ∈ t.rows, key r ≠ key row := fun r hr hk => hmem ⟨r, hr, hk⟩
    constructor
    · intro h
      cases h
      exact ⟨hnot, rfl⟩
    · rintro ⟨-, hrows⟩
      exact congrArg some (ext hrows.symm)

/-- A row with a free key can be inserted. -/
theorem exists_insert? (h : t.find? (key row) = none) : ∃ t', t.insert? row = some t' := by
  have hfree : ¬ ∃ r ∈ t.rows, key r = key row := by
    rintro ⟨r, hr, hk⟩
    exact find?_eq_none.1 h r hr hk
  rw [insert?, dif_neg hfree]
  exact ⟨_, rfl⟩

/-- What a lookup returns after an insertion. -/
theorem find?_insert? {t' : Table key} (h : t.insert? row = some t') :
    t'.find? k = if k = key row then some row else t.find? k := by
  obtain ⟨hfree, hrows⟩ := insert?_eq_some.1 h
  unfold find? at hfree ⊢
  rw [hrows, List.find?_append]
  split
  · next hk =>
    subst hk
    simp [hfree]
  · next hk => simp [Ne.symm hk]

/-- What a lookup returns after a list of rows was inserted, each unless its key was taken. -/
theorem find?_foldl_insert? (rows : List ρ) (t : Table key) :
    (rows.foldl (fun t row => (t.insert? row).getD t) t).find? k =
      (t.find? k).or (rows.find? fun row => key row = k) := by
  induction rows generalizing t with
  | nil => simp
  | cons row rows ih =>
    rw [List.foldl_cons, ih, List.find?_cons]
    cases hinsert : t.insert? row with
    | some t' =>
      rw [Option.getD_some, find?_insert? hinsert]
      by_cases hk : k = key row
      · subst hk
        simp [(insert?_eq_some.1 hinsert).1]
      · simp [hk, Ne.symm hk]
    | none =>
      rw [Option.getD_none]
      by_cases hk : key row = k
      · -- the key is taken, so the lookup had succeeded before
        have htaken : (t.find? k).isSome = true := by
          by_contra hfree
          rw [Option.not_isSome_iff_eq_none, ← hk] at hfree
          have hnone := Table.find?_eq_none.1 hfree
          rw [insert?, dif_neg fun ⟨r, hr, hrk⟩ => hnone r hr hrk] at hinsert
          cases hinsert
        obtain ⟨r, hr⟩ := Option.isSome_iff_exists.1 htaken
        simp [hr]
      · simp [hk]

omit [DecidableEq κ] in
theorem mem_filter {p : ρ → Bool} {r : ρ} : r ∈ (t.filter p).rows ↔ r ∈ t.rows ∧ p r = true :=
  List.mem_filter

theorem find?_filter {p : ρ → Bool} : (t.filter p).find? k = (t.find? k).filter p := by
  ext r
  rw [Option.filter_eq_some_iff, find?_eq_some, find?_eq_some, mem_filter]
  exact and_right_comm

/-- A fold that every entry leaves where it is. -/
theorem foldl_eq_self {σ ι : Type} {f : σ → ι → σ} {s : σ} {entries : List ι}
    (h : ∀ entry ∈ entries, f s entry = s) : entries.foldl f s = s := by
  induction entries with
  | nil => rfl
  | cons entry entries ih =>
    rw [List.foldl_cons, h entry List.mem_cons_self]
    exact ih fun e he => h e (List.mem_cons_of_mem _ he)

/-- The rows as they are shown under another key. -/
def view {κ' ρ' : Type} {key' : ρ' → κ'} (t : Table key) (f : ρ → ρ')
    (hkey : ∀ a b, key' (f a) = key' (f b) → key a = key b) : Table key' where
  rows := t.rows.map f
  unique := List.Pairwise.map f (fun a b h heq => h (hkey a b heq)) t.unique

theorem find?_view {ρ' : Type} {key' : ρ' → κ} {f : ρ → ρ'} (hkey : ∀ r, key' (f r) = key r)
    (hview : ∀ a b, key' (f a) = key' (f b) → key a = key b) :
    (t.view f hview).find? k = (t.find? k).map f := by
  simp only [find?, view, List.find?_map]
  refine congrArg (Option.map f ·) (congrArg (List.find? · t.rows) (funext fun r => ?_))
  simp only [Function.comp_apply, hkey r]

end Table
