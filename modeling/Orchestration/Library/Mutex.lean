import Mathlib.Data.List.Basic
import Mathlib.Logic.Function.Basic
import Mathlib.Logic.Relation

/-!
# Mutual exclusion

A family of locks, one for each target, and the toggle log that implements one
of them: every entry names a party, and the party that finds the lock free takes
it while the party that holds it gives it back.
-/

namespace Mutex

variable {τ β : Type} [DecidableEq τ]

/-- Who holds each lock. -/
abbrev Holders (τ β : Type) := τ → Option β

/-- Every lock is free. -/
def free : Holders τ β := fun _ => none

/-- One step of the locks: a free one is taken, or a held one is given back by its holder. -/
inductive Step (s : Holders τ β) : Holders τ β → Prop where
  | acquire {target : τ} {party : β} (hfree : s target = none) :
      Step s (Function.update s target (some party))
  | release {target : τ} {party : β} (hheld : s target = some party) :
      Step s (Function.update s target none)

/-- Any number of steps. -/
abbrev Reaches : Holders τ β → Holders τ β → Prop := Relation.ReflTransGen Step

/-! ## The toggle log of one lock -/

variable [DecidableEq β]

/-- The holder after one more entry. -/
def toggle (held : Option β) (party : β) : Option β :=
  if held = some party then none else some party

/-- The holder after all entries. -/
def holder (entries : List β) : Option β := entries.foldl toggle none

@[simp] theorem holder_nil : holder ([] : List β) = none := rfl

@[simp] theorem holder_concat (entries : List β) (party : β) :
    holder (entries ++ [party]) = toggle (holder entries) party := by
  simp [holder]

/-- Every entry found the lock free or held by its own party. -/
inductive Disciplined : List β → Prop where
  | nil : Disciplined []
  | concat {entries : List β} {party : β} (h : Disciplined entries)
      (hslot : holder entries = none ∨ holder entries = some party) :
      Disciplined (entries ++ [party])

/-- In a disciplined log the holder is the one party with an odd number of entries. -/
theorem Disciplined.holder_eq_some {entries : List β} (h : Disciplined entries) (party : β) :
    holder entries = some party ↔ entries.count party % 2 = 1 := by
  induction h generalizing party with
  | nil => simp
  | @concat entries other h hslot ih =>
    rw [holder_concat, List.count_append, toggle]
    have hother := ih other
    have hparty := ih party
    by_cases hsame : other = party
    · subst hsame
      rcases hslot with hfree | hheld
      · have heven : ¬ entries.count other % 2 = 1 := by simpa [hfree] using hother
        simp [hfree]
        omega
      · have hodd : entries.count other % 2 = 1 := hother.1 hheld
        simp [hheld]
        omega
    · have heven : ¬ entries.count party % 2 = 1 := by
        rcases hslot with hfree | hheld
        · simpa [hfree] using hparty
        · simpa [hheld, hsame] using hparty
      have hcount : [other].count party = 0 := by simp [hsame]
      rw [hcount, Nat.add_zero]
      constructor
      · intro hnew
        split at hnew
        · cases hnew
        · exact absurd (Option.some.inj hnew) hsame
      · exact fun hodd => absurd hodd heven

/-- At most one party has an odd number of entries. -/
theorem Disciplined.unique {entries : List β} (h : Disciplined entries) {a b : β}
    (ha : entries.count a % 2 = 1) (hb : entries.count b % 2 = 1) : a = b := by
  have hholderA := (h.holder_eq_some a).2 ha
  have hholderB := (h.holder_eq_some b).2 hb
  exact Option.some.inj (hholderA.symm.trans hholderB)

end Mutex
