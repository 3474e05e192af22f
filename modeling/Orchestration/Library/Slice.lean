import Mathlib.Data.List.Basic
import Mathlib.Tactic.Common

/-!
# Parts of a growing stream

A part stands at an offset of a stream. It stays there when the stream grows, and two
parts that meet join to one.
-/

namespace Slice

variable {α : Type}

/-- `part` stands at `offset` in `whole`. -/
def At (whole : List α) (offset : ℕ) (part : List α) : Prop := part <+: whole.drop offset

variable {whole part other : List α} {offset offset' : ℕ}

theorem at_nil : At whole offset [] := List.nil_prefix

theorem At.grow {more : List α} (h : At whole offset part) (hne : part ≠ []) :
    At (whole ++ more) offset part := by
  have hlt : offset < whole.length := by
    by_contra hge
    have hnil : whole.drop offset = [] := List.drop_eq_nil_of_le (by omega)
    rw [At, hnil] at h
    exact hne (List.prefix_nil.1 h)
  rw [At, List.drop_append_of_le_length (by omega)]
  exact h.trans (List.prefix_append _ _)

theorem At.le_length (h : At whole offset part) (hne : part ≠ []) :
    offset + part.length ≤ whole.length := by
  have hle := List.IsPrefix.length_le h
  rw [List.length_drop] at hle
  have hpos := List.length_pos_iff.2 hne
  omega

/-- A part that reaches the end of the stream is all that follows its offset. -/
theorem At.eq_drop (h : At whole offset part) (hend : offset + part.length = whole.length) :
    part = whole.drop offset := by
  refine List.IsPrefix.eq_of_length h ?_
  rw [List.length_drop]
  omega

theorem at_drop : At whole offset (whole.drop offset) := List.prefix_refl _

theorem at_append : At (whole ++ part) whole.length part := by
  simp [At]

theorem At.drop (h : At whole offset part) (k : ℕ) : At whole (offset + k) (part.drop k) := by
  obtain ⟨rest, hrest⟩ := h
  rw [At, ← List.drop_drop, ← hrest, List.drop_append]
  exact List.prefix_append _ _

theorem At.take (h : At whole offset part) (k : ℕ) : At whole offset (part.take k) :=
  (List.take_prefix k part).trans h

theorem At.append (h : At whole offset part) (h' : At whole (offset + part.length) other) :
    At whole offset (part ++ other) := by
  obtain ⟨rest, hrest⟩ := h
  rw [At, ← List.drop_drop, ← hrest, List.drop_left] at h'
  rw [At, ← hrest]
  exact List.prefix_append_right_inj part |>.2 h'

/-- A part is what stands between its offset and its end. -/
theorem At.eq_drop_take (h : At whole offset part) :
    part = (whole.take (offset + part.length)).drop offset := by
  rw [List.drop_take, Nat.add_sub_cancel_left]
  exact List.prefix_iff_eq_take.1 h

instance [DecidableEq α] (whole : List α) (offset : ℕ) (part : List α) :
    Decidable (At whole offset part) :=
  inferInstanceAs (Decidable (part <+: whole.drop offset))

/-- Two parts of one length at one offset are the same. -/
theorem At.unique (h : At whole offset part) (h' : At whole offset other)
    (hlength : part.length = other.length) : part = other :=
  (List.prefix_of_prefix_length_le h h' (Nat.le_of_eq hlength)).eq_of_length hlength

/-- Two parts that meet or overlap join to one. -/
theorem At.join (h : At whole offset part) (h' : At whole offset' other)
    (hmeet : offset' ≤ offset + part.length) :
    At whole offset (part ++ other.drop (offset + part.length - offset')) := by
  apply h.append
  have hdrop := h'.drop (offset + part.length - offset')
  rwa [show offset' + (offset + part.length - offset') = offset + part.length by omega] at hdrop

end Slice
