import Mathlib.Data.Int.Order.Basic
import Mathlib.Data.Prod.Lex
import Mathlib.Tactic.Common

/-!
# The order of the floats

Apart from `NaN`, which is below nothing and above nothing, the floats stand in a line:
by sign, then by exponent, then by mantissa.
-/

namespace FloatOrder

open Float.Model

/-- Where a float stands in the line; `NaN` stands nowhere. -/
def place : UnpackedFloat → Option (ℤ ×ₗ ℤ ×ₗ ℤ)
  | .notANumber => none
  | .infinity .positive => some (toLex (2, toLex (0, 0)))
  | .infinity .negative => some (toLex (-2, toLex (0, 0)))
  | .zero _ => some (toLex (0, toLex (0, 0)))
  | .finite .positive mantissa exponent _ => some (toLex (1, toLex (exponent, mantissa)))
  | .finite .negative mantissa exponent _ => some (toLex (-1, toLex (-exponent, -mantissa)))

theorem then_eq_lt {e e' : ℤ} {m m' : ℕ} :
    (compare e e').then (compare m m') = .lt ↔ e < e' ∨ e = e' ∧ m < m' := by
  rw [Ordering.then_eq_lt, compare_lt_iff_lt, compare_eq_iff_eq, compare_lt_iff_lt]

theorem then_eq_gt {e e' : ℤ} {m m' : ℕ} :
    (compare e e').then (compare m m') = .gt ↔ e' < e ∨ e = e' ∧ m' < m := by
  rw [Ordering.then_eq_gt, compare_gt_iff_gt, compare_eq_iff_eq, compare_gt_iff_gt]

theorem unpacked_lt_iff (a b : UnpackedFloat) :
    a.lt b = true ↔ ∃ p q, place a = some p ∧ place b = some q ∧ p < q := by
  unfold UnpackedFloat.lt
  rcases a with (_ | _) | _ | (_ | _) | ⟨(_ | _), m, e, hm⟩ <;>
  rcases b with (_ | _) | _ | (_ | _) | ⟨(_ | _), m', e', hm'⟩ <;>
    dsimp only [UnpackedFloat.compare, place] <;>
    simp [Prod.Lex.toLex_lt_toLex, then_eq_lt, then_eq_gt] <;>
    rfl

theorem unpacked_beq_iff (a b : UnpackedFloat) :
    a.beq b = true ↔ ∃ p, place a = some p ∧ place b = some p := by
  unfold UnpackedFloat.beq
  rcases a with (_ | _) | _ | (_ | _) | ⟨(_ | _), m, e, hm⟩ <;>
  rcases b with (_ | _) | _ | (_ | _) | ⟨(_ | _), m', e', hm'⟩ <;>
    dsimp only [UnpackedFloat.compare, place] <;>
    simp [Ordering.then_eq_eq] <;>
    first | rfl | omega

/-- The line begins at minus infinity. -/
theorem bottom_le {a : UnpackedFloat} {p : ℤ ×ₗ ℤ ×ₗ ℤ} (h : place a = some p) :
    p = toLex (-2, toLex (0, 0)) ∨ toLex (-2, toLex (0, 0)) < p := by
  rcases a with (_ | _) | _ | (_ | _) | ⟨(_ | _), m, e, hm⟩ <;>
    cases h <;>
    simp [Prod.Lex.toLex_lt_toLex]

/-! ## What follows for the program's floats -/

variable {a b c : Float}

theorem lt_iff : a < b ↔ ∃ p q, place a.toModel.unpack = some p ∧
    place b.toModel.unpack = some q ∧ p < q := by
  rw [← unpacked_lt_iff]
  show a.lt b = true ↔ _
  unfold Float.lt
  rw [decide_eq_true_iff]
  rfl

theorem beq_iff : (a == b) = true ↔ ∃ p, place a.toModel.unpack = some p ∧
    place b.toModel.unpack = some p :=
  unpacked_beq_iff a.toModel.unpack b.toModel.unpack

theorem lt_trans (hab : a < b) (hbc : b < c) : a < c := by
  obtain ⟨p, q, ha, hb, hpq⟩ := lt_iff.1 hab
  obtain ⟨q', r, hb', hc, hqr⟩ := lt_iff.1 hbc
  obtain rfl := Option.some.inj (hb.symm.trans hb')
  exact lt_iff.2 ⟨p, r, ha, hc, hpq.trans hqr⟩

theorem lt_of_beq_of_lt (hab : (a == b) = true) (hac : a < c) : b < c := by
  obtain ⟨p, ha, hb⟩ := beq_iff.1 hab
  obtain ⟨p', q, ha', hc, hpq⟩ := lt_iff.1 hac
  obtain rfl := Option.some.inj (ha.symm.trans ha')
  exact lt_iff.2 ⟨p, q, hb, hc, hpq⟩

/-- What is above another is a number. -/
theorem beq_self_of_lt (h : a < b) : (b == b) = true := by
  obtain ⟨p, q, -, hb, -⟩ := lt_iff.1 h
  exact beq_iff.2 ⟨q, hb, hb⟩

theorem not_lt_self : ¬ a < a := by
  intro h
  obtain ⟨p, q, hp, hq, hpq⟩ := lt_iff.1 h
  obtain rfl := Option.some.inj (hp.symm.trans hq)
  exact lt_irrefl p hpq

end FloatOrder
