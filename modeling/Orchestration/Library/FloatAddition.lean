import Orchestration.Library.FloatOrder
import Mathlib

/-!
# Adding to a float

Adding a float that is not negative to one that is not negative never moves it down the
line: the sum is rounded to the nearest float, and the first summand is one.
-/

namespace FloatOrder

open Float.Model (Format totalExponent UnpackedFloat)
open Float.Model.UnpackedFloat

/-- A mantissa and an exponent as they are read off the bits of a double. -/
structure Canonical (mantissa : ℕ) (exponent : ℤ) : Prop where
  short : mantissa < 2 ^ 53
  low : -1074 ≤ exponent
  full : 2 ^ 52 ≤ mantissa ∨ exponent = -1074

/-! ### The bits -/

@[simp] theorem unpackSign_packComponents {spec : Format} {sign : Sign}
    {exponent : BitVec spec.exponentBits} {mantissa : BitVec spec.mantissaBitsWithoutImplicit} :
    unpackSign (packComponents spec sign exponent mantissa) = sign.toBitVec := by
  ext i hi
  obtain rfl : i = 0 := by omega
  simp [unpackSign, packComponents, BitVec.getLsbD_append, BitVec.getElem_append]

@[simp] theorem ofBitVec_toBitVec (sign : Sign) : Sign.ofBitVec sign.toBitVec = sign := by
  cases sign <;> rfl

theorem unpack_packedInfinity (sign : Sign) :
    unpack Format.binary64 (packedInfinity Format.binary64 sign) = .infinity sign := by
  unfold unpack packedInfinity
  simp

theorem unpack_packedZero (sign : Sign) :
    unpack Format.binary64 (packedZero Format.binary64 sign) = .zero sign := by
  unfold unpack packedZero
  simp

theorem toNat_implicit (mantissa : BitVec 52) :
    (1#1 ++ mantissa).toNat = 2 ^ 52 + mantissa.toNat := by
  rw [BitVec.toNat_append, ← Nat.shiftLeft_add_eq_or_of_lt mantissa.isLt]
  rfl

/-- What is read off the bits of a double is canonical. -/
theorem canonical_of_unpack {bits : BitVec Format.binary64.numBits} {sign : Sign} {m : ℕ} {e : ℤ}
    {hm : 0 < m} (h : unpack Format.binary64 bits = .finite sign m e hm) : Canonical m e := by
  have hmantissa : (unpackMantissa bits).toNat < 2 ^ 52 := (unpackMantissa bits).isLt
  unfold unpack at h
  simp only at h
  split at h
  · split at h <;> cases h
  · split at h
    · next hzero =>
      split at h
      · cases h
      · cases h
        rw [hzero]
        exact ⟨by omega, by decide, .inr (by decide)⟩
    · next hexponent =>
      have hpos : 0 < (unpackExponent bits).toNat := by
        apply Nat.pos_of_ne_zero
        intro hzero
        exact hexponent (BitVec.eq_of_toNat_eq hzero)
      cases h
      have hbias : (Format.binary64.exponentBias : ℤ) = 1023 := by decide
      rw [toNat_implicit, hbias]
      exact ⟨by omega, by change -1074 ≤ _ - ((1023 : ℤ) + 52); omega, .inl (by omega)⟩

/-- A canonical float is kept by its bits, or has grown to infinity. -/
theorem unpack_pack_finite {m : ℕ} {e : ℤ} {hm : 0 < m} (h : Canonical m e) :
    unpack Format.binary64 (pack Format.binary64 (.finite .positive m e hm)) =
      if 972 ≤ e then .infinity .positive else .finite .positive m e hm := by
  have hbias : (Format.binary64.exponentBias : ℤ) = 1023 := by decide
  have hlow := h.low
  have hlog : m.log2 < 53 := (Nat.log2_lt (by omega)).2 h.short
  unfold pack
  simp only [hbias]
  by_cases hlarge : 972 ≤ e
  · rw [if_pos hlarge, if_pos (by change 2 ^ 11 ≤ (e + 1023 + (52 : ℤ)).toNat + 1; omega)]
    exact unpack_packedInfinity .positive
  · rw [if_neg hlarge, if_neg (by change ¬ 2 ^ 11 ≤ (e + 1023 + (52 : ℤ)).toNat + 1; omega)]
    have hshape : m.log2 + 1 = Format.binary64.mantissaBits ↔ 2 ^ 52 ≤ m := by
      change m.log2 + 1 = 53 ↔ _
      rw [← Nat.le_log2 (by omega)]
      omega
    by_cases hnormal : 2 ^ 52 ≤ m
    · rw [if_pos (hshape.2 hnormal)]
      have hexponent : (BitVec.ofNat 11 (e + 1023 + ((52 : ℕ) : ℤ)).toNat).toNat =
          (e + 1075).toNat := by
        rw [BitVec.toNat_ofNat]
        omega
      have hmantissa : (1#1 ++ BitVec.ofNat 52 m).toNat = m := by
        have hshort := h.short
        rw [toNat_implicit, BitVec.toNat_ofNat]
        omega
      unfold unpack
      simp only [unpackExponent_packComponents, unpackMantissa_packComponents,
        unpackSign_packComponents, ofBitVec_toBitVec, hbias]
      rw [if_neg, if_neg]
      · congr 1
        rw [hexponent]
        omega
      · intro hzero
        have hvalue := congrArg BitVec.toNat hzero
        rw [hexponent] at hvalue
        change (e + 1075).toNat = 0 at hvalue
        omega
      · intro hones
        have hvalue := congrArg BitVec.toNat hones
        rw [hexponent] at hvalue
        change (e + 1075).toNat = 2047 at hvalue
        omega
    · rw [if_neg (hshape.not.2 hnormal)]
      have hexponent := h.full.resolve_left hnormal
      have hmantissa : (BitVec.ofNat 52 m).toNat = m := by
        rw [BitVec.toNat_ofNat]
        omega
      unfold unpack
      simp only [unpackExponent_packComponents, unpackMantissa_packComponents,
        unpackSign_packComponents, ofBitVec_toBitVec, hbias]
      rw [if_neg (by decide), if_pos trivial, dif_neg]
      · congr 1
        rw [hexponent]
        rfl
      · intro hzero
        have hvalue := congrArg BitVec.toNat hzero
        rw [hmantissa] at hvalue
        change m = 0 at hvalue
        omega

/-! ### The rounding -/

theorem mantissa_shiftRight (em : ExtendedMantissa) (k : ℕ) :
    (em >>> k).mantissa = em.mantissa / 2 ^ k := by
  induction k with
  | zero => exact (Nat.div_one _).symm
  | succ k ih =>
    change (em >>> k).mantissa / 2 = _
    rw [ih, Nat.div_div_eq_div_mul, pow_succ]

/-- To the nearest even is up by one at the most. -/
theorem roundedMantissa_bounds (em : ExtendedMantissa) :
    em.mantissa ≤ em.roundedMantissa ∧ em.roundedMantissa ≤ em.mantissa + 1 := by
  obtain ⟨mantissa, roundBit, stickyBit⟩ := em
  cases roundBit <;> cases stickyBit <;>
    simp only [ExtendedMantissa.roundedMantissa, ExtendedMantissa.accuracy,
      Accuracy.roundToNearestEven] <;>
    omega

/-- The exponent that a double of this size has. -/
def target (m : ℕ) (e : ℤ) : ℤ := max (m.log2 + 1 + e - 53) (-1074)

theorem targetExponent_eq (m : ℕ) (e : ℤ) :
    Format.binary64.targetExponent (totalExponent m e) = target m e := rfl

/-- The mantissa at the exponent it is to have, before it is rounded. -/
def truncated (m : ℕ) (e : ℤ) : ℕ := m / 2 ^ (target m e - e).toNat

theorem shiftToTargetExponent_eq (m : ℕ) (e : ℤ) :
    (shiftToTargetExponent Format.binary64 m e .exact).1.mantissa = truncated m e ∧
      (shiftToTargetExponent Format.binary64 m e .exact).2 = e + (target m e - e).toNat :=
  ⟨mantissa_shiftRight _ _, rfl⟩

theorem truncated_short (m : ℕ) (e : ℤ) : truncated m e < 2 ^ 53 := by
  have hshift : m.log2 + 1 ≤ 53 + (target m e - e).toNat := by
    unfold target
    omega
  apply Nat.div_lt_of_lt_mul
  calc m < 2 ^ (m.log2 + 1) := Nat.lt_log2_self
    _ ≤ 2 ^ (53 + (target m e - e).toNat) := Nat.pow_le_pow_right (by decide) hshift
    _ = 2 ^ (target m e - e).toNat * 2 ^ 53 := by rw [pow_add, mul_comm]

/-- A mantissa is not shortened to less than a full one. -/
theorem truncated_full {m : ℕ} {e : ℤ} (hm : 0 < m) (h : -1074 < target m e)
    (hshift : e ≤ target m e) : 2 ^ 52 ≤ truncated m e := by
  have hlog : 52 + (target m e - e).toNat = m.log2 := by
    unfold target at h hshift ⊢
    omega
  apply (Nat.le_div_iff_mul_le (Nat.two_pow_pos _)).2
  rw [← pow_add, hlog]
  exact Nat.log2_self_le hm.ne'

/-- A rounded mantissa is shifted once more where the rounding has made it too long. -/
theorem target_of_short {m : ℕ} {e : ℤ} (h : m < 2 ^ 53) (he : -1074 ≤ e) : target m e ≤ e := by
  have hlog : m.log2 ≤ 52 := by
    rcases Nat.eq_zero_or_pos m with rfl | hm
    · decide
    · have := (Nat.log2_lt hm.ne').2 h
      omega
  unfold target
  omega

theorem truncated_of_short {m : ℕ} {e : ℤ} (h : m < 2 ^ 53) (he : -1074 ≤ e) :
    truncated m e = m ∧ e + (target m e - e).toNat = e := by
  have hnone : (target m e - e).toNat = 0 := by
    have := target_of_short h he
    omega
  rw [truncated, hnone, pow_zero, Nat.div_one]
  exact ⟨rfl, by omega⟩

theorem target_of_long {e : ℤ} (he : -1074 ≤ e) : target (2 ^ 53) e = e + 1 := by
  rw [target, Nat.log2_two_pow]
  omega

theorem decreaseExponent_of_le {m : ℕ} {e t : ℤ} (h : e ≤ t) : decreaseExponent m e t = (m, e) := by
  have hnone : (e - t).toNat = 0 := by omega
  rw [decreaseExponent, hnone, Nat.shiftLeft_zero]
  simp

/-- What is rounded is a canonical float, at the target exponent or, where the mantissa
overflows, at the next. -/
theorem round_eq {m : ℕ} {e : ℤ} (hm : 0 < m) (hlow : -1074 ≤ e)
    (hfull : 2 ^ 52 ≤ m ∨ e = -1074) :
    ∃ m' e' hm', UnpackedFloat.round Format.binary64 .positive m e = .finite .positive m' e' hm' ∧
      Canonical m' e' ∧ e ≤ target m e ∧
        (e' = target m e ∧ truncated m e ≤ m' ∨ target m e < e') := by
  have hshift : e ≤ target m e := by
    rcases hfull with hfull | rfl
    · have := (Nat.le_log2 hm.ne').2 hfull
      unfold target
      omega
    · exact le_max_right _ _
  have htarget : -1074 ≤ target m e := le_max_right _ _
  obtain ⟨hfirst, hexponent⟩ := shiftToTargetExponent_eq m e
  obtain ⟨hdown, hup⟩ := roundedMantissa_bounds (shiftToTargetExponent Format.binary64 m e .exact).1
  rw [UnpackedFloat.round, targetExponent_eq, decreaseExponent_of_le hshift]
  simp only [roundWithAccuracy]
  rw [hfirst] at hdown hup
  have hexact : e + (target m e - e).toNat = target m e := by omega
  rw [hexponent, hexact]
  generalize (shiftToTargetExponent Format.binary64 m e .exact).1.roundedMantissa = rounded at *
  obtain ⟨hsecond, hlast⟩ := shiftToTargetExponent_eq rounded (target m e)
  simp only [hsecond, hlast]
  have htruncated := truncated_short m e
  rcases lt_or_ge rounded (2 ^ 53) with hshort | hlong
  · obtain ⟨hmantissa, hkept⟩ := truncated_of_short hshort htarget
    simp only [hmantissa, hkept]
    have hpos : 0 < truncated m e := by
      rcases htarget.eq_or_lt with hbottom | habove
      · obtain rfl : e = -1074 := by omega
        rw [truncated, ← hbottom]
        simpa using hm
      · have := truncated_full hm habove hshift
        omega
    rw [dif_neg (by omega)]
    refine ⟨rounded, target m e, by omega, rfl, ⟨hshort, htarget, ?_⟩, hshift, .inl ⟨rfl, hdown⟩⟩
    rcases htarget.eq_or_lt with hbottom | habove
    · exact .inr hbottom.symm
    · have := truncated_full hm habove hshift
      omega
  · obtain rfl : rounded = 2 ^ 53 := by omega
    have hnext : (target (2 ^ 53) (target m e) - target m e).toNat = 1 := by
      rw [target_of_long htarget]
      omega
    have hmantissa : truncated (2 ^ 53) (target m e) = 2 ^ 52 := by
      rw [truncated, hnext]
      rfl
    simp only [hmantissa, hnext]
    rw [dif_neg (by decide)]
    refine ⟨2 ^ 52, target m e + (1 : ℕ), by decide, rfl, ⟨by decide, ?_, .inl le_rfl⟩, hshift,
      .inr ?_⟩ <;>
      omega

/-- Rounding does not fall below a float that is below what is rounded. -/
theorem round_ge {m M : ℕ} {e s : ℤ} (hm : 0 < m) (hcanonical : Canonical m e)
    (hlow : -1074 ≤ s) (hs : s ≤ e) (hfull : 2 ^ 52 ≤ M ∨ s = -1074)
    (hle : m * 2 ^ (e - s).toNat ≤ M) :
    ∃ m' e' hm', UnpackedFloat.round Format.binary64 .positive M s = .finite .positive m' e' hm' ∧
      Canonical m' e' ∧ (e < e' ∨ e = e' ∧ m ≤ m') := by
  have hM : 0 < M := lt_of_lt_of_le (Nat.mul_pos hm (Nat.two_pow_pos _)) hle
  obtain ⟨m', e', hm', hround, hcanonical', hshift, hplace⟩ := round_eq hM hlow hfull
  refine ⟨m', e', hm', hround, hcanonical', ?_⟩
  have hlog : m.log2 + (e - s).toNat ≤ M.log2 := by
    apply (Nat.le_log2 hM.ne').2
    rw [pow_add]
    exact (Nat.mul_le_mul_right _ (Nat.log2_self_le hm.ne')).trans hle
  have htarget : e ≤ target M s := by
    rcases hcanonical.full with hnormal | hbottom
    · have := (Nat.le_log2 hm.ne').2 hnormal
      unfold target
      omega
    · rw [hbottom]
      exact le_max_right _ _
  rcases hplace with ⟨rfl, hmantissa⟩ | habove
  · rcases htarget.eq_or_lt with heq | hlt
    · refine .inr ⟨heq, le_trans ?_ hmantissa⟩
      rw [truncated, ← heq]
      exact (Nat.le_div_iff_mul_le (Nat.two_pow_pos _)).2 hle
    · exact .inl hlt
  · exact .inl (htarget.trans_lt habove)

/-! ### The sum -/

theorem unpacked_le_iff (a b : Float.Model.UnpackedFloat) :
    a.le b = true ↔ ∃ p q, place a = some p ∧ place b = some q ∧ p ≤ q := by
  have hsplit : a.le b = true ↔ a.lt b = true ∨ a.beq b = true := by
    unfold Float.Model.UnpackedFloat.le Float.Model.UnpackedFloat.lt
      Float.Model.UnpackedFloat.beq
    rcases a.compare b with _ | (_ | _ | _) <;> decide
  rw [hsplit, unpacked_lt_iff, unpacked_beq_iff]
  constructor
  · rintro (⟨p, q, hp, hq, hpq⟩ | ⟨p, hp, hq⟩)
    · exact ⟨p, q, hp, hq, hpq.le⟩
    · exact ⟨p, p, hp, hq, le_rfl⟩
  · rintro ⟨p, q, hp, hq, hpq⟩
    rcases hpq.eq_or_lt with rfl | hlt
    · exact .inr ⟨p, hp, hq⟩
    · exact .inl ⟨p, q, hp, hq, hlt⟩

/-- The floats from zero on. -/
inductive Nonnegative : Float.Model.UnpackedFloat → Prop where
  | infinity : Nonnegative (.infinity .positive)
  | zero (sign : Sign) : Nonnegative (.zero sign)
  | finite {m : ℕ} {e : ℤ} (hm : 0 < m) (h : Canonical m e) :
    Nonnegative (.finite .positive m e hm)

/-- What the bits of a sum are read as. -/
abbrev packed (a : Float.Model.UnpackedFloat) : Float.Model.UnpackedFloat :=
  unpack Format.binary64 (pack Format.binary64 a)

theorem place_packed {m : ℕ} {e : ℤ} {hm : 0 < m} (h : Canonical m e) :
    ∃ p, place (packed (.finite .positive m e hm)) = some p ∧
      toLex (1, toLex (e, (m : ℤ))) ≤ p := by
  rw [packed, unpack_pack_finite h]
  split
  · exact ⟨_, rfl, by simp [Prod.Lex.toLex_le_toLex]⟩
  · exact ⟨_, rfl, le_rfl⟩

theorem normalize_of_pos {M : ℕ} {s : ℤ} {sign : Sign} (hM : 0 < M) :
    UnpackedFloat.normalize Format.binary64 M s sign =
      UnpackedFloat.round Format.binary64 .positive M s := by
  have hcompare : compare (M : ℤ) 0 = .gt := compare_gt_iff_gt.2 (by omega)
  simp only [UnpackedFloat.normalize, hcompare, Int.toNat_natCast]

theorem add_finite {m₁ m₂ : ℕ} {e₁ e₂ : ℤ} (h₁ : 0 < m₁) (h₂ : 0 < m₂) :
    (Float.Model.UnpackedFloat.finite .positive m₁ e₁ h₁).add Format.binary64
        (.finite .positive m₂ e₂ h₂) =
      UnpackedFloat.round Format.binary64 .positive
        (m₁ * 2 ^ (e₁ - min e₁ e₂).toNat + m₂ * 2 ^ (e₂ - min e₁ e₂).toNat) (min e₁ e₂) := by
  rw [← @normalize_of_pos _ _ .positive
    (Nat.add_pos_left (Nat.mul_pos h₁ (Nat.two_pow_pos _)) _)]
  simp only [Float.Model.UnpackedFloat.add, decreaseExponent, Nat.shiftLeft_eq, Sign.apply,
    Nat.cast_add]

/-- The sum of two canonical floats is of full length or at the least exponent. -/
theorem sum_full {m₁ m₂ : ℕ} {e₁ e₂ : ℤ} (h₁ : Canonical m₁ e₁) (h₂ : Canonical m₂ e₂) :
    2 ^ 52 ≤ m₁ * 2 ^ (e₁ - min e₁ e₂).toNat + m₂ * 2 ^ (e₂ - min e₁ e₂).toNat ∨
      min e₁ e₂ = -1074 := by
  have hlow₁ := h₁.low
  have hlow₂ := h₂.low
  rcases h₁.full with hfull | hbottom
  · exact .inl ((hfull.trans (Nat.le_mul_of_pos_right _ (Nat.two_pow_pos _))).trans
      (Nat.le_add_right _ _))
  · exact .inr (by omega)

/-- A sum of floats that are not negative is not below the first. -/
theorem place_le_add {a c : Float.Model.UnpackedFloat} (ha : Nonnegative a) (hc : Nonnegative c) :
    ∃ p q, place a = some p ∧ place (packed (a.add Format.binary64 c)) = some q ∧ p ≤ q := by
  have hinfinity : place (packed (.infinity .positive)) = some (toLex (2, toLex (0, 0))) := by
    rw [packed]
    exact congrArg place (unpack_packedInfinity _)
  have hzero : ∀ sign, place (packed (.zero sign)) = some (toLex (0, toLex (0, 0))) := by
    intro sign
    rw [packed]
    exact congrArg place (unpack_packedZero _)
  cases ha with
  | infinity =>
    refine ⟨_, _, rfl, ?_, le_rfl⟩
    cases hc <;> exact hinfinity
  | zero sign =>
    cases hc with
    | infinity => exact ⟨_, _, rfl, hinfinity, by simp [Prod.Lex.toLex_le_toLex]⟩
    | zero sign' =>
      refine ⟨_, _, rfl, ?_, le_rfl⟩
      cases sign <;> cases sign' <;> exact hzero _
    | finite hm h =>
      obtain ⟨q, hq, hle⟩ := @place_packed _ _ hm h
      refine ⟨_, q, rfl, hq, le_trans ?_ hle⟩
      simp [Prod.Lex.toLex_le_toLex]
  | finite hm h =>
    cases hc with
    | infinity => exact ⟨_, _, rfl, hinfinity, by simp [Prod.Lex.toLex_le_toLex]⟩
    | zero sign =>
      obtain ⟨q, hq, hle⟩ := @place_packed _ _ hm h
      exact ⟨_, q, rfl, hq, hle⟩
    | finite hm' h' =>
      have hlow := h.low
      have hlow' := h'.low
      obtain ⟨m'', e'', hm'', hround, hcanonical, hplace⟩ := round_ge hm h (by omega)
        (min_le_left _ _) (sum_full h h') (Nat.le_add_right _ _)
      rw [add_finite, hround]
      obtain ⟨q, hq, hle⟩ := @place_packed _ _ hm'' hcanonical
      refine ⟨_, q, rfl, hq, le_trans ?_ hle⟩
      rcases hplace with hlt | ⟨rfl, hm⟩
      · simp [Prod.Lex.toLex_le_toLex, hlt]
      · simp [Prod.Lex.toLex_le_toLex, hm]

/-! ## What follows for the program's floats -/

variable {a b c : Float}

theorem le_iff : a ≤ b ↔ ∃ p q, place a.toModel.unpack = some p ∧
    place b.toModel.unpack = some q ∧ p ≤ q := by
  rw [← unpacked_le_iff]
  show a.le b = true ↔ _
  unfold Float.le
  rw [decide_eq_true_iff]
  rfl

theorem le_trans (hab : a ≤ b) (hbc : b ≤ c) : a ≤ c := by
  obtain ⟨p, q, ha, hb, hpq⟩ := le_iff.1 hab
  obtain ⟨q', r, hb', hc, hqr⟩ := le_iff.1 hbc
  obtain rfl := Option.some.inj (hb.symm.trans hb')
  exact le_iff.2 ⟨p, r, ha, hc, hpq.trans hqr⟩

theorem not_le_of_lt (hab : a < b) : ¬ b ≤ a := by
  intro hba
  obtain ⟨p, q, ha, hb, hpq⟩ := lt_iff.1 hab
  obtain ⟨q', p', hb', ha', hqp⟩ := le_iff.1 hba
  obtain rfl := Option.some.inj (ha.symm.trans ha')
  obtain rfl := Option.some.inj (hb.symm.trans hb')
  exact absurd hqp (not_le.2 hpq)

theorem exists_place_of_isFinite (h : a.isFinite = true) :
    ∃ p, place a.toModel.unpack = some p := by
  change a.toModel.unpack.isFinite = true at h
  rcases hunpack : a.toModel.unpack with _ | _ | _ | ⟨(_ | _), m, e, hm⟩ <;> rw [hunpack] at h
  · cases h
  · cases h
  all_goals exact ⟨_, rfl⟩

theorem le_of_not_lt (ha : a.isFinite = true) (hb : b.isFinite = true) (h : ¬ a < b) : b ≤ a := by
  obtain ⟨p, hp⟩ := exists_place_of_isFinite ha
  obtain ⟨q, hq⟩ := exists_place_of_isFinite hb
  refine le_iff.2 ⟨q, p, hq, hp, ?_⟩
  by_contra hlt
  exact h (lt_iff.2 ⟨p, q, hp, hq, not_le.1 hlt⟩)

/-- What is not below zero is a number. -/
theorem le_self_of_nonneg (h : 0 ≤ a) : a ≤ a := by
  obtain ⟨-, q, -, hq, -⟩ := le_iff.1 h
  exact le_iff.2 ⟨q, q, hq, hq, le_rfl⟩

theorem nonnegative_of_le (h : 0 ≤ a) : Nonnegative a.toModel.unpack := by
  obtain ⟨p, q, hp, hq, hpq⟩ := le_iff.1 h
  have hzero : place (0 : Float).toModel.unpack = some (toLex (0, toLex (0, 0))) := by
    decide +kernel
  obtain rfl := Option.some.inj (hzero.symm.trans hp)
  rcases hunpack : a.toModel.unpack with (_ | _) | _ | sign | ⟨(_ | _), m, e, hm⟩ <;>
    rw [hunpack] at hq <;> cases hq
  · simp [Prod.Lex.toLex_le_toLex] at hpq
  · exact .infinity
  · exact .zero sign
  · simp [Prod.Lex.toLex_le_toLex] at hpq
  · exact .finite hm (canonical_of_unpack hunpack)

/-- Adding what is not negative to what is not negative does not fall. -/
theorem le_add (ha : 0 ≤ a) (hc : 0 ≤ c) : a ≤ a + c := by
  obtain ⟨p, q, hp, hq, hpq⟩ := place_le_add (nonnegative_of_le ha) (nonnegative_of_le hc)
  exact le_iff.2 ⟨p, q, hp, hq, hpq⟩

end FloatOrder
