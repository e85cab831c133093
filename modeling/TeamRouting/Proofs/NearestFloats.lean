import TeamRouting.Decimal.Reading
import TeamRouting.Proofs.Packing

/-!
# Decimals and their nearest floats

The digits and the scale of a decimal are turned into a float in one of several ways: short digits
are multiplied by a power of ten or divided by one, both of which are floats themselves; long ones
are rounded in full; and far out of range the float is known at once.  Whichever way is taken, the
decimal is rounded once.

* `exists_isCanonical_of_lt` — whole numbers of 53 bits are floats;
* `unpack_powerOfTen` — and so are the powers of ten up to the twenty-second;
* `toFloat_eq_of_roundsToFloat` — a decimal becomes the float that it rounds to.
-/

namespace TeamRouting.Decimal

open Float.Model Float.Model.UnpackedFloat

variable {m m₀ : ℕ} {e e₀ : ℤ}

/-! ## Whole numbers and powers of ten -/

/-- A whole number of 53 bits is a float with a full mantissa. -/
theorem exists_isCanonical_of_lt (pos : 0 < m) (hm : m < 2 ^ 53) :
    ∃ m' e', IsCanonical m' e' ∧ 2 ^ 52 ≤ m' ∧ e' ≤ 0 ∧ (m : ℚ) = m' * 2 ^ e' := by
  have hlog : m.log2 ≤ 52 := log2_le_of_lt hm
  obtain ⟨k, hk⟩ : ∃ k, m.log2 + k = 52 := ⟨52 - m.log2, by omega⟩
  have hshift : (m <<< k).log2 = 52 := by rw [log2_shiftLeft pos.ne', hk]
  have hpos : m <<< k ≠ 0 := by
    intro h
    rw [h] at hshift
    cases hshift
  have hfull := (Nat.log2_eq_iff hpos).1 hshift
  refine ⟨m <<< k, -k, ⟨Nat.pos_of_ne_zero hpos, hfull.2, by omega, Or.inl hfull.1⟩, hfull.1,
    by omega, ?_⟩
  rw [Nat.shiftLeft_eq, zpow_neg, zpow_natCast]
  push_cast
  field_simp

/-- It is converted to that float. -/
theorem unpack_toFloat (c : IsCanonical m₀ e₀) (he : e₀ ≤ 971) (hm : m < 2 ^ 64)
    (h : (m : ℚ) = m₀ * 2 ^ e₀) :
    m.toUInt64.toFloat.toModel.unpack = .finite .positive m₀ e₀ c.pos := by
  have hnat : m.toUInt64.toNat = m := Nat.mod_eq_of_lt hm
  have pos : 0 < m := by
    have : (0 : ℚ) < m := by
      rw [h]
      exact mul_pos (by exact_mod_cast c.pos) (zpow_pos two_pos e₀)
    exact_mod_cast this
  have hround : RoundsToFloat (m * 2 ^ (0 : ℤ)) m₀ e₀ := by
    rw [zpow_zero, mul_one, h]
    exact roundsToFloat_self m₀ e₀
  have hgt : compare (m : ℤ) 0 = .gt := by
    rw [Int.compare_eq_gt]
    omega
  show (Float.Model.pack (UnpackedFloat.normalize Format.binary64
    (m.toUInt64.toNat : ℤ) 0 .positive)).unpack = _
  rw [hnat, UnpackedFloat.normalize, hgt]
  show (Float.Model.pack (UnpackedFloat.round Format.binary64 .positive m 0)).unpack = _
  rw [round_eq_of_roundsToFloat .positive pos c hround, unpack_pack_finite c he]

/-- Whether a float is the power of ten that it should be. -/
def isPowerOfTen (x : Float) (k : ℕ) : Bool :=
  match x.toModel.unpack with
  | .finite .positive m e _ =>
    2 ^ 52 ≤ m && -52 ≤ e && m * 2 ^ (e + 52).toNat == 10 ^ k * 2 ^ 52
  | _ => false

/-- A float that is a power of ten has a full mantissa. -/
theorem unpack_of_isPowerOfTen {x : Float} {k : ℕ} (h : isPowerOfTen x k = true) :
    ∃ (p : ℕ) (f : ℤ) (pos : 0 < p), 2 ^ 52 ≤ p ∧ (10 : ℚ) ^ k = p * 2 ^ f ∧
      x.toModel.unpack = .finite .positive p f pos := by
  unfold isPowerOfTen at h
  generalize x.toModel.unpack = u at h ⊢
  match u, h with
  | .finite .positive p f pos, h =>
    simp only [Bool.and_eq_true, decide_eq_true_eq, beq_iff_eq] at h
    obtain ⟨⟨hfull, hlow⟩, hvalue⟩ := h
    refine ⟨p, f, pos, hfull, ?_, rfl⟩
    have hvalue' : (p : ℚ) * 2 ^ (f + 52).toNat = 10 ^ k * 2 ^ 52 := by exact_mod_cast hvalue
    have hscale : (2 : ℚ) ^ (f + 52).toNat = 2 ^ f * 2 ^ 52 := by
      rw [← zpow_natCast, Int.toNat_of_nonneg (by omega), zpow_add₀ two_ne_zero]
      rfl
    rw [hscale, ← mul_assoc] at hvalue'
    exact (mul_right_cancel₀ (by positivity) hvalue').symm

theorem isPowerOfTen_of_lt : ∀ k : Fin 23,
    isPowerOfTen (Float.exactlyRepresentablePowersOfTen[k]) k = true := by
  decide +kernel

theorem unpack_powerOfTen {k : ℕ} (h : k < Float.exactlyRepresentablePowersOfTen.size) :
    ∃ (p : ℕ) (f : ℤ) (pos : 0 < p), 2 ^ 52 ≤ p ∧ (10 : ℚ) ^ k = p * 2 ^ f ∧
      Float.exactlyRepresentablePowersOfTen[k].toModel.unpack = .finite .positive p f pos :=
  unpack_of_isPowerOfTen (isPowerOfTen_of_lt ⟨k, h⟩)

/-! ## Decimals -/

theorem ten_zpow_of_nonneg (h : 0 ≤ e) : (10 : ℚ) ^ e = (10 ^ e.natAbs : ℕ) := by
  rw [Nat.cast_pow, Nat.cast_ofNat, ← zpow_natCast, Int.natAbs_of_nonneg h]

theorem ten_zpow_of_neg (h : e < 0) : (10 : ℚ) ^ e = ((10 ^ e.natAbs : ℕ) : ℚ)⁻¹ := by
  rw [Nat.cast_pow, Nat.cast_ofNat, ← zpow_natCast, ← zpow_neg, Int.ofNat_natAbs_of_nonpos h.le,
    Int.neg_neg]

/-- The short way: a product of two floats, or a quotient. -/
theorem ofScientific_of_short (c : IsCanonical m₀ e₀) (h : RoundsToFloat (m * 10 ^ e) m₀ e₀)
    (pos : 0 < m) (hm : m < 2 ^ 53) (short : e.natAbs ≤ 22) :
    Float.ofScientific m (e < 0) e.natAbs =
      Float.ofModel (Float.Model.pack (.finite .positive m₀ e₀ c.pos)) := by
  obtain ⟨m', e', c', hfull', he', hm'⟩ := exists_isCanonical_of_lt pos hm
  have hsize : e.natAbs < Float.exactlyRepresentablePowersOfTen.size := Nat.lt_succ_of_le short
  obtain ⟨p, f, hp, hfull, hpower, hunpack⟩ := unpack_powerOfTen hsize
  have hleft := unpack_toFloat c' (by omega) (by omega) hm'
  rw [Float.ofScientific, dif_pos ⟨hm, short⟩]
  rcases lt_or_ge e 0 with hneg | hneg
  · rw [if_pos (decide_eq_true hneg)]
    show Float.ofModel (Float.Model.pack (UnpackedFloat.div Format.binary64 _ _)) = _
    have hquotient : (m * 10 ^ e : ℚ) = m' * 2 ^ e' / (p * 2 ^ f) := by
      rw [← hm', ← hpower, ten_zpow_of_neg hneg, div_eq_mul_inv, Nat.cast_pow, Nat.cast_ofNat]
    rw [hquotient] at h
    rw [hleft, hunpack, div_eq_of_roundsToFloat .positive .positive c'.pos hp c h]
    rfl
  · rw [if_neg (by simpa using hneg)]
    show Float.ofModel (Float.Model.pack (UnpackedFloat.mul Format.binary64 _ _)) = _
    have hproduct : (m * 10 ^ e : ℚ) = m' * 2 ^ e' * (p * 2 ^ f) := by
      rw [← hm', ← hpower, ten_zpow_of_nonneg hneg, Nat.cast_pow, Nat.cast_ofNat]
    have hbits : 2 ^ 52 ≤ m' * p := hfull'.trans (Nat.le_mul_of_pos_right m' hp)
    rw [hproduct] at h
    rw [hleft, hunpack, mul_eq_of_roundsToFloat .positive .positive c'.pos hp c hbits h]
    rfl

/-- The long way: a product or a quotient that is rounded in full. -/
theorem ofScientific_of_long (c : IsCanonical m₀ e₀) (h : RoundsToFloat (m * 10 ^ e) m₀ e₀)
    (pos : 0 < m) (hhigh : e ≤ 400) (hlow : -400 ≤ e + m.log2) :
    UnpackedFloat.ofScientific Format.binary64 m e = .finite .positive m₀ e₀ c.pos := by
  have hbits : (2 ^ Format.binary64.exponentBits : ℤ) = 2048 := rfl
  rw [UnpackedFloat.ofScientific, dif_neg pos.ne', if_neg (by omega), if_neg (by omega)]
  rcases lt_or_ge e 0 with hneg | hneg
  · have hsize : (-e).toNat = e.natAbs := by omega
    have hquotient : (m * 10 ^ e : ℚ) =
        m * 2 ^ (0 : ℤ) / ((10 ^ (-e).toNat : ℕ) * 2 ^ (0 : ℤ)) := by
      rw [ten_zpow_of_neg hneg, hsize, zpow_zero, mul_one, mul_one, div_eq_mul_inv]
    rw [hquotient] at h
    rw [if_neg (Int.not_le.2 hneg)]
    exact div_eq_of_roundsToFloat .positive .positive _ _ c h
  · have hsize : e.toNat = e.natAbs := by omega
    have hproduct : (m * 10 ^ e : ℚ) =
        (m <<< 53 : ℕ) * 2 ^ (-53 : ℤ) * ((10 ^ e.toNat : ℕ) * 2 ^ (0 : ℤ)) := by
      have hshift : ((m <<< 53 : ℕ) : ℚ) * 2 ^ (-53 : ℤ) = m := by
        rw [Nat.shiftLeft_eq, Nat.cast_mul, mul_assoc]
        norm_num
      rw [ten_zpow_of_nonneg hneg, hsize, hshift, zpow_zero, mul_one]
    have hfull : 2 ^ 52 ≤ m <<< 53 * 10 ^ e.toNat := by
      rw [Nat.shiftLeft_eq]
      calc 2 ^ 52 ≤ 2 ^ 53 := by decide
        _ ≤ m * 2 ^ 53 := Nat.le_mul_of_pos_left _ pos
        _ ≤ m * 2 ^ 53 * 10 ^ e.toNat := Nat.le_mul_of_pos_right _ (Nat.pow_pos (by decide))
    rw [hproduct] at h
    rw [if_pos hneg]
    exact mul_eq_of_roundsToFloat .positive .positive _ _ c hfull h

/-! ## The range of floats -/

/-- Decimals that round to floats are not zero. -/
theorem pos_of_roundsToFloat (c : IsCanonical m₀ e₀) (h : RoundsToFloat (m * 10 ^ e) m₀ e₀) :
    0 < m := by
  rcases Nat.eq_zero_or_pos m with rfl | pos
  · have hone : (1 : ℚ) ≤ m₀ := by exact_mod_cast c.pos
    have hlow := h.nearest.low
    rw [Nat.cast_zero, zero_mul, zero_div] at hlow
    linarith
  · exact pos

theorem eight_zpow (e : ℤ) : (8 : ℚ) ^ e = 2 ^ (3 * e) := by
  rw [zpow_mul]
  norm_num

/-- Nor are they too large for a float. -/
theorem scale_le_of_roundsToFloat (c : IsCanonical m₀ e₀) (he : e₀ ≤ 971)
    (h : RoundsToFloat (m * 10 ^ e) m₀ e₀) : e ≤ 400 := by
  by_contra hscale
  have hone : (1 : ℚ) ≤ m := by exact_mod_cast pos_of_roundsToFloat c h
  have hlarge : (2 : ℚ) ^ (3 * e) < 2 ^ ((53 : ℕ) + e₀) := by
    calc (2 : ℚ) ^ (3 * e) = 8 ^ e := (eight_zpow e).symm
      _ ≤ 10 ^ e := zpow_le_zpow_left₀ (by omega) (by norm_num) (by norm_num)
      _ ≤ m * 10 ^ e := le_mul_of_one_le_left (by positivity) hone
      _ < 2 ^ ((53 : ℕ) + e₀) := h.lt_two_zpow c
  have := (zpow_lt_zpow_iff_right₀ one_lt_two).1 hlarge
  omega

/-- Nor too small for one. -/
theorem le_scale_of_roundsToFloat (c : IsCanonical m₀ e₀) (h : RoundsToFloat (m * 10 ^ e) m₀ e₀) :
    -400 ≤ e + m.log2 := by
  by_contra hscale
  obtain ⟨n, rfl⟩ : ∃ n : ℕ, e = -n := ⟨e.natAbs, by omega⟩
  have hm : (m : ℚ) < 2 ^ ((m.log2 + 1 : ℕ) : ℤ) := by exact_mod_cast Nat.lt_log2_self
  have hten : (10 : ℚ) ^ (-n : ℤ) ≤ 8 ^ (-n : ℤ) := by
    rw [zpow_neg, zpow_neg, zpow_natCast, zpow_natCast]
    exact inv_anti₀ (by positivity) (pow_le_pow_left₀ (by norm_num) (by norm_num) n)
  have hsmall : (2 : ℚ) ^ (e₀ - 1) < 2 ^ ((m.log2 + 1 : ℕ) + 3 * (-n) : ℤ) := by
    calc (2 : ℚ) ^ (e₀ - 1) ≤ m * 10 ^ (-n : ℤ) := h.two_zpow_sub_one_le c
      _ < 2 ^ ((m.log2 + 1 : ℕ) : ℤ) * 10 ^ (-n : ℤ) :=
        mul_lt_mul_of_pos_right hm (zpow_pos (by norm_num) _)
      _ ≤ 2 ^ ((m.log2 + 1 : ℕ) : ℤ) * 8 ^ (-n : ℤ) :=
          mul_le_mul_of_nonneg_left hten (by positivity)
      _ = 2 ^ ((m.log2 + 1 : ℕ) + 3 * (-n) : ℤ) := by rw [eight_zpow, zpow_add₀ two_ne_zero]
  have hlow := c.low
  have := (zpow_lt_zpow_iff_right₀ one_lt_two).1 hsmall
  push_cast at this
  omega

/-- **A decimal becomes the float that it rounds to.** -/
theorem toFloat_eq_of_roundsToFloat (c : IsCanonical m₀ e₀) (he : e₀ ≤ 971)
    (h : RoundsToFloat (m * 10 ^ e) m₀ e₀) :
    toFloat m e = Float.ofModel (Float.Model.pack (.finite .positive m₀ e₀ c.pos)) := by
  have pos := pos_of_roundsToFloat c h
  have hhigh := scale_le_of_roundsToFloat c he h
  have hlow := le_scale_of_roundsToFloat c h
  rw [toFloat, if_neg pos.ne', if_neg (by omega), if_neg (by omega)]
  by_cases hshort : m < 2 ^ 53 ∧ e.natAbs ≤ 22
  · exact ofScientific_of_short c h pos hshort.1 hshort.2
  · have hscale :
        (if decide (e < 0) = true then Int.negOfNat e.natAbs else .ofNat e.natAbs) = e := by
      split
      · next hneg =>
        rw [decide_eq_true_eq] at hneg
        rw [Int.negOfNat_eq, Int.ofNat_eq_natCast]
        omega
      · next hneg =>
        rw [decide_eq_true_eq] at hneg
        rw [Int.ofNat_eq_natCast]
        omega
    rw [Float.ofScientific, dif_neg hshort]
    refine (congrArg (fun i => Float.ofModel (Float.Model.ofScientific m i)) hscale).trans ?_
    exact congrArg (fun u => Float.ofModel (Float.Model.pack u))
      (ofScientific_of_long c h pos hhigh hlow)

end TeamRouting.Decimal
