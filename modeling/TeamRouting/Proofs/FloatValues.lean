import Mathlib.Order.Compare
import TeamRouting.Proofs.Packing

/-!
# Floats as rational numbers

A finite float is a rational number, a whole mantissa times a power of two.  Comparison looks at
the exponents first and at the mantissas only if those are equal.  That is right because mantissas
have their leading bit in one place, unless the exponent is the lowest one.

* `rational` — the number that a finite float is;
* `InRange`, `inRange_unpack` — what finite floats are when they are taken apart;
* `InRange.compares` — the comparison of two of them is that of the numbers;
* `lt_iff`, `le_iff` — so floats are ordered as the numbers that they are.
-/

namespace TeamRouting.Decimal

open Float.Model Float.Model.UnpackedFloat

/-! ## Numbers -/

/-- The number that a float is when it is taken apart.  What is not finite counts as zero. -/
def unpackedValue : UnpackedFloat → ℚ
  | .finite s m e _ => s.apply m * 2 ^ e
  | _ => 0

@[simp]
theorem unpackedValue_zero (s : Sign) : unpackedValue (.zero s) = 0 := rfl

theorem unpackedValue_finite (s : Sign) {m : ℕ} {e : ℤ} (pos : 0 < m) :
    unpackedValue (.finite s m e pos) = s.apply m * 2 ^ e := rfl

theorem unpackedValue_negative {m : ℕ} {e : ℤ} (pos : 0 < m) :
    unpackedValue (.finite .negative m e pos) = -(m * 2 ^ e) := by
  rw [unpackedValue_finite, Sign.apply, Int.cast_neg, neg_mul]
  rfl

/-- The number that a finite float is. -/
def rational (x : Float) : ℚ := unpackedValue x.toModel.unpack

/-- The zeros, and the canonical mantissas and exponents up to the largest float. -/
inductive InRange : UnpackedFloat → Prop
  | zero (s : Sign) : InRange (.zero s)
  | finite (s : Sign) {m : ℕ} {e : ℤ} (c : IsCanonical m e) (high : e ≤ 971) :
      InRange (.finite s m e c.pos)

theorem unpack_of_bits {x : Float} {b : BitVec 64} (bits : x.toBits.toBitVec = b) :
    x.toModel.unpack = UnpackedFloat.unpack Format.binary64 b := by
  rw [← bits]
  rfl

theorem inRange_unpack {x : Float} (finite : x.isFinite = true) : InRange x.toModel.unpack := by
  cases hasFields_of_isFinite finite with
  | zero s bits =>
      rw [unpack_of_bits bits]
      cases s
      · exact .zero .negative
      · exact .zero .positive
  | finite s fields bits =>
      rw [unpack_of_bits bits, fields.unpack s fields.isCanonical.pos]
      exact .finite s fields.isCanonical fields.le

theorem isFinite_of_inRange {x : Float} (h : InRange x.toModel.unpack) : x.isFinite = true := by
  show x.toModel.unpack.isFinite = true
  generalize x.toModel.unpack = u at h
  cases h <;> rfl

/-! ## Order -/

section Order

variable {m₁ m₂ : ℕ} {e₁ e₂ : ℤ} {o : Ordering} {u v : UnpackedFloat}

theorem IsCanonical.value_pos {m : ℕ} {e : ℤ} (c : IsCanonical m e) : (0 : ℚ) < m * 2 ^ e :=
  mul_pos (by exact_mod_cast c.pos) (zpow_pos two_pos e)

/-- **The larger exponent makes the larger number.** -/
theorem IsCanonical.lt_of_lt (c₁ : IsCanonical m₁ e₁) (c₂ : IsCanonical m₂ e₂) (h : e₁ < e₂) :
    (m₁ * 2 ^ e₁ : ℚ) < m₂ * 2 ^ e₂ := by
  have hlow := c₁.low
  have hsmall : (m₁ : ℚ) < 2 ^ 53 := by exact_mod_cast c₁.small
  have hfull : (2 : ℚ) ^ 52 ≤ m₂ := by exact_mod_cast c₂.full.resolve_right (by omega)
  calc (m₁ * 2 ^ e₁ : ℚ) < 2 ^ 53 * 2 ^ e₁ := mul_lt_mul_of_pos_right hsmall (zpow_pos two_pos e₁)
    _ = 2 ^ ((53 : ℕ) + e₁) := (two_zpow_add 53 e₁).symm
    _ ≤ 2 ^ ((52 : ℕ) + e₂) := zpow_le_zpow_right₀ one_le_two (by omega)
    _ = 2 ^ 52 * 2 ^ e₂ := two_zpow_add 52 e₂
    _ ≤ m₂ * 2 ^ e₂ := mul_le_mul_of_nonneg_right hfull (zpow_pos two_pos e₂).le

/-- Exponents are compared first, then mantissas. -/
theorem IsCanonical.compares (c₁ : IsCanonical m₁ e₁) (c₂ : IsCanonical m₂ e₂) :
    ((compare e₁ e₂).then (compare m₁ m₂)).Compares (m₁ * 2 ^ e₁ : ℚ) (m₂ * 2 ^ e₂) := by
  rcases lt_trichotomy e₁ e₂ with hlt | rfl | hgt
  · rw [Int.compare_eq_lt.2 hlt]
    exact c₁.lt_of_lt c₂ hlt
  · rw [Int.compare_eq_eq.2 rfl]
    have hpow : (0 : ℚ) < 2 ^ e₁ := zpow_pos two_pos e₁
    rcases lt_trichotomy m₁ m₂ with hlt | rfl | hgt
    · rw [Nat.compare_eq_lt.2 hlt]
      exact mul_lt_mul_of_pos_right (by exact_mod_cast hlt) hpow
    · rw [Nat.compare_eq_eq.2 rfl]
      rfl
    · rw [Nat.compare_eq_gt.2 hgt]
      exact mul_lt_mul_of_pos_right (by exact_mod_cast hgt) hpow
  · rw [Int.compare_eq_gt.2 hgt]
    exact c₂.lt_of_lt c₁ hgt

theorem compares_neg {p q : ℚ} (h : o.Compares p q) : o.swap.Compares (-p) (-q) := by
  cases o with
  | lt => exact neg_lt_neg h
  | eq => exact congrArg Neg.neg h
  | gt => exact neg_lt_neg h

/-- **Comparison is that of the numbers.** -/
theorem InRange.compares (hu : InRange u) (hv : InRange v) :
    ∃ o : Ordering, UnpackedFloat.compare u v = some o ∧
      o.Compares (unpackedValue u) (unpackedValue v) := by
  cases hu with
  | zero s =>
      cases hv with
      | zero t => exact ⟨.eq, rfl, rfl⟩
      | finite t c₂ high₂ =>
          cases t
          · refine ⟨.gt, rfl, ?_⟩
            rw [unpackedValue_negative]
            exact neg_lt_zero.2 c₂.value_pos
          · exact ⟨.lt, rfl, c₂.value_pos⟩
  | finite s c₁ high₁ =>
      cases hv with
      | zero t =>
          cases s
          · refine ⟨.lt, rfl, ?_⟩
            rw [unpackedValue_negative]
            exact neg_lt_zero.2 c₁.value_pos
          · exact ⟨.gt, rfl, c₁.value_pos⟩
      | finite t c₂ high₂ =>
          have hneg₁ := neg_lt_zero.2 c₁.value_pos
          have hneg₂ := neg_lt_zero.2 c₂.value_pos
          cases s <;> cases t
          · refine ⟨_, rfl, ?_⟩
            rw [unpackedValue_negative, unpackedValue_negative]
            exact compares_neg (c₁.compares c₂)
          · refine ⟨.lt, rfl, ?_⟩
            rw [unpackedValue_negative]
            exact hneg₁.trans c₂.value_pos
          · refine ⟨.gt, rfl, ?_⟩
            rw [unpackedValue_negative]
            exact hneg₂.trans c₁.value_pos
          · exact ⟨_, rfl, c₁.compares c₂⟩

end Order

/-! ## Comparison of floats -/

section Comparison

variable {x y : Float}

/-- **Finite floats are ordered as the numbers that they are.** -/
theorem lt_iff (hx : x.isFinite = true) (hy : y.isFinite = true) :
    x < y ↔ rational x < rational y := by
  obtain ⟨o, ho, hcompares⟩ := (inRange_unpack hx).compares (inRange_unpack hy)
  show decide (UnpackedFloat.lt _ _ = true) = true ↔ _
  rw [decide_eq_true_eq, UnpackedFloat.lt, ho, rational, rational, ← hcompares.eq_lt]
  simp

theorem le_iff (hx : x.isFinite = true) (hy : y.isFinite = true) :
    x ≤ y ↔ rational x ≤ rational y := by
  obtain ⟨o, ho, hcompares⟩ := (inRange_unpack hx).compares (inRange_unpack hy)
  show decide (UnpackedFloat.le _ _ = true) = true ↔ _
  rw [decide_eq_true_eq, UnpackedFloat.le, ho, rational, rational, ← hcompares.ne_gt,
    Option.any_some]
  exact Ordering.ne_gt_iff_isLE.symm

end Comparison

end TeamRouting.Decimal
