import Mathlib.Data.Int.Log
import Mathlib.Data.Rat.Floor
import TeamRouting.Proofs.FloatValues

/-!
# Differences of floats

Two numbers count as equal if their difference is small.  The difference is a float itself, so it
is rounded before anybody looks at it; but rounding never brings a number across a float, and
whether the difference is below the tolerance can be told from the numbers alone.  Only the limit
moves a little: what lies just below the tolerance is rounded up to it.

* `exists_roundsToFloat` — every number that is not too small rounds to a float;
* `RoundsUpToSign`, `roundsUpToSign_sub` — a difference of two floats rounds to the float that is
  computed for it;
* `margin`, `RoundsToFloat.lt_tolerance_iff` — the numbers that round to less than the tolerance;
* `nearlyEqual_iff` — when two floats count as equal.
-/

namespace TeamRouting.Decimal

open Float.Model Float.Model.UnpackedFloat

variable {q : ℚ} {n m m₀ : ℕ} {e e₀ : ℤ}

/-! ## Numbers that round to floats -/

theorem exists_roundsTo (h : 0 ≤ q) : ∃ n, RoundsTo q n := by
  have hnum : ((q.num.toNat : ℤ) : ℚ) = q.num := by rw [Int.toNat_of_nonneg (Rat.num_nonneg.2 h)]
  have hq : ((q.num.toNat : ℕ) : ℚ) / q.den = q := by
    rw [← Int.cast_natCast, hnum, Rat.num_div_den]
  have hlocates := locates_div q.pos q.num.toNat
  rw [hq] at hlocates
  exact ⟨_, hlocates.roundsTo⟩

/-- **A number whose mantissa is rounded in its place** rounds to a float.  The mantissa may have
grown by a bit, and then stands in the next place. -/
theorem exists_roundsToFloat_of_roundsTo (h : RoundsTo (q / 2 ^ e) n) (low : -1074 ≤ e)
    (full : (2 ^ 52 : ℕ) ≤ q / 2 ^ e ∨ e = -1074 ∧ (1 : ℕ) ≤ q / 2 ^ e)
    (small : q / 2 ^ e < (2 ^ 53 : ℕ)) :
    ∃ m₀ e₀, IsCanonical m₀ e₀ ∧ RoundsToFloat q m₀ e₀ ∧ (m₀ * 2 ^ e₀ : ℚ) = n * 2 ^ e := by
  have hle : n ≤ 2 ^ 53 := h.mono (roundsTo_self _) small.le
  by_cases hn : n = 2 ^ 53
  · subst hn
    have hnormal := h.low
    have hplace : q / 2 ^ (e + 1) = q / 2 ^ e / 2 := by
      rw [zpow_add_one₀ two_ne_zero, div_div]
    push_cast at hnormal small
    refine ⟨2 ^ 52, e + 1, ⟨by decide, by decide, by omega, Or.inl le_rfl⟩, ⟨?_, ?_⟩, ?_⟩
    · rw [hplace]
      refine roundsTo_of_lt ?_ ?_ <;> push_cast <;> linarith
    · rintro - -
      rw [hplace]
      linarith
    · rw [zpow_add_one₀ two_ne_zero]
      push_cast
      ring
  · have hsmall : n < 2 ^ 53 := Nat.lt_of_le_of_ne hle hn
    rcases full with hfull | ⟨rfl, hone⟩
    · have hfull' : 2 ^ 52 ≤ n := (roundsTo_self _).mono h hfull
      refine ⟨n, e, ⟨by omega, hsmall, low, Or.inl hfull'⟩, ⟨h, ?_⟩, rfl⟩
      rintro - -
      push_cast at hfull
      linarith
    · have hpos : 1 ≤ n := (roundsTo_self _).mono h hone
      exact ⟨n, _, ⟨hpos, hsmall, le_rfl, Or.inr rfl⟩, ⟨h, fun _ h => absurd rfl h⟩, rfl⟩

/-- **A number that is not too small rounds to a float.** -/
theorem exists_roundsToFloat (h : (2 : ℚ) ^ (-1074 : ℤ) ≤ q) :
    ∃ m₀ e₀, IsCanonical m₀ e₀ ∧ RoundsToFloat q m₀ e₀ := by
  have hpos : 0 < q := (zpow_pos two_pos _).trans_le h
  have hlow : (2 : ℚ) ^ Int.log 2 q ≤ q := by
    exact_mod_cast Int.zpow_log_le_self (by decide : 1 < 2) hpos
  have hhigh : q < (2 : ℚ) ^ (Int.log 2 q + 1) := by
    exact_mod_cast Int.lt_zpow_succ_log_self (by decide : 1 < 2) q
  generalize Int.log 2 q = k at hlow hhigh
  obtain ⟨e, he, hk, hplace⟩ : ∃ e, -1074 ≤ e ∧ k ≤ e + 52 ∧ (k = e + 52 ∨ e = -1074) :=
    ⟨max (k - 52) (-1074), by omega, by omega, by omega⟩
  have hunit : (0 : ℚ) < 2 ^ e := zpow_pos two_pos e
  have hfull : (2 ^ 52 : ℕ) ≤ q / 2 ^ e ∨ e = -1074 ∧ (1 : ℕ) ≤ q / 2 ^ e := by
    rcases hplace with rfl | rfl
    · left
      rw [le_div_iff₀ hunit, Nat.cast_pow, Nat.cast_ofNat, ← two_zpow_add, Int.add_comm]
      exact hlow
    · right
      rw [Nat.cast_one, one_le_div₀ hunit]
      exact ⟨rfl, h⟩
  have hsmall : q / 2 ^ e < (2 ^ 53 : ℕ) := by
    rw [div_lt_iff₀ hunit, Nat.cast_pow, Nat.cast_ofNat, ← two_zpow_add]
    exact hhigh.trans_le (zpow_le_zpow_right₀ one_le_two (by omega))
  obtain ⟨n, hn⟩ := exists_roundsTo (div_pos hpos hunit).le
  obtain ⟨m₀, e₀, c, hround, -⟩ := exists_roundsToFloat_of_roundsTo hn he hfull hsmall
  exact ⟨m₀, e₀, c, hround⟩

/-! ## Subtraction -/

/-- What a number is rounded to, but for the sign.  The exponent may be that of a number which is
too large for a float. -/
inductive RoundsUpToSign (d : ℚ) : UnpackedFloat → Prop
  | zero (s : Sign) (h : d = 0) : RoundsUpToSign d (.zero s)
  | finite (s : Sign) {m₀ : ℕ} {e₀ : ℤ} (c : IsCanonical m₀ e₀) (h : RoundsToFloat |d| m₀ e₀) :
      RoundsUpToSign d (.finite s m₀ e₀ c.pos)

/-- Rounding a mantissa. -/
theorem roundsUpToSign_round (s : Sign) (pos : 0 < m) (low : -1074 ≤ e) {d : ℚ}
    (h : |d| = m * 2 ^ e) : RoundsUpToSign d (UnpackedFloat.round Format.binary64 s m e) := by
  have hlarge : (2 : ℚ) ^ (-1074 : ℤ) ≤ m * 2 ^ e := by
    have hone : (1 : ℚ) ≤ m := by exact_mod_cast pos
    calc (2 : ℚ) ^ (-1074 : ℤ) ≤ 2 ^ e := zpow_le_zpow_right₀ one_le_two low
      _ ≤ m * 2 ^ e := le_mul_of_one_le_left (zpow_pos two_pos e).le hone
  obtain ⟨m₀, e₀, c, hround⟩ := exists_roundsToFloat hlarge
  rw [round_eq_of_roundsToFloat s pos c hround]
  rw [← h] at hround
  exact .finite s c hround

/-- Rounding a mantissa with its sign. -/
theorem roundsUpToSign_normalize (k : ℤ) (low : -1074 ≤ e) (s : Sign) :
    RoundsUpToSign (k * 2 ^ e) (UnpackedFloat.normalize Format.binary64 k e s) := by
  have hunit : (0 : ℚ) < 2 ^ e := zpow_pos two_pos e
  have habs : |(k : ℚ) * 2 ^ e| = k.natAbs * 2 ^ e := by
    rw [abs_mul, abs_of_pos hunit, Nat.cast_natAbs, Int.cast_abs]
  rw [UnpackedFloat.normalize]
  rcases lt_trichotomy k 0 with hneg | rfl | hpos
  · rw [Int.compare_eq_lt.2 hneg]
    have hk : (-k).toNat = k.natAbs := by omega
    dsimp only
    rw [hk]
    exact roundsUpToSign_round .negative (by omega) low habs
  · rw [Int.compare_eq_eq.2 rfl]
    exact .zero s (by simp)
  · rw [Int.compare_eq_gt.2 hpos]
    have hk : k.toNat = k.natAbs := by omega
    dsimp only
    rw [hk]
    exact roundsUpToSign_round .positive (by omega) low habs

/-- A mantissa that is shifted to a lower place stands for the same number. -/
theorem decreaseExponent_value (s : Sign) {t : ℤ} (h : t ≤ e) :
    (s.apply ((decreaseExponent m e t).1 : ℕ) * 2 ^ t : ℚ) = s.apply m * 2 ^ e := by
  have hpow : (2 : ℚ) ^ e = 2 ^ (e - t).toNat * 2 ^ t := by
    rw [← two_zpow_add]
    congr 1
    omega
  have hshift : ((decreaseExponent m e t).1 : ℚ) = m * 2 ^ (e - t).toNat := by
    rw [decreaseExponent, Nat.shiftLeft_eq]
    push_cast
    rfl
  cases s <;> simp only [Sign.apply, Int.cast_neg, Int.cast_natCast, hshift, hpow] <;> ring

theorem abs_apply (s : Sign) (m : ℕ) (e : ℤ) : |(s.apply m * 2 ^ e : ℚ)| = m * 2 ^ e := by
  have hpos : (0 : ℚ) ≤ m * 2 ^ e := mul_nonneg (Nat.cast_nonneg m) (zpow_pos two_pos e).le
  cases s
  · rw [Sign.apply, Int.cast_neg, Int.cast_natCast, neg_mul, abs_neg, abs_of_nonneg hpos]
  · exact abs_of_nonneg hpos

/-- **A difference is rounded to the float that is computed for it.** -/
theorem roundsUpToSign_sub {u v : UnpackedFloat} (hu : InRange u) (hv : InRange v) :
    RoundsUpToSign (unpackedValue u - unpackedValue v)
      (UnpackedFloat.sub Format.binary64 u v) := by
  cases hu with
  | zero s =>
      cases hv with
      | zero t =>
          cases s <;> cases t <;> exact .zero _ (sub_self 0)
      | finite t c₂ high₂ =>
        rename_i m₂ e₂
        refine .finite (-t) c₂ ?_
        have habs : |unpackedValue (.zero s) - unpackedValue (.finite t m₂ e₂ c₂.pos)|
            = m₂ * 2 ^ e₂ := by
          rw [unpackedValue_zero, unpackedValue_finite, zero_sub, abs_neg, abs_apply]
        rw [habs]
        exact roundsToFloat_self m₂ e₂
  | finite s c₁ high₁ =>
    rename_i m₁ e₁
    cases hv with
    | zero t =>
        refine .finite s c₁ ?_
        have habs : |unpackedValue (.finite s m₁ e₁ c₁.pos) - unpackedValue (.zero t)|
            = m₁ * 2 ^ e₁ := by
          rw [unpackedValue_zero, unpackedValue_finite, sub_zero, abs_apply]
        rw [habs]
        exact roundsToFloat_self m₁ e₁
    | finite t c₂ high₂ =>
      rename_i m₂ e₂
      have hlow : -1074 ≤ min e₁ e₂ := le_min c₁.low c₂.low
      have halign : unpackedValue (.finite s m₁ e₁ c₁.pos) - unpackedValue (.finite t m₂ e₂ c₂.pos)
          = ((s.apply (decreaseExponent m₁ e₁ (min e₁ e₂)).1
            - t.apply (decreaseExponent m₂ e₂ (min e₁ e₂)).1 : ℤ) : ℚ) * 2 ^ min e₁ e₂ := by
        rw [Int.cast_sub, sub_mul, decreaseExponent_value s (min_le_left e₁ e₂),
          decreaseExponent_value t (min_le_right e₁ e₂)]
        rfl
      rw [halign]
      exact roundsUpToSign_normalize _ hlow .positive

/-! ## The tolerance -/

/-- How far apart two numbers may lie, and below, to count as equal: the tolerance, less a quarter
of the gap between it and the float before. -/
def margin : ℚ := 2 ^ (-52 : ℤ) - 2 ^ (-106 : ℤ)

theorem margin_lt_one : margin < 1 := by
  rw [margin]
  norm_num

theorem margin_pos : 0 < margin := by
  rw [margin]
  norm_num

theorem isCanonical_tolerance : IsCanonical (2 ^ 52) (-104) :=
  ⟨by decide, by decide, by decide, Or.inl le_rfl⟩

theorem tolerance_value : ((2 ^ 52 : ℕ) * 2 ^ (-104 : ℤ) : ℚ) = 2 ^ (-52 : ℤ) := by norm_num

/-- A float below the tolerance has a lower exponent. -/
theorem IsCanonical.lt_tolerance_iff (c : IsCanonical m₀ e₀) :
    (m₀ * 2 ^ e₀ : ℚ) < 2 ^ (-52 : ℤ) ↔ e₀ ≤ -105 := by
  rw [← tolerance_value]
  constructor
  · intro h
    by_contra he
    rcases (by omega : -104 < e₀ ∨ e₀ = -104) with hlt | rfl
    · exact absurd (isCanonical_tolerance.lt_of_lt c hlt) h.le.not_gt
    · have hfull : ((2 ^ 52 : ℕ) : ℚ) ≤ m₀ := by exact_mod_cast c.full.resolve_right (by decide)
      exact absurd h (mul_le_mul_of_nonneg_right hfull (zpow_pos two_pos _).le).not_gt
  · intro he
    exact c.lt_of_lt isCanonical_tolerance (by omega)

theorem RoundsToFloat.lt_margin (c : IsCanonical m₀ e₀) (h : RoundsToFloat q m₀ e₀)
    (he : e₀ ≤ -105) : q < margin := by
  have hunit : (0 : ℚ) < 2 ^ e₀ := zpow_pos two_pos e₀
  have hhigh : q ≤ (m₀ + 1 / 2) * 2 ^ e₀ := (div_le_iff₀ hunit).1 h.nearest.high
  have hsmall : (m₀ : ℚ) + 1 ≤ 2 ^ 53 := by exact_mod_cast c.small
  have hlargest : q ≤ (2 ^ 53 - 1 / 2) * 2 ^ e₀ :=
    hhigh.trans (mul_le_mul_of_nonneg_right (by linarith) hunit.le)
  have hmargin : (2 ^ 53 - 1 / 2) * (2 : ℚ) ^ (-105 : ℤ) = margin := by
    rw [margin]
    norm_num
  rw [← hmargin]
  rcases he.lt_or_eq with hlt | rfl
  · have hpow : (2 : ℚ) ^ e₀ < 2 ^ (-105 : ℤ) := zpow_lt_zpow_right₀ one_lt_two hlt
    exact hlargest.trans_lt (mul_lt_mul_of_pos_left hpow (by norm_num))
  · -- the largest mantissa is odd, so half a unit above it belongs to the tolerance
    refine hlargest.lt_of_ne fun heq => ?_
    have hquotient : q / 2 ^ (-105 : ℤ) = 2 ^ 53 - 1 / 2 := by
      rw [heq, mul_div_cancel_right₀ _ hunit.ne']
    have hm₀ : (m₀ : ℚ) = 2 ^ 53 - 1 := by linarith [h.nearest.high]
    have heven := h.nearest.tie (Or.inr (by rw [hquotient, hm₀]; ring))
    have hodd : m₀ + 1 = 2 ^ 53 := by
      have : (m₀ : ℚ) + 1 = 2 ^ 53 := by linarith
      exact_mod_cast this
    omega

theorem RoundsToFloat.margin_le (c : IsCanonical m₀ e₀) (h : RoundsToFloat q m₀ e₀)
    (he : -104 ≤ e₀) : margin ≤ q := by
  have hmargin : (2 ^ 52 - 1 / 4) * (2 : ℚ) ^ (-104 : ℤ) = margin := by
    rw [margin]
    norm_num
  rw [← hmargin]
  rcases he.lt_or_eq with hlt | rfl
  · calc (2 ^ 52 - 1 / 4) * (2 : ℚ) ^ (-104 : ℤ) ≤ 2 ^ ((51 : ℕ) + (-103) : ℤ) := by norm_num
      _ ≤ 2 ^ ((51 : ℕ) + e₀) := zpow_le_zpow_right₀ one_le_two (by omega)
      _ ≤ q := h.two_zpow_le c (by omega)
  · rw [← le_div_iff₀ (zpow_pos two_pos _)]
    by_cases hm₀ : m₀ = 2 ^ 52
    · exact h.dense hm₀ (by decide)
    · have hfull : 2 ^ 52 + 1 ≤ m₀ := by
        have := c.full
        omega
      have hfull' : (2 : ℚ) ^ 52 + 1 ≤ m₀ := by exact_mod_cast hfull
      linarith [h.nearest.low]

/-- **Which numbers round to less than the tolerance.** -/
theorem RoundsToFloat.lt_tolerance_iff (c : IsCanonical m₀ e₀) (h : RoundsToFloat q m₀ e₀) :
    (m₀ * 2 ^ e₀ : ℚ) < 2 ^ (-52 : ℤ) ↔ q < margin := by
  rw [c.lt_tolerance_iff]
  constructor
  · exact h.lt_margin c
  · intro hq
    by_contra he
    exact absurd hq (h.margin_le c (by omega)).not_gt

/-! ## Floats that count as equal -/

theorem eq_of_toBits_eq {x y : Float.Model} (h : x.toBits = y.toBits) : x = y := by
  obtain ⟨bits, valid⟩ := x
  obtain ⟨bits', valid'⟩ := y
  cases h
  rfl

theorem pack_of_overflow (s : Sign) (pos : 0 < m) (he : 972 ≤ e) :
    Float.Model.pack (.finite s m e pos) = Float.Model.pack (.infinity s) := by
  have hbits : UnpackedFloat.pack Format.binary64 (.finite s m e pos) =
      UnpackedFloat.pack Format.binary64 (.infinity s) := by
    rw [pack_finite, if_pos (by omega)]
    rfl
  exact eq_of_toBits_eq (congrArg UInt64.ofBitVec hbits)

/-- Whether what a difference is rounded to lies below the tolerance. -/
theorem RoundsUpToSign.lt_tolerance_iff {d : ℚ} {u : UnpackedFloat} (h : RoundsUpToSign d u) :
    Float.ofModel (.pack (Float.Model.pack u).unpack.abs) < tolerance ↔ |d| < margin := by
  cases h with
  | zero s hd =>
      rw [hd, abs_zero]
      refine iff_of_true ?_ margin_pos
      cases s <;> decide
  | finite s c h =>
    rename_i m₀ e₀
    rw [← h.lt_tolerance_iff c]
    by_cases he : e₀ ≤ 971
    · have hunpack : (Float.ofModel (.pack (Float.Model.pack
          (.finite s m₀ e₀ c.pos)).unpack.abs)).toModel.unpack = .finite .positive m₀ e₀ c.pos := by
        show (Float.Model.pack (UnpackedFloat.abs (Float.Model.pack _).unpack)).unpack = _
        rw [unpack_pack_finite c he]
        exact unpack_pack_finite c he .positive
      have hfinite := isFinite_of_inRange (hunpack ▸ InRange.finite .positive c he)
      have htolerance : rational tolerance = 2 ^ (-52 : ℤ) := tolerance_value
      rw [lt_iff hfinite (by decide), htolerance, rational, hunpack]
      rfl
    · rw [pack_of_overflow s c.pos (by omega), c.lt_tolerance_iff]
      refine iff_of_false ?_ (by omega)
      cases s <;> decide

/-- **Two finite floats count as equal if the numbers are closer than the margin.** -/
theorem nearlyEqual_iff {x y : Float} (hx : x.isFinite = true) (hy : y.isFinite = true) :
    nearlyEqual x y = true ↔ |rational x - rational y| < margin := by
  have hsub := roundsUpToSign_sub (inRange_unpack hx) (inRange_unpack hy)
  rw [nearlyEqual_of_unpack rfl, decide_eq_true_eq, hsub.lt_tolerance_iff]
  rfl

end TeamRouting.Decimal
