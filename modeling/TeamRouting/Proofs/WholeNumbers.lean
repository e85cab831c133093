import TeamRouting.Proofs.Differences
import TeamRouting.Proofs.FloatTexts
import TeamRouting.Proofs.Trimming

/-!
# Whole numbers as floats

A float keeps 53 binary digits.  A whole number that has more is rounded to a multiple of a power of
two, and so to another whole number.  Up to that size whole numbers are floats, and beyond it the
order is kept, but neighbours may become the same.

* `roundDigits`, `rounded` — the whole number that a whole number is rounded to;
* `rounded_of_le`, `rounded_mono`, `rounded_lt_iff` — what is lost, and what is not;
* `rational_ofInt` — a whole number of 64 bits becomes the float that it is rounded to;
* `Spells`, `Spells.exists_read` — so does a decimal text of one, however it is set down.
-/

namespace TeamRouting.Decimal

open Float.Model Float.Model.UnpackedFloat

/-! ## Rounding whole numbers -/

/-- The whole number nearest to a quotient, and the even one of two. -/
def nearestQuotient (n d : ℕ) : ℕ :=
  if 2 * (n % d) < d ∨ 2 * (n % d) = d ∧ n / d % 2 = 0 then n / d else n / d + 1

/-- A whole number rounded to 53 binary digits. -/
def roundDigits (n : ℕ) : ℕ := nearestQuotient n (2 ^ (n.log2 - 52)) * 2 ^ (n.log2 - 52)

/-- A whole number, with its sign, rounded to 53 binary digits. -/
def rounded (k : ℤ) : ℤ := k.sign * roundDigits k.natAbs

variable {n d m₀ : ℕ} {e e₀ k l : ℤ}

theorem roundsTo_nearestQuotient (pos : 0 < d) (n : ℕ) :
    RoundsTo ((n : ℚ) / d) (nearestQuotient n d) := by
  have h := (locates_div pos n).roundsTo
  have hnearest : (ExtendedMantissa.ofMantissaAndAccuracy (n / d)
      (accuracyOfFraction (n % d) d)).roundedMantissa = nearestQuotient n d := by
    rw [accuracyOfFraction, nearestQuotient]
    by_cases hrest : n % d = 0
    · rw [if_pos hrest, if_pos (by omega)]
      rfl
    · rw [if_neg hrest]
      rcases lt_trichotomy (2 * (n % d)) d with hlt | heq | hgt
      · rw [Nat.compare_eq_lt.2 hlt, if_pos (Or.inl hlt)]
        rfl
      · rw [Nat.compare_eq_eq.2 heq]
        show n / d + n / d % 2 = _
        split <;> omega
      · rw [Nat.compare_eq_gt.2 hgt, if_neg (by omega)]
        rfl
  rwa [hnearest] at h

/-- Where the digits of a whole number end that are kept. -/
theorem roundsTo_roundDigits (n : ℕ) :
    RoundsTo ((n : ℚ) / (2 ^ (n.log2 - 52) : ℕ))
      (nearestQuotient n (2 ^ (n.log2 - 52))) :=
  roundsTo_nearestQuotient (Nat.two_pow_pos _) n

/-- A whole number of 53 binary digits is not rounded. -/
theorem roundDigits_of_lt (h : n < 2 ^ 53) : roundDigits n = n := by
  have hlog : n.log2 ≤ 52 := log2_le_of_lt h
  rw [roundDigits, Nat.sub_eq_zero_of_le hlog, nearestQuotient]
  simp [Nat.mod_one]

theorem roundDigits_of_le (h : n ≤ 2 ^ 53) : roundDigits n = n := by
  rcases h.lt_or_eq with hlt | rfl
  · exact roundDigits_of_lt hlt
  · decide +kernel

/-- Rounding stays below the next power of two. -/
theorem roundDigits_le_two_pow {b : ℕ} (h : n < 2 ^ b) : roundDigits n ≤ 2 ^ b := by
  rcases Nat.lt_or_ge n (2 ^ 53) with hsmall | hlarge
  · rw [roundDigits_of_lt hsmall]
    exact h.le
  · have hpos : n ≠ 0 := by omega
    have hbits : n.log2 < b := (Nat.log2_lt hpos).2 h
    have hsplit : 2 ^ (b - (n.log2 - 52)) * 2 ^ (n.log2 - 52) = 2 ^ b := by
      rw [← Nat.pow_add]
      congr 1
      omega
    have hquotient : (n : ℚ) / (2 ^ (n.log2 - 52) : ℕ) ≤ (2 ^ (b - (n.log2 - 52)) : ℕ) := by
      rw [div_le_iff₀ (by positivity), ← Nat.cast_mul, hsplit]
      exact_mod_cast h.le
    rw [roundDigits, ← hsplit]
    exact Nat.mul_le_mul_right _ ((roundsTo_roundDigits n).mono (roundsTo_self _) hquotient)

/-- Nor does it go below the last one. -/
theorem two_pow_le_roundDigits {b : ℕ} (h : 2 ^ b ≤ n) : 2 ^ b ≤ roundDigits n := by
  rcases Nat.lt_or_ge n (2 ^ 53) with hsmall | hlarge
  · rwa [roundDigits_of_lt hsmall]
  · have hbits : 53 ≤ n.log2 := (Nat.le_log2 (by omega)).2 hlarge
    have hbits' : b ≤ n.log2 := (Nat.le_log2 (by omega)).2 h
    have hself : 2 ^ n.log2 ≤ n := Nat.log2_self_le (by omega)
    have hsplit : 2 ^ 52 * 2 ^ (n.log2 - 52) = 2 ^ n.log2 := by
      rw [← Nat.pow_add]
      congr 1
      omega
    have hquotient : (2 ^ 52 : ℕ) ≤ (n : ℚ) / (2 ^ (n.log2 - 52) : ℕ) := by
      rw [le_div_iff₀ (by positivity), ← Nat.cast_mul, hsplit]
      exact_mod_cast hself
    calc 2 ^ b ≤ 2 ^ n.log2 := Nat.pow_le_pow_right two_pos hbits'
      _ = 2 ^ 52 * 2 ^ (n.log2 - 52) := hsplit.symm
      _ ≤ roundDigits n :=
        Nat.mul_le_mul_right _ ((roundsTo_self _).mono (roundsTo_roundDigits n) hquotient)

/-- **Rounding keeps the order of whole numbers.** -/
theorem roundDigits_mono {m n : ℕ} (hle : m ≤ n) : roundDigits m ≤ roundDigits n := by
  rcases Nat.lt_or_ge m.log2 n.log2 with hlt | hge
  · have hn : n ≠ 0 := by
      rintro rfl
      exact absurd hlt (Nat.not_lt_zero _)
    calc roundDigits m ≤ 2 ^ (m.log2 + 1) := roundDigits_le_two_pow Nat.lt_log2_self
      _ ≤ 2 ^ n.log2 := Nat.pow_le_pow_right two_pos hlt
      _ ≤ roundDigits n := two_pow_le_roundDigits (Nat.log2_self_le hn)
  · have hlog : m.log2 = n.log2 := by
      rcases Nat.eq_zero_or_pos m with rfl | hm
      · exact Nat.le_antisymm (Nat.zero_le _) hge
      · exact Nat.le_antisymm ((Nat.le_log2 (by omega)).2 ((Nat.log2_self_le hm.ne').trans hle)) hge
    have hm := roundsTo_roundDigits m
    rw [roundDigits, roundDigits]
    rw [hlog] at hm ⊢
    refine Nat.mul_le_mul_right _ (hm.mono (roundsTo_roundDigits n) ?_)
    gcongr

/-! ## Signs -/

theorem rounded_natCast (n : ℕ) : rounded n = roundDigits n := by
  rcases Nat.eq_zero_or_pos n with rfl | pos
  · rfl
  · rw [rounded, Int.sign_natCast_of_ne_zero pos.ne', one_mul, Int.natAbs_natCast]

theorem rounded_neg (k : ℤ) : rounded (-k) = -rounded k := by
  rw [rounded, rounded, Int.sign_neg, Int.natAbs_neg, neg_mul]

/-- Whole numbers up to the size that floats hold are not rounded. -/
theorem rounded_of_le (h : k.natAbs ≤ 2 ^ 53) : rounded k = k := by
  rw [rounded, roundDigits_of_le h, Int.sign_mul_natAbs]

theorem rounded_mono (hle : k ≤ l) : rounded k ≤ rounded l := by
  have hnonneg : ∀ {k : ℤ}, 0 ≤ k → 0 ≤ rounded k := by
    intro k hk
    obtain ⟨n, rfl⟩ := Int.eq_ofNat_of_zero_le hk
    rw [rounded_natCast]
    exact Int.natCast_nonneg _
  rcases le_total 0 k with hk | hk
  · obtain ⟨m, rfl⟩ := Int.eq_ofNat_of_zero_le hk
    obtain ⟨n, rfl⟩ := Int.eq_ofNat_of_zero_le (hk.trans hle)
    rw [rounded_natCast, rounded_natCast]
    exact_mod_cast roundDigits_mono (by exact_mod_cast hle)
  · obtain ⟨m, rfl⟩ := Int.exists_eq_neg_ofNat hk
    rcases le_total 0 l with hl | hl
    · rw [rounded_neg]
      exact (neg_nonpos.2 (hnonneg (Int.natCast_nonneg m))).trans (hnonneg hl)
    · obtain ⟨n, rfl⟩ := Int.exists_eq_neg_ofNat hl
      rw [rounded_neg, rounded_neg, rounded_natCast, rounded_natCast]
      exact neg_le_neg (by exact_mod_cast roundDigits_mono (by omega))

/-- Neighbours may become the same. -/
example : rounded 9007199254740993 = rounded 9007199254740992 := by decide +kernel

/-- **Numbers of which one is small are compared as before.** -/
theorem rounded_lt_iff (small : k.natAbs < 2 ^ 53 ∨ l.natAbs < 2 ^ 53) :
    rounded k < rounded l ↔ k < l := by
  constructor
  · intro h
    by_contra hle
    exact absurd (rounded_mono (Int.not_lt.1 hle)) (Int.not_le.2 h)
  · intro h
    rcases small with hk | hl
    · calc rounded k = k := rounded_of_le hk.le
        _ < k + 1 := Int.lt_succ k
        _ = rounded (k + 1) := (rounded_of_le (by omega)).symm
        _ ≤ rounded l := rounded_mono h
    · calc rounded k ≤ rounded (l - 1) := rounded_mono (Int.le_sub_one_of_lt h)
        _ = l - 1 := rounded_of_le (by omega)
        _ < l := Int.sub_one_lt_of_le le_rfl
        _ = rounded l := (rounded_of_le hl.le).symm

/-! ## Whole numbers as floats -/

/-- The float that a whole number rounds to is the rounded number. -/
theorem exists_isCanonical_roundDigits (pos : 0 < n) :
    ∃ m₀ e₀, IsCanonical m₀ e₀ ∧ RoundsToFloat n m₀ e₀ ∧ (m₀ * 2 ^ e₀ : ℚ) = roundDigits n := by
  rcases Nat.lt_or_ge n (2 ^ 53) with hsmall | hlarge
  · obtain ⟨m₀, e₀, c, -, -, hvalue⟩ := exists_isCanonical_of_lt pos hsmall
    rw [roundDigits_of_lt hsmall, hvalue]
    exact ⟨m₀, e₀, c, roundsToFloat_self m₀ e₀, rfl⟩
  · have hbits : 53 ≤ n.log2 := (Nat.le_log2 pos.ne').2 hlarge
    generalize hk : n.log2 - 52 = k
    have hround := roundsTo_roundDigits n
    have hlow : 2 ^ 52 * 2 ^ k ≤ n := by
      rw [← Nat.pow_add, ← hk, Nat.add_sub_of_le (by omega)]
      exact Nat.log2_self_le pos.ne'
    have hhigh : n < 2 ^ 53 * 2 ^ k := by
      rw [← Nat.pow_add, (by omega : 53 + k = n.log2 + 1)]
      exact Nat.lt_log2_self
    rw [hk, Nat.cast_pow, Nat.cast_ofNat, ← zpow_natCast] at hround
    obtain ⟨m₀, e₀, c, hfloat, hvalue⟩ := exists_roundsToFloat_of_roundsTo hround (by omega)
      (Or.inl ((le_div_iff₀ (by positivity)).2 (by exact_mod_cast hlow)))
      ((div_lt_iff₀ (by positivity)).2 (by exact_mod_cast hhigh))
    refine ⟨m₀, e₀, c, hfloat, ?_⟩
    rw [hvalue, roundDigits, hk, Nat.cast_mul, Nat.cast_pow, Nat.cast_ofNat, zpow_natCast]

/-- **A decimal that is a whole number becomes the rounded number.** -/
theorem rational_toFloat {k : ℕ} (whole : (n * 10 ^ e : ℚ) = k) (hk : k < 2 ^ 64) :
    (toFloat n e).isFinite = true ∧ rational (toFloat n e) = roundDigits k := by
  rcases Nat.eq_zero_or_pos k with rfl | pos
  · have hn : n = 0 := by
      have hpow : (10 : ℚ) ^ e ≠ 0 := (zpow_pos (by norm_num) e).ne'
      rw [Nat.cast_zero, mul_eq_zero, or_iff_left hpow] at whole
      exact_mod_cast whole
    rw [hn, toFloat, if_pos rfl]
    exact ⟨rfl, rfl⟩
  · obtain ⟨m₀, e₀, c, hround, hvalue⟩ := exists_isCanonical_roundDigits pos
    have hhigh : e₀ ≤ 971 := by
      by_cases hlowest : e₀ = -1074
      · omega
      · have hpow : (2 : ℚ) ^ ((51 : ℕ) + e₀) < 2 ^ (64 : ℤ) :=
          (hround.two_zpow_le c hlowest).trans_lt (by exact_mod_cast hk)
        have := (zpow_lt_zpow_iff_right₀ one_lt_two).1 hpow
        omega
    rw [← whole] at hround
    have hunpack : (toFloat n e).toModel.unpack = .finite .positive m₀ e₀ c.pos := by
      rw [toFloat_eq_of_roundsToFloat c hhigh hround]
      exact unpack_pack_finite c hhigh .positive
    refine ⟨isFinite_of_inRange (hunpack ▸ .finite .positive c hhigh), ?_⟩
    rw [rational, hunpack, ← hvalue]
    rfl

theorem apply_neg (s : Sign) (k : ℤ) : (-s).apply k = -s.apply k := by
  cases s
  · exact (neg_neg k).symm
  · rfl

theorem rational_neg {x : Float} (finite : x.isFinite = true) :
    (-x).isFinite = true ∧ rational (-x) = -rational x := by
  have hrange := inRange_unpack finite
  have hneg : InRange (-x).toModel.unpack ∧
      unpackedValue (-x).toModel.unpack = -unpackedValue x.toModel.unpack := by
    show InRange (Float.Model.pack x.toModel.unpack.neg).unpack ∧
      unpackedValue (Float.Model.pack x.toModel.unpack.neg).unpack = _
    generalize x.toModel.unpack = u at hrange
    cases hrange with
    | zero s => cases s <;> exact ⟨.zero _, neg_zero.symm⟩
    | finite s c high =>
      rename_i m e
      have hunpack := unpack_pack_finite c high (-s)
      constructor
      · show InRange (Float.Model.pack (.finite (-s) m e c.pos)).unpack
        rw [hunpack]
        exact .finite (-s) c high
      · show unpackedValue (Float.Model.pack (.finite (-s) m e c.pos)).unpack = _
        rw [hunpack, unpackedValue_finite, unpackedValue_finite, apply_neg, Int.cast_neg, neg_mul]
  exact ⟨isFinite_of_inRange hneg.1, hneg.2⟩

theorem rational_neg_toFloat {k : ℕ} (whole : (n * 10 ^ e : ℚ) = k) (hk : k < 2 ^ 64) :
    (-toFloat n e).isFinite = true ∧ rational (-toFloat n e) = rounded (-k) := by
  obtain ⟨finite, hvalue⟩ := rational_toFloat whole hk
  refine ⟨(rational_neg finite).1, ?_⟩
  rw [(rational_neg finite).2, hvalue, rounded_neg, rounded_natCast]
  push_cast
  rfl

/-- **A whole number of 64 bits becomes the float that it is rounded to.** -/
theorem rational_ofInt (hk : k.natAbs < 2 ^ 64) :
    (ofInt k).isFinite = true ∧ rational (ofInt k) = rounded k := by
  have whole : (k.natAbs * 10 ^ (0 : ℤ) : ℚ) = k.natAbs := by rw [zpow_zero, mul_one]
  rw [ofInt]
  rcases lt_or_ge k 0 with hneg | hnonneg
  · have h := rational_neg_toFloat whole hk
    rw [Int.ofNat_natAbs_of_nonpos hneg.le, neg_neg] at h
    rwa [if_pos hneg]
  · obtain ⟨finite, hvalue⟩ := rational_toFloat whole hk
    rw [if_neg (Int.not_lt.2 hnonneg), hvalue]
    refine ⟨finite, ?_⟩
    rw [← Int.cast_natCast, ← rounded_natCast, Int.natAbs_of_nonneg hnonneg]

/-! ## Decimal texts of whole numbers -/

/-- A decimal text of a whole number: digits, with a point and zeros behind it or without, and a
sign before them or none. -/
inductive Spells : List Char → ℤ → Prop
  | plain {cs : List Char} {n k : ℕ} {e : ℤ} (h : PlainNumeral cs n e)
      (whole : (n * 10 ^ e : ℚ) = k) : Spells cs k
  | plus {cs : List Char} {n k : ℕ} {e : ℤ} (h : PlainNumeral cs n e)
      (whole : (n * 10 ^ e : ℚ) = k) : Spells ('+' :: cs) k
  | minus {cs : List Char} {n k : ℕ} {e : ℤ} (h : PlainNumeral cs n e)
      (whole : (n * 10 ^ e : ℚ) = k) : Spells ('-' :: cs) (-k)

/-- **A decimal text of a whole number is read as the rounded number.** -/
theorem Spells.exists_read {cs : List Char} (h : Spells cs k) (hk : k.natAbs < 2 ^ 64) :
    ∃ x, read? cs = some x ∧ x.isFinite = true ∧ rational x = rounded k := by
  cases h with
  | plain h whole =>
      obtain ⟨finite, hvalue⟩ := rational_toFloat whole (by simpa using hk)
      refine ⟨_, h.read?_eq, finite, ?_⟩
      rw [hvalue, rounded_natCast, Int.cast_natCast]
  | plus h whole =>
      obtain ⟨finite, hvalue⟩ := rational_toFloat whole (by simpa using hk)
      refine ⟨_, h.magnitude?_eq, finite, ?_⟩
      rw [hvalue, rounded_natCast, Int.cast_natCast]
  | minus h whole =>
      obtain ⟨finite, hvalue⟩ := rational_neg_toFloat whole (by simpa using hk)
      refine ⟨_, ?_, finite, hvalue⟩
      rw [read?, h.magnitude?_eq, Option.map_some]

/-- The text of a whole number is one, with no blanks around it. -/
theorem spells_asText (n : Int64) :
    Spells (Text.trimChars (Scalar.integer n).asText.toList) n.toInt := by
  have hblank : ∀ c ∈ (Scalar.integer n).asText.toList, Text.isBlank c = false := by
    intro c hc
    obtain ⟨hlow, hhigh⟩ := (Scalar.isNumberText_integer n).bounds c hc
    exact Text.isBlank_of_bounds hlow (hhigh.trans (by decide))
  rw [Text.trimChars_of_not_blank hblank, Scalar.asText]
  obtain ⟨cs, k, hdigits, ⟨hcs, hk⟩ | ⟨hcs, hk⟩⟩ := Text.exists_toString n.toInt
  · rw [hcs, hk]
    exact .plain (.whole hdigits) (by rw [zpow_zero, mul_one])
  · rw [hcs, hk]
    exact .minus (.whole hdigits) (by rw [zpow_zero, mul_one])

end TeamRouting.Decimal
