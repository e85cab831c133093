import TeamRouting.Decimal.Layout
import TeamRouting.Proofs.NearestFloats

/-!
# The shortest decimal of a float

The digits of a float are chosen from the decimals inside an interval, so that they round to the
float again.  This file says what is inside in terms of numbers: the two ends lie half a unit of
the mantissa away, or a quarter below a power of two, and belong to the interval if the mantissa is
even.  Those are the numbers that round to the float.

* `Interval.Holds`, `Interval.contains_iff` — the numbers, and the decimals, inside an interval;
* `Interval.holds_shortest` — the decimal that is chosen is inside;
* `Interval.holds_ofMagnitude_iff` — the interval of a float in units of its mantissa;
* `roundsToFloat_of_holds` — what is inside the interval of a float rounds to it;
* `ofBits_of_encodes` — the interval that the bits of a float stand for.
-/

namespace TeamRouting.Decimal

open Float.Model Float.Model.UnpackedFloat

/-! ## Decimals inside an interval -/

/-- The number that a decimal stands for. -/
def Digits.value (d : Digits) : ℚ := d.digits * 10 ^ d.scale

/-- The numbers inside an interval. -/
def Interval.Holds (i : Interval) (q : ℚ) : Prop :=
  if i.closed then i.low ≤ q * i.denominator ∧ q * i.denominator ≤ i.high
  else i.low < q * i.denominator ∧ q * i.denominator < i.high

variable {i : Interval} {d : Digits} {tie : Tie}

theorem ten_zpow_mul_refine (s : ℤ) : (10 : ℚ) ^ s * Interval.refine s = 10 ^ s.toNat := by
  have hrefine : ((Interval.refine s : ℕ) : ℚ) = 10 ^ ((-s).toNat : ℤ) := by
    rw [zpow_natCast]
    exact Nat.cast_pow 10 _
  rw [hrefine, ← zpow_natCast, ← zpow_add₀ (by norm_num)]
  congr 1
  omega

/-- **A decimal is inside an interval if its number is.** -/
theorem Interval.contains_iff : i.contains d = true ↔ i.Holds d.value := by
  have hscaled : ((d.digits * i.unit d.scale : ℕ) : ℚ) =
      d.value * i.denominator * Interval.refine d.scale := by
    rw [Digits.value, mul_right_comm, mul_assoc (d.digits : ℚ), ten_zpow_mul_refine]
    show ((d.digits * (i.denominator * 10 ^ d.scale.toNat) : ℕ) : ℚ) = _
    push_cast
    ring
  have hpos : (0 : ℚ) < Interval.refine d.scale := by
    exact_mod_cast Nat.pow_pos (by decide)
  have hle : ∀ n : ℕ, n * Interval.refine d.scale ≤ d.digits * i.unit d.scale ↔
      n ≤ d.value * i.denominator := by
    intro n
    rw [← Nat.cast_le (α := ℚ), hscaled, Nat.cast_mul, mul_le_mul_iff_left₀ hpos]
  have hge : ∀ n : ℕ, d.digits * i.unit d.scale ≤ n * Interval.refine d.scale ↔
      d.value * i.denominator ≤ n := by
    intro n
    rw [← Nat.cast_le (α := ℚ), hscaled, Nat.cast_mul, mul_le_mul_iff_left₀ hpos]
  unfold Interval.contains Interval.Holds
  cases i.closed
  · simp only [Bool.false_eq_true, if_false, Bool.and_eq_true, decide_eq_true_eq, ← not_le, hle,
      hge]
  · simp only [if_true, Bool.and_eq_true, decide_eq_true_eq, hle, hge]

/-! ## The choice of digits -/

/-- Only decimals inside the interval come into question. -/
theorem Interval.contains_of_onGrid? {scale : ℤ} (h : i.onGrid? tie scale = some d) :
    i.contains d = true := by
  unfold Interval.onGrid? at h
  dsimp only at h
  split at h
  · next hbelow habove =>
    split at h
    · cases h
      exact hbelow
    · cases h
      exact habove
    · cases h
      exact habove
    · cases h
      split
      · exact hbelow
      · exact habove
  · next hbelow habove =>
    cases h
    exact hbelow
  · next hbelow habove =>
    cases h
    exact habove
  · cases h

/-- Zeros at the end of the digits are worth a power of ten each. -/
theorem Digits.value_strip (d : Digits) : d.strip.value = d.value := by
  have hgo : ∀ (fuel n : ℕ) (s : ℤ), (Digits.strip.go fuel n s).value = n * 10 ^ s := by
    intro fuel
    induction fuel with
    | zero => intro n s; rfl
    | succ fuel ih =>
        intro n s
        rw [Digits.strip.go]
        split
        · next hzero =>
          rw [Bool.and_eq_true, decide_eq_true_eq] at hzero
          have hn : (n : ℚ) = (n / 10 : ℕ) * 10 := by
            exact_mod_cast (Nat.div_mul_cancel (Nat.dvd_of_mod_eq_zero hzero.1)).symm
          rw [ih, zpow_add_one₀ (by norm_num), hn, mul_assoc, mul_comm (10 : ℚ)]
        · rfl
  exact hgo d.digits d.digits d.scale

/-- The magnitude of an interval. -/
theorem Interval.value_exact {k : ℕ} (h : i.denominator = 2 ^ k) :
    i.exact.value * i.denominator = i.value := by
  have hlog : i.denominator.log2 = k := by rw [h, Nat.log2_two_pow]
  show ((i.value * 5 ^ i.denominator.log2 : ℕ) : ℚ) * 10 ^ (-(i.denominator.log2 : ℤ)) * _ = _
  rw [hlog, h, zpow_neg, zpow_natCast]
  push_cast
  rw [show (10 : ℚ) ^ k = 2 ^ k * 5 ^ k by rw [← mul_pow]; norm_num]
  field_simp

/-- **The shortest decimal is inside the interval.** -/
theorem Interval.holds_shortest {k : ℕ} (h : i.denominator = 2 ^ k) (low : i.low < i.value)
    (high : i.value < i.high) : i.Holds (i.shortest tie).value := by
  rw [Interval.shortest, Digits.value_strip]
  cases hfound : (List.range 17).findSome? fun n : ℕ => i.onGrid? tie (i.leading - (n + 1)) with
  | some d =>
      obtain ⟨n, -, hn⟩ := List.exists_of_findSome?_eq_some hfound
      exact Interval.contains_iff.1 (Interval.contains_of_onGrid? hn)
  | none =>
      show i.Holds i.exact.value
      unfold Interval.Holds
      have hlow : (i.low : ℚ) < i.value := by exact_mod_cast low
      have hhigh : (i.value : ℚ) < i.high := by exact_mod_cast high
      rw [Interval.value_exact h]
      split
      · exact ⟨hlow.le, hhigh.le⟩
      · exact ⟨hlow, hhigh⟩

/-! ## The interval of a float -/

variable {m : ℕ} {e : ℤ} {q : ℚ}

/-- Whether the floats below are denser than those above. -/
def isPowerOfTwo (m : ℕ) (e : ℤ) : Bool := m == 2 ^ 52 && e != -1074

/-- The scale of the interval, in which a unit of the mantissa counts four. -/
theorem scale_ofMagnitude (e : ℤ) :
    (2 : ℚ) ^ (e - 2).toNat = 2 ^ (2 - e).toNat * (2 ^ e / 4) := by
  have hscale : ((e - 2).toNat : ℤ) = (2 - e).toNat + e - 2 := by omega
  rw [← zpow_natCast, hscale, zpow_sub₀ two_ne_zero, zpow_add₀ two_ne_zero, zpow_natCast]
  norm_num
  ring

/-- The reach of the interval below the float, in quarters of a unit. -/
def quartersBelow (powerOfTwo : Bool) : ℚ := if powerOfTwo then 1 else 2

theorem quartersBelow_le (powerOfTwo : Bool) : quartersBelow powerOfTwo ≤ 2 := by
  cases powerOfTwo <;> norm_num [quartersBelow]

/-- The interval of a float in units of its mantissa. -/
theorem Interval.holds_ofMagnitude_iff (pos : 0 < m) (powerOfTwo : Bool) :
    (Interval.ofMagnitude m e powerOfTwo).Holds q ↔
      if m % 2 == 0 then
        m - quartersBelow powerOfTwo / 4 ≤ q / 2 ^ e ∧ q / 2 ^ e ≤ m + 1 / 2
      else m - quartersBelow powerOfTwo / 4 < q / 2 ^ e ∧ q / 2 ^ e < m + 1 / 2 := by
  have he : (0 : ℚ) < 2 ^ e := zpow_pos two_pos e
  have hpos : (0 : ℚ) < 2 ^ e * 2 ^ (2 - e).toNat := mul_pos he (pow_pos two_pos _)
  have hunits : ∀ n : ℕ, ((n * Nat.pow 2 (e - 2).toNat : ℕ) : ℚ) =
      n / 4 * (2 ^ e * 2 ^ (2 - e).toNat) := by
    intro n
    show ((n * 2 ^ (e - 2).toNat : ℕ) : ℚ) = _
    rw [Nat.cast_mul, Nat.cast_pow, Nat.cast_ofNat, scale_ofMagnitude]
    ring
  have hnumber : q * (Nat.pow 2 (2 - e).toNat : ℕ) = q / 2 ^ e * (2 ^ e * 2 ^ (2 - e).toNat) := by
    show q * ((2 ^ (2 - e).toNat : ℕ) : ℚ) = _
    rw [Nat.cast_pow, Nat.cast_ofNat, ← mul_assoc, div_mul_cancel₀ q he.ne']
  have hlow : ((4 * m - if powerOfTwo then 1 else 2 : ℕ) : ℚ) / 4 =
      m - quartersBelow powerOfTwo / 4 := by
    rw [Nat.cast_sub (by split <;> omega), quartersBelow]
    push_cast
    ring
  have hhigh : ((4 * m + 2 : ℕ) : ℚ) / 4 = m + 1 / 2 := by
    push_cast
    ring
  unfold Interval.Holds Interval.ofMagnitude
  dsimp only
  rw [hunits, hunits, hnumber, hlow, hhigh, mul_le_mul_iff_left₀ hpos, mul_le_mul_iff_left₀ hpos,
    mul_lt_mul_iff_left₀ hpos, mul_lt_mul_iff_left₀ hpos]

/-- **What is inside the interval of a float rounds to it.** -/
theorem roundsToFloat_of_holds (pos : 0 < m)
    (h : (Interval.ofMagnitude m e (isPowerOfTwo m e)).Holds q) : RoundsToFloat q m e := by
  rw [Interval.holds_ofMagnitude_iff pos] at h
  have hle := quartersBelow_le (isPowerOfTwo m e)
  have hdense : m = 2 ^ 52 → e ≠ -1074 → quartersBelow (isPowerOfTwo m e) = 1 := by
    rintro rfl hne
    rw [quartersBelow, if_pos]
    simpa [isPowerOfTwo] using hne
  generalize quartersBelow (isPowerOfTwo m e) = below at h hdense hle
  split at h
  · next heven =>
    refine ⟨⟨by linarith, by linarith, fun _ => by simpa using heven⟩, fun hm hne => ?_⟩
    rw [hdense hm hne, hm] at h
    push_cast at h
    linarith
  · refine ⟨roundsTo_of_lt (by linarith) (by linarith), fun hm hne => ?_⟩
    rw [hdense hm hne, hm] at h
    push_cast at h
    linarith

/-- **The shortest decimal of a float rounds to it.** -/
theorem roundsToFloat_shortest (pos : 0 < m) :
    RoundsToFloat ((Interval.ofMagnitude m e (isPowerOfTwo m e)).shortest tie).value m e := by
  have hup : 0 < Nat.pow 2 (e - 2).toNat := Nat.pow_pos two_pos
  refine roundsToFloat_of_holds pos (Interval.holds_shortest rfl ?_ ?_)
  · refine Nat.mul_lt_mul_of_pos_right ?_ hup
    split <;> omega
  · exact Nat.mul_lt_mul_of_pos_right (by omega) hup

/-! ## The interval of bits -/

variable {x : Float} {s : Sign} {E : BitVec 11} {M : BitVec 52}

theorem toNat_of_bits (h : x.toBits.toBitVec = packComponents Format.binary64 s E M) :
    x.toBits.toNat = s.toBitVec.toNat * 2 ^ 63 + E.toNat * 2 ^ 52 + M.toNat := by
  rw [← toNat_packComponents, ← h]
  rfl

theorem isNegative_of_bits (h : x.toBits.toBitVec = packComponents Format.binary64 s E M) :
    isNegative x = (s == .negative) := by
  have hM := M.isLt
  have hE := E.isLt
  rw [isNegative, toNat_of_bits h]
  show decide (2 ^ 63 ≤ _) = _
  cases s
  · exact decide_eq_true (by show 2 ^ 63 ≤ 1 * 2 ^ 63 + _ + _; omega)
  · exact decide_eq_false (by show ¬ 2 ^ 63 ≤ 0 * 2 ^ 63 + _ + _; omega)

/-- The two fields, read from the bits. -/
theorem field_of_bits (h : x.toBits.toBitVec = packComponents Format.binary64 s E M) :
    x.toBits.toNat / Nat.pow 2 52 % Nat.pow 2 11 = E.toNat ∧
      x.toBits.toNat % Nat.pow 2 52 = M.toNat := by
  have hM := M.isLt
  have hE := E.isLt
  rw [toNat_of_bits h]
  show _ / 2 ^ 52 % 2 ^ 11 = _ ∧ _ % 2 ^ 52 = _
  omega

/-- **The interval that the bits of a float stand for.** -/
theorem ofBits_of_encodes (fields : Encodes E M m e)
    (h : x.toBits.toBitVec = packComponents Format.binary64 s E M) :
    Interval.ofBits x.toBits = Interval.ofMagnitude m e (isPowerOfTwo m e) := by
  obtain ⟨hfield, hfraction⟩ := field_of_bits h
  unfold Interval.ofBits
  dsimp only
  rw [hfield, hfraction]
  have hM := M.isLt
  cases fields with
  | normal finite lead =>
      have hE : E.toNat ≠ 0 := toNat_ne_of_ne lead
      have hdense : (M.toNat == 0 && E.toNat != 1) =
          isPowerOfTwo (2 ^ 52 + M.toNat) (E.toNat - 1075) := by
        rw [isPowerOfTwo, Bool.eq_iff_iff, Bool.and_eq_true, Bool.and_eq_true, beq_iff_eq,
          beq_iff_eq, bne_iff_ne, bne_iff_ne]
        omega
      rw [if_neg hE, hdense]
      rfl
  | subnormal noLead nonzero =>
      have hE : E.toNat = 0 := congrArg BitVec.toNat noLead
      have hdense : isPowerOfTwo M.toNat (-1074) = false := Bool.and_false _
      rw [if_pos hE, hdense]

theorem value_ofBits_of_zero (h : x.toBits.toBitVec = packComponents Format.binary64 s 0#11 0#52) :
    (Interval.ofBits x.toBits).value = 0 := by
  obtain ⟨hfield, hfraction⟩ := field_of_bits h
  unfold Interval.ofBits
  dsimp only
  rw [hfield, hfraction]
  rfl

end TeamRouting.Decimal
