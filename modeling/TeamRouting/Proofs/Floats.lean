import Mathlib.Tactic.Ring
import TeamRouting.Evaluation

/-!
# Floats that count as the same number

Two facts about floats on which the reading of numerals rests.  A whole number of 64 bits lies far
inside the range of floats, so that its float is finite; and the two zeros, which read differently,
compare alike with every other float.

* `Decimal.bounded_roundWithAccuracy`, `Decimal.bounded_unpack_pack` — rounding and packing keep a
  float within bounds that are known beforehand;
* `Decimal.bounded_toFloat` — the float of a whole number of 64 bits is finite;
* `Decimal.SameNumber` — floats that differ at most in the sign of a zero, and what may be
  compared with either of them.

The bounds are generous: a mantissa of `k` bits never grows by more than one bit when it is
rounded, and no exponent in question comes near to that of the infinities.
-/

namespace TeamRouting.Decimal

open Float.Model Float.Model.UnpackedFloat

/-! ## Rounding within bounds -/

/-- A float that is zero, or finite with a mantissa of `k` bits and an exponent of at most `b`. -/
inductive Bounded (k : Nat) (b : Int) : UnpackedFloat → Prop
  | zero (s : Sign) : Bounded k b (.zero s)
  | finite {m : Nat} {e : Int} (s : Sign) (hpos : 0 < m) (hm : m < 2 ^ k) (he : e ≤ b) :
      Bounded k b (.finite s m e hpos)

variable {k l m : Nat} {b c e : Int} {u v : UnpackedFloat}

theorem Bounded.mono (hu : Bounded k b u) (hk : k ≤ l) (hb : b ≤ c) : Bounded l c u := by
  cases hu with
  | zero s => exact .zero s
  | finite s hpos hm he =>
      have hpow : 2 ^ k ≤ 2 ^ l := Nat.pow_le_pow_right (by decide) hk
      exact .finite s hpos (Nat.lt_of_lt_of_le hm hpow) (Int.le_trans he hb)

theorem mantissa_shiftRight_le (em : ExtendedMantissa) (n : Nat) :
    (em >>> n).mantissa ≤ em.mantissa := by
  induction n with
  | zero => exact Nat.le_refl _
  | succ n ih =>
      show (em >>> n).mantissa / 2 ≤ em.mantissa
      omega

theorem mantissa_ofMantissaAndAccuracy (m : Nat) (acc : Accuracy) :
    (ExtendedMantissa.ofMantissaAndAccuracy m acc).mantissa = m := by
  rcases acc with _ | ⟨_ | _ | _⟩ <;> rfl

theorem roundedMantissa_le (em : ExtendedMantissa) : em.roundedMantissa ≤ em.mantissa + 1 := by
  obtain ⟨m, round, sticky⟩ := em
  cases round <;> cases sticky
  · exact Nat.le_succ m
  · exact Nat.le_succ m
  · show m + m % 2 ≤ m + 1
    omega
  · exact Nat.le_refl _

/-- Shifting a mantissa to its place makes it no larger, and the exponent no larger than the
mantissa has bits. -/
theorem shiftToTargetExponent_bounds (acc : Accuracy) (hm : m < 2 ^ k) (he : e ≤ c)
    (hc : -1074 ≤ c) :
    (shiftToTargetExponent Format.binary64 m e acc).1.mantissa ≤ m ∧
      (shiftToTargetExponent Format.binary64 m e acc).2 ≤ c + k := by
  have hlog : m.log2 ≤ k := by
    by_cases h0 : m = 0
    · simp [h0]
    · exact Nat.le_of_lt ((Nat.log2_lt h0).2 hm)
  have htarget : Format.binary64.targetExponent (totalExponent m e)
      = max ((m.log2 : Int) + 1 + e - 53) (-1074) := rfl
  constructor
  · refine Nat.le_trans (mantissa_shiftRight_le _ _) ?_
    rw [mantissa_ofMantissaAndAccuracy]
  · show e + ((Format.binary64.targetExponent (totalExponent m e) - e).toNat : Int) ≤ c + k
    rw [htarget]
    omega

/-- **Rounding stays within bounds.**  The mantissa may grow by one, which is why it is shifted
twice; each shift adds to the exponent at most what the mantissa has bits. -/
theorem bounded_roundWithAccuracy (s : Sign) (acc : Accuracy) (hm : m < 2 ^ k) (he : e ≤ c)
    (hc : -1074 ≤ c) :
    Bounded (k + 1) (c + k + (k + 1)) (roundWithAccuracy Format.binary64 s m e acc) := by
  obtain ⟨hm₁, he₁⟩ := shiftToTargetExponent_bounds acc hm he hc
  unfold roundWithAccuracy
  generalize shiftToTargetExponent Format.binary64 m e acc = p at hm₁ he₁
  obtain ⟨em₁, e₁⟩ := p
  have hrounded : em₁.roundedMantissa < 2 ^ (k + 1) := by
    have hle := roundedMantissa_le em₁
    have hdouble : 2 ^ (k + 1) = 2 ^ k + 2 ^ k := by ring
    simp only at hm₁
    omega
  obtain ⟨hm₂, he₂⟩ := shiftToTargetExponent_bounds .exact hrounded he₁ (by omega)
  dsimp only
  generalize shiftToTargetExponent Format.binary64 em₁.roundedMantissa e₁ .exact = q at hm₂ he₂ ⊢
  obtain ⟨em₂, e₂⟩ := q
  dsimp only at hm₂ he₂ ⊢
  by_cases h0 : em₂.mantissa = 0
  · rw [dif_pos h0]
    exact .zero s
  · rw [dif_neg h0]
    refine .finite s _ (Nat.lt_of_le_of_lt hm₂ hrounded) ?_
    push_cast at he₂
    omega

theorem bounded_round (s : Sign) (hm : m < 2 ^ k) :
    Bounded (k + 53) (k + 52 + (k + 53)) (UnpackedFloat.round Format.binary64 s m 0) := by
  have htarget : Format.binary64.targetExponent (totalExponent m 0)
      = max ((m.log2 : Int) + 1 + 0 - 53) (-1074) := rfl
  unfold UnpackedFloat.round decreaseExponent
  rw [htarget]
  dsimp only
  generalize hshift : (0 - max ((m.log2 : Int) + 1 + 0 - 53) (-1074)).toNat = shift
  have hshift' : shift ≤ 52 := by omega
  have hmm : m <<< shift < 2 ^ (k + 52) := by
    rw [Nat.shiftLeft_eq, Nat.pow_add]
    calc m * 2 ^ shift ≤ m * 2 ^ 52 :=
          Nat.mul_le_mul_left m (Nat.pow_le_pow_right (by decide) hshift')
      _ < 2 ^ k * 2 ^ 52 := Nat.mul_lt_mul_of_pos_right hm (by decide)
  have he : 0 - (shift : Int) ≤ 0 := by omega
  refine (bounded_roundWithAccuracy s .exact hmm he (by decide)).mono (Nat.le_refl _) ?_
  push_cast
  omega

theorem Bounded.mul (hu : Bounded k b u) (hv : Bounded l c v) (hbc : -1074 ≤ b + c) :
    Bounded (k + l + 1) (b + c + (k + l) + (k + l + 1))
      (UnpackedFloat.mul Format.binary64 u v) := by
  cases hu with
  | zero s =>
      cases hv with
      | zero s' => exact .zero (s * s')
      | finite s' hpos' hm' he' => exact .zero (s * s')
  | finite s hpos hm he =>
      cases hv with
      | zero s' => exact .zero (s * s')
      | finite s' hpos' hm' he' =>
          have hmm := Nat.mul_lt_mul'' hm hm'
          rw [← Nat.pow_add] at hmm
          have hround := bounded_roundWithAccuracy (s * s') .exact hmm (Int.add_le_add he he') hbc
          push_cast at hround
          exact hround

theorem Bounded.neg (hu : Bounded k b u) : Bounded k b u.neg := by
  cases hu with
  | zero s => exact .zero (-s)
  | finite s hpos hm he => exact .finite (-s) hpos hm he

/-! ## Packing within bounds -/

/-- Bits whose exponent is not that of the infinities are a float within bounds. -/
theorem bounded_unpack (s : Sign) (E : BitVec 11) (M : BitVec 52) (hE : E ≠ -1#11)
    (hlow : -1074 ≤ b) (hhigh : (E.toNat : Int) - 1075 ≤ b) :
    Bounded 53 b (UnpackedFloat.unpack Format.binary64 (packComponents Format.binary64 s E M)) := by
  have hexponent : unpackExponent (packComponents Format.binary64 s E M) = E :=
    unpackExponent_packComponents
  have hmantissa := (unpackMantissa (packComponents Format.binary64 s E M)).isLt
  unfold UnpackedFloat.unpack
  dsimp only
  rw [hexponent, if_neg hE]
  by_cases h0 : E = 0#11
  · rw [if_pos h0]
    by_cases hzero : unpackMantissa (packComponents Format.binary64 s E M) = 0#52
    · rw [dif_pos hzero]
      exact .zero _
    · rw [dif_neg hzero]
      refine .finite _ _ (Nat.lt_trans hmantissa (by decide)) ?_
      rw [h0]
      exact hlow
  · rw [if_neg h0]
    exact .finite _ _ (1#1 ++ unpackMantissa (packComponents Format.binary64 s E M)).isLt hhigh

/-- **Packing stays within bounds**, as long as the exponent is not that of the infinities. -/
theorem bounded_unpack_pack (hu : Bounded k b u) (hlow : -1074 ≤ b) (hhigh : b ≤ 900) :
    Bounded 53 b (Float.Model.pack u).unpack := by
  show Bounded 53 b (UnpackedFloat.unpack Format.binary64 (UnpackedFloat.pack Format.binary64 u))
  cases hu with
  | zero s =>
      cases s
      · exact .zero .negative
      · exact .zero .positive
  | finite s hpos hm he =>
    rename_i m e
    have hbiased : (e + 1023 + 52).toNat < 2 ^ 11 - 1 := by omega
    have htoNat : (BitVec.ofNat 11 (e + 1023 + 52).toNat).toNat = (e + 1023 + 52).toNat := by
      rw [BitVec.toNat_ofNat, Nat.mod_eq_of_lt (by omega)]
    unfold UnpackedFloat.pack
    dsimp only
    split
    · next hover =>
      have hover' : 2 ^ 11 ≤ (e + 1023 + 52).toNat + 1 := hover
      omega
    · split
      · refine bounded_unpack s _ _ ?_ hlow ?_
        · intro h
          have h' : (BitVec.ofNat 11 (e + 1023 + 52).toNat).toNat = 2047 := congrArg BitVec.toNat h
          rw [htoNat] at h'
          omega
        · show ((BitVec.ofNat 11 (e + 1023 + 52).toNat).toNat : Int) - 1075 ≤ b
          rw [htoNat]
          omega
      · refine bounded_unpack s _ _ (by decide) hlow ?_
        show (0 : Int) - 1075 ≤ b
        omega

theorem Bounded.isFinite {x : Float} (hx : Bounded k b x.toModel.unpack) : x.isFinite = true := by
  show x.toModel.unpack.isFinite = true
  generalize x.toModel.unpack = u at hx
  cases hx with
  | zero s => rfl
  | finite s hpos hm he => rfl

/-! ## Whole numbers -/

theorem bounded_toUInt64 (hm : m < 2 ^ 64) :
    Bounded 53 250 m.toUInt64.toFloat.toModel.unpack := by
  have hnat : m.toUInt64.toNat = m := Nat.mod_eq_of_lt hm
  show Bounded 53 250 (Float.Model.pack (UnpackedFloat.normalize Format.binary64
    (m.toUInt64.toNat : Int) 0 .positive)).unpack
  rw [hnat]
  refine bounded_unpack_pack (k := 117) ?_ (by decide) (by decide)
  unfold UnpackedFloat.normalize
  rcases Nat.eq_zero_or_pos m with rfl | hpos
  · exact .zero .positive
  · have hgt : compare (m : Int) 0 = .gt := by
      rw [Int.compare_eq_gt]
      omega
    rw [hgt]
    exact (bounded_round .positive hm).mono (by decide) (by decide)

theorem bounded_ofScientific (hm : m < 2 ^ 64) :
    Bounded 119 200 (UnpackedFloat.ofScientific Format.binary64 m 0) := by
  unfold UnpackedFloat.ofScientific
  by_cases h0 : m = 0
  · rw [dif_pos h0]
    exact .zero .positive
  · have hlow : ¬ (0 : Int) < -((2 ^ Format.binary64.exponentBits : Int) + m.log2) := by
      have hbits : (2 ^ Format.binary64.exponentBits : Int) = 2048 := rfl
      omega
    rw [dif_neg h0, if_neg (by decide), if_neg hlow, if_pos (by decide)]
    have hleft : Bounded 117 (-53) (.finite .positive (m <<< 53) (-53) (by omega)) := by
      refine .finite _ _ ?_ (Int.le_refl _)
      rw [Nat.shiftLeft_eq]
      omega
    have hright : Bounded 1 0 (.finite .positive 1 0 (by decide)) :=
      .finite _ _ (by decide) (Int.le_refl _)
    exact (hleft.mul hright (by decide)).mono (by decide) (by decide)

theorem unpack_one : (Float.ofBits 0x3FF0000000000000).toModel.unpack
    = .finite .positive (2 ^ 52) (-52) (by decide) := rfl

/-- **Whole numbers of 64 bits are finite floats.**  Small ones are multiplied by one, large ones
are rounded. -/
theorem bounded_toFloat (hm : m < 2 ^ 64) : Bounded 53 900 (toFloat m 0).toModel.unpack := by
  unfold toFloat
  split
  · exact .zero .positive
  · rw [if_neg (by decide), if_neg (by omega)]
    show Bounded 53 900 (Float.ofScientific m false 0).toModel.unpack
    unfold Float.ofScientific
    split
    · have hone : Bounded 53 (-52) (Float.ofBits 0x3FF0000000000000).toModel.unpack := by
        rw [unpack_one]
        exact .finite _ _ (by decide) (Int.le_refl _)
      have hmul := (bounded_toUInt64 hm).mul hone (by decide)
      exact (bounded_unpack_pack hmul (by decide) (by decide)).mono (by decide) (by decide)
    · have hround := bounded_ofScientific hm
      exact (bounded_unpack_pack hround (by decide) (by decide)).mono (by decide) (by decide)

theorem bounded_neg_toFloat (hm : m < 2 ^ 64) : Bounded 53 900 (-toFloat m 0).toModel.unpack :=
  bounded_unpack_pack (bounded_toFloat hm).neg (by decide) (by decide)

/-! ## The two zeros -/

/-- Two floats that are equal, or are both zeros. -/
def SameNumber (x y : Float) : Prop :=
  x = y ∨ ∃ s t, x.toModel.unpack = .zero s ∧ y.toModel.unpack = .zero t

theorem sameNumber_neg_zero : SameNumber (-toFloat 0 0) (toFloat 0 0) :=
  Or.inr ⟨.negative, .positive, rfl, rfl⟩

theorem compare_zero_left (s t : Sign) (u : UnpackedFloat) :
    UnpackedFloat.compare (.zero s) u = UnpackedFloat.compare (.zero t) u := by
  rcases u with s' | _ | s' | ⟨s', m, e, hpos⟩
  · cases s' <;> rfl
  · rfl
  · rfl
  · cases s' <;> rfl

theorem compare_zero_right (s t : Sign) (u : UnpackedFloat) :
    UnpackedFloat.compare u (.zero s) = UnpackedFloat.compare u (.zero t) := by
  rcases u with s' | _ | s' | ⟨s', m, e, hpos⟩
  · cases s' <;> rfl
  · rfl
  · rfl
  · cases s' <;> rfl

/-- The difference to a zero has a sign only if it is a zero itself, and its absolute value has
none. -/
theorem abs_sub_zero (s t : Sign) (u : UnpackedFloat) :
    (Float.Model.pack (UnpackedFloat.sub Format.binary64 u (.zero s))).unpack.abs
      = (Float.Model.pack (UnpackedFloat.sub Format.binary64 u (.zero t))).unpack.abs := by
  rcases u with s' | _ | s' | ⟨s', m, e, hpos⟩
  · rfl
  · rfl
  · cases s' <;> cases s <;> cases t <;> rfl
  · rfl

namespace SameNumber

variable {x y : Float}

theorem nearlyEqual_right (h : SameNumber x y) (z : Float) : nearlyEqual z x = nearlyEqual z y := by
  rcases h with rfl | ⟨s, t, hx, hy⟩
  · rfl
  · have habs : (z - x).abs = (z - y).abs := by
      show Float.ofModel (.pack (Float.Model.pack
          (UnpackedFloat.sub Format.binary64 z.toModel.unpack x.toModel.unpack)).unpack.abs)
        = Float.ofModel (.pack (Float.Model.pack
          (UnpackedFloat.sub Format.binary64 z.toModel.unpack y.toModel.unpack)).unpack.abs)
      rw [hx, hy, abs_sub_zero s t]
    rw [nearlyEqual, nearlyEqual, habs]

theorem compare_left (h : SameNumber x y) (u : UnpackedFloat) :
    x.toModel.unpack.compare u = y.toModel.unpack.compare u := by
  rcases h with rfl | ⟨s, t, hx, hy⟩
  · rfl
  · rw [hx, hy, compare_zero_left s t]

theorem compare_right (h : SameNumber x y) (u : UnpackedFloat) :
    u.compare x.toModel.unpack = u.compare y.toModel.unpack := by
  rcases h with rfl | ⟨s, t, hx, hy⟩
  · rfl
  · rw [hx, hy, compare_zero_right s t]

theorem lt_left (h : SameNumber x y) (z : Float) : x < z ↔ y < z := by
  show decide (UnpackedFloat.lt _ _ = true) = true ↔ decide (UnpackedFloat.lt _ _ = true) = true
  rw [UnpackedFloat.lt, UnpackedFloat.lt, h.compare_left]

theorem lt_right (h : SameNumber x y) (z : Float) : z < x ↔ z < y := by
  show decide (UnpackedFloat.lt _ _ = true) = true ↔ decide (UnpackedFloat.lt _ _ = true) = true
  rw [UnpackedFloat.lt, UnpackedFloat.lt, h.compare_right]

theorem le_left (h : SameNumber x y) (z : Float) : x ≤ z ↔ y ≤ z := by
  show decide (UnpackedFloat.le _ _ = true) = true ↔ decide (UnpackedFloat.le _ _ = true) = true
  rw [UnpackedFloat.le, UnpackedFloat.le, h.compare_left]

theorem le_right (h : SameNumber x y) (z : Float) : z ≤ x ↔ z ≤ y := by
  show decide (UnpackedFloat.le _ _ = true) = true ↔ decide (UnpackedFloat.le _ _ = true) = true
  rw [UnpackedFloat.le, UnpackedFloat.le, h.compare_right]

end SameNumber

/-! ## Floats that are equal to themselves -/

theorem nearlyEqual_of_unpack {x y : Float} {u : UnpackedFloat}
    (h : UnpackedFloat.sub Format.binary64 x.toModel.unpack y.toModel.unpack = u) :
    nearlyEqual x y =
      decide (Float.ofModel (.pack (Float.Model.pack u).unpack.abs) < tolerance) := by
  rw [← h]
  rfl

/-- A finite float counts as equal to itself. -/
theorem nearlyEqual_self {x : Float} (finite : x.isFinite = true) : nearlyEqual x x = true := by
  have hfinite : x.toModel.unpack.isFinite = true := finite
  have hsub : ∃ s,
      UnpackedFloat.sub Format.binary64 x.toModel.unpack x.toModel.unpack = .zero s := by
    generalize x.toModel.unpack = u at hfinite
    cases u with
    | infinity s => cases hfinite
    | notANumber => cases hfinite
    | zero s => cases s <;> exact ⟨_, rfl⟩
    | finite s m e pos =>
        have hzero : ∀ n : ℤ, UnpackedFloat.normalize Format.binary64 (n - n) (min e e) .positive =
            .zero .positive := by
          intro n
          rw [Int.sub_self]
          rfl
        exact ⟨.positive, hzero _⟩
  obtain ⟨s, hs⟩ := hsub
  rw [nearlyEqual_of_unpack hs]
  cases s <;> decide

/-- A float that is not finite counts as equal to nothing. -/
theorem nearlyEqual_of_nonFinite {x : Float} (nonFinite : x.isFinite = false) (y : Float) :
    nearlyEqual y x = false := by
  have hnonFinite : x.toModel.unpack.isFinite = false := nonFinite
  have hsub : UnpackedFloat.sub Format.binary64 y.toModel.unpack x.toModel.unpack = .notANumber ∨
      ∃ s, UnpackedFloat.sub Format.binary64 y.toModel.unpack x.toModel.unpack = .infinity s := by
    generalize x.toModel.unpack = u at hnonFinite
    generalize y.toModel.unpack = v
    cases u with
    | notANumber => cases v <;> exact Or.inl rfl
    | infinity s =>
        cases v with
        | notANumber => exact Or.inl rfl
        | infinity t => cases s <;> cases t <;> first | exact Or.inl rfl | exact Or.inr ⟨_, rfl⟩
        | zero t => exact Or.inr ⟨_, rfl⟩
        | finite t m e pos => exact Or.inr ⟨_, rfl⟩
    | zero s => cases hnonFinite
    | finite s m e pos => cases hnonFinite
  rcases hsub with hs | ⟨s, hs⟩
  · rw [nearlyEqual_of_unpack hs]
    decide
  · rw [nearlyEqual_of_unpack hs]
    cases s <;> decide

end TeamRouting.Decimal
