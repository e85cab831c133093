import Mathlib.Algebra.Order.Field.Power
import Mathlib.Tactic.FieldSimp
import Mathlib.Tactic.Linarith
import Mathlib.Tactic.NormNum
import TeamRouting.Proofs.Floats

/-!
# Rounding to the nearest float

A float is a mantissa of up to 53 bits times a power of two.  A number rounds to one if it lies at
most half a unit of the mantissa from it, and at half a unit if the mantissa is even; just below a
power of two the units are half as large, and so is the distance.  Rounding shifts a mantissa to
its place, bit by bit, and keeps two more bits of what falls out.  These tell on which side of the
half-way mark the number lies, which is all that rounding needs.

* `Locates` — what a mantissa and its two further bits tell about a number;
* `RoundsTo`, `RoundsTo.mono` — the whole number nearest to a number, with ties to even;
* `IsCanonical` — a mantissa and an exponent as floats have them;
* `RoundsToFloat` — the numbers that round to a float;
* `roundWithAccuracy_eq` — a number that rounds to a float is rounded to it;
* `mul_eq_of_roundsToFloat`, `div_eq_of_roundsToFloat` — so are products and quotients.
-/

namespace TeamRouting.Decimal

open Float.Model Float.Model.UnpackedFloat

/-! ## Bits that fall out -/

/-- What a mantissa with a round bit and a sticky bit tells about a number: it is the mantissa
itself, lies below the middle to the next one, in the middle, or above it. -/
def Locates (em : ExtendedMantissa) (q : ℚ) : Prop :=
  match em.roundBit, em.stickyBit with
  | false, false => q = em.mantissa
  | false, true => em.mantissa < q ∧ q < em.mantissa + 1 / 2
  | true, false => q = em.mantissa + 1 / 2
  | true, true => em.mantissa + 1 / 2 < q ∧ q < em.mantissa + 1

namespace Locates

variable {em : ExtendedMantissa} {q : ℚ}

theorem exact (m : ℕ) : Locates (ExtendedMantissa.ofMantissaAndAccuracy m .exact) m := rfl

/-- The number lies between the mantissa and the next one. -/
theorem bounds (h : Locates em q) : em.mantissa ≤ q ∧ q < em.mantissa + 1 := by
  obtain ⟨m, round, sticky⟩ := em
  cases round <;> cases sticky <;> simp only [Locates] at h ⊢ <;> constructor <;> linarith

/-- **One more bit falls out.**  It becomes the round bit, and the old round bit joins the sticky
one. -/
theorem shiftRightOne (h : Locates em q) : Locates em.shiftRightOne (q / 2) := by
  obtain ⟨m, round, sticky⟩ := em
  have hsplit : (m : ℚ) = 2 * (m / 2 : ℕ) + (m % 2 : ℕ) := by
    exact_mod_cast (Nat.div_add_mod m 2).symm
  rcases Nat.mod_two_eq_zero_or_one m with hbit | hbit
  · have hround : (m % 2 != 0) = false := by rw [hbit]; rfl
    rw [hbit, Nat.cast_zero] at hsplit
    cases round <;> cases sticky <;>
      simp only [Locates, ExtendedMantissa.shiftRightOne, hround, Bool.or_false,
        Bool.or_true] at h ⊢
    all_goals first | linarith | constructor <;> linarith
  · have hround : (m % 2 != 0) = true := by rw [hbit]; rfl
    rw [hbit, Nat.cast_one] at hsplit
    cases round <;> cases sticky <;>
      simp only [Locates, ExtendedMantissa.shiftRightOne, hround, Bool.or_false,
        Bool.or_true] at h ⊢
    all_goals first | linarith | constructor <;> linarith

theorem shiftRight (h : Locates em q) (n : ℕ) : Locates (em >>> n) (q / 2 ^ n) := by
  induction n with
  | zero => rwa [pow_zero, div_one]
  | succ n ih =>
      rw [pow_succ, ← div_div]
      exact ih.shiftRightOne

end Locates

/-! ## The nearest whole number -/

/-- A number that rounds to a whole number: it lies at most a half from it, and at a half only if
that is even. -/
structure RoundsTo (q : ℚ) (n : ℕ) : Prop where
  low : n - 1 / 2 ≤ q
  high : q ≤ n + 1 / 2
  tie : q = n - 1 / 2 ∨ q = n + 1 / 2 → n % 2 = 0

/-- **Rounding keeps the order.** -/
theorem RoundsTo.mono {q r : ℚ} {m n : ℕ} (hm : RoundsTo q m) (hn : RoundsTo r n) (hle : q ≤ r) :
    m ≤ n := by
  by_contra hlt
  have hsucc : n + 1 ≤ m := Nat.lt_of_not_le hlt
  have hsucc' : (n : ℚ) + 1 ≤ m := by exact_mod_cast hsucc
  -- the numbers lie at most a half from neighbours in the wrong order, so they are in the middle
  have hmid : (m : ℚ) = n + 1 := by linarith [hm.low, hn.high]
  have hnext : m = n + 1 := by exact_mod_cast hmid
  have heven := hm.tie (Or.inl (by linarith [hm.low, hn.high]))
  have heven' := hn.tie (Or.inr (by linarith [hm.low, hn.high]))
  omega

/-- **A number rounds to one whole number.** -/
theorem RoundsTo.unique {q : ℚ} {m n : ℕ} (hm : RoundsTo q m) (hn : RoundsTo q n) : m = n :=
  Nat.le_antisymm (hm.mono hn le_rfl) (hn.mono hm le_rfl)

theorem roundsTo_of_lt {q : ℚ} {n : ℕ} (hlow : n - 1 / 2 < q) (hhigh : q < n + 1 / 2) :
    RoundsTo q n := by
  refine ⟨hlow.le, hhigh.le, ?_⟩
  rintro (rfl | rfl)
  · exact absurd hlow (lt_irrefl _)
  · exact absurd hhigh (lt_irrefl _)

theorem roundsTo_self (n : ℕ) : RoundsTo n n := roundsTo_of_lt (by linarith) (by linarith)

/-- **A mantissa is rounded to the nearest whole number.** -/
theorem Locates.roundsTo {em : ExtendedMantissa} {q : ℚ} (h : Locates em q) :
    RoundsTo q em.roundedMantissa := by
  obtain ⟨m, round, sticky⟩ := em
  cases round <;> cases sticky
  case false.false =>
    have hq : q = m := h
    exact roundsTo_of_lt (n := m) (by linarith) (by linarith)
  case false.true =>
    obtain ⟨hlow, hhigh⟩ : (m : ℚ) < q ∧ q < m + 1 / 2 := h
    exact roundsTo_of_lt (n := m) (by linarith) hhigh
  case true.false =>
    have hq : q = m + 1 / 2 := h
    show RoundsTo q (m + m % 2)
    rcases Nat.mod_two_eq_zero_or_one m with heven | hodd
    · rw [heven, Nat.add_zero]
      exact ⟨by linarith, hq.le, fun _ => heven⟩
    · rw [hodd]
      refine ⟨?_, ?_, fun _ => by omega⟩ <;> push_cast <;> linarith
  case true.true =>
    obtain ⟨hlow, hhigh⟩ : (m : ℚ) + 1 / 2 < q ∧ q < m + 1 := h
    refine roundsTo_of_lt (n := m + 1) ?_ ?_ <;> push_cast <;> linarith

/-! ## Places of a mantissa -/

/-- A mantissa and an exponent as finite floats other than zero have them: 53 bits, or less at the
lowest exponent. -/
structure IsCanonical (m : ℕ) (e : ℤ) : Prop where
  pos : 0 < m
  small : m < 2 ^ 53
  low : -1074 ≤ e
  full : 2 ^ 52 ≤ m ∨ e = -1074

/-- The exponent that rounding gives to a mantissa. -/
theorem targetExponent_eq (m : ℕ) (e : ℤ) :
    Format.binary64.targetExponent (totalExponent m e) = max (m.log2 + e - 52) (-1074) := by
  show max ((m.log2 : ℤ) + 1 + e - 53) (-1074) = _
  congr 1
  omega

theorem log2_le_of_lt {m k : ℕ} (h : m < 2 ^ (k + 1)) : m.log2 ≤ k := by
  rcases Nat.eq_zero_or_pos m with rfl | hpos
  · exact Nat.zero_le k
  · exact Nat.le_of_lt_succ ((Nat.log2_lt hpos.ne').2 h)

theorem log2_shiftLeft {m : ℕ} (h : m ≠ 0) (k : ℕ) : (m <<< k).log2 = m.log2 + k := by
  have hlow := Nat.mul_le_mul_right (2 ^ k) (Nat.log2_self_le h)
  have hhigh := Nat.mul_lt_mul_of_pos_right (@Nat.lt_log2_self m) (Nat.two_pow_pos k)
  rw [← Nat.pow_add] at hlow hhigh
  rw [Nat.shiftLeft_eq, Nat.log2_eq_iff (Nat.mul_ne_zero h (Nat.two_pow_pos k).ne')]
  exact ⟨hlow, by rwa [Nat.add_right_comm]⟩

/-- A canonical mantissa is in its place. -/
theorem IsCanonical.targetExponent {m : ℕ} {e : ℤ} (c : IsCanonical m e) :
    Format.binary64.targetExponent (totalExponent m e) = e := by
  have hsmall : m.log2 ≤ 52 := log2_le_of_lt c.small
  have hfull : 2 ^ 52 ≤ m → 52 ≤ m.log2 := (Nat.le_log2 c.pos.ne').2
  have hlow := c.low
  have := c.full
  rw [targetExponent_eq]
  omega

/-- A mantissa that is in its place stays there. -/
theorem shiftToTargetExponent_of_isCanonical {m : ℕ} {e : ℤ} (c : IsCanonical m e) :
    shiftToTargetExponent Format.binary64 m e .exact = (⟨m, false, false⟩, e) := by
  rw [shiftToTargetExponent, c.targetExponent, shiftToExponent, Int.sub_self]
  exact congrArg _ (Int.add_zero e)

/-- A mantissa that rounding has made one bit longer is shifted back. -/
theorem shiftToTargetExponent_of_overflow {e : ℤ} (low : -1074 ≤ e) :
    shiftToTargetExponent Format.binary64 (2 ^ 53) e .exact =
      (⟨2 ^ 52, false, false⟩, e + 1) := by
  have hlog : (2 ^ 53).log2 = 53 := Nat.log2_two_pow
  have htarget : max (((2 ^ 53).log2 : ℤ) + e - 52) (-1074) = e + 1 := by
    rw [hlog]
    omega
  have hone : (e + 1 - e).toNat = 1 := by omega
  rw [shiftToTargetExponent, targetExponent_eq, htarget, shiftToExponent, hone]
  rfl

/-! ## The nearest float -/

/-- A number that rounds to a float.  Just below a power of two the floats are twice as dense, so
that half a unit is a quarter of one above. -/
structure RoundsToFloat (q : ℚ) (m : ℕ) (e : ℤ) : Prop where
  nearest : RoundsTo (q / 2 ^ e) m
  dense : m = 2 ^ 52 → e ≠ -1074 → 2 ^ 52 - 1 / 4 ≤ q / 2 ^ e

variable {m m₀ : ℕ} {e e₀ : ℤ} {q : ℚ}

/-- A float rounds to itself. -/
theorem roundsToFloat_self (m : ℕ) (e : ℤ) : RoundsToFloat (m * 2 ^ e) m e := by
  have hself : (m * 2 ^ e : ℚ) / 2 ^ e = m := mul_div_cancel_right₀ _ (zpow_pos two_pos e).ne'
  constructor
  · rw [hself]
    exact roundsTo_self m
  · rintro rfl -
    rw [hself]
    norm_num

theorem two_zpow_add (k : ℕ) (e : ℤ) : (2 : ℚ) ^ (k + e) = 2 ^ k * 2 ^ e := by
  rw [zpow_add₀ two_ne_zero, zpow_natCast]

/-- Powers of two around a number, as its leading bits tell them. -/
theorem two_zpow_log2_le (pos : 0 < m) (hm : m ≤ q / 2 ^ e) : (2 : ℚ) ^ (m.log2 + e) ≤ q := by
  have hlog : (2 : ℚ) ^ m.log2 ≤ m := by exact_mod_cast Nat.log2_self_le pos.ne'
  rw [two_zpow_add, ← le_div_iff₀ (zpow_pos two_pos e)]
  exact hlog.trans hm

theorem lt_two_zpow_log2 (hm : q / 2 ^ e < m + 1) : q < (2 : ℚ) ^ ((m.log2 + 1 : ℕ) + e) := by
  have hlog : (m : ℚ) + 1 ≤ 2 ^ (m.log2 + 1) := by exact_mod_cast Nat.lt_log2_self
  rw [two_zpow_add, ← div_lt_iff₀ (zpow_pos two_pos e)]
  exact hm.trans_le hlog

/-- Powers of two around the numbers that round to a float. -/
theorem RoundsToFloat.lt_two_zpow (c : IsCanonical m₀ e₀) (h : RoundsToFloat q m₀ e₀) :
    q < (2 : ℚ) ^ ((53 : ℕ) + e₀) := by
  have hsmall : (m₀ : ℚ) + 1 ≤ 2 ^ 53 := by exact_mod_cast c.small
  rw [two_zpow_add, ← div_lt_iff₀ (zpow_pos two_pos e₀)]
  linarith [h.nearest.high]

theorem RoundsToFloat.two_zpow_le (c : IsCanonical m₀ e₀) (h : RoundsToFloat q m₀ e₀)
    (normal : e₀ ≠ -1074) : (2 : ℚ) ^ ((51 : ℕ) + e₀) ≤ q := by
  have hfull : (2 : ℚ) ^ 52 ≤ m₀ := by exact_mod_cast c.full.resolve_right normal
  rw [two_zpow_add, ← le_div_iff₀ (zpow_pos two_pos e₀)]
  linarith [h.nearest.low]

theorem RoundsToFloat.two_zpow_sub_one_le (c : IsCanonical m₀ e₀) (h : RoundsToFloat q m₀ e₀) :
    (2 : ℚ) ^ (e₀ - 1) ≤ q := by
  have hpos : (1 : ℚ) ≤ m₀ := by exact_mod_cast c.pos
  rw [zpow_sub_one₀ two_ne_zero, mul_comm, ← le_div_iff₀ (zpow_pos two_pos e₀)]
  linarith [h.nearest.low]

/-- Only below a power of two a number can have one bit less than the float that it rounds to. -/
theorem RoundsToFloat.two_zpow_le_or (c : IsCanonical m₀ e₀) (h : RoundsToFloat q m₀ e₀)
    (normal : e₀ ≠ -1074) :
    (2 : ℚ) ^ ((52 : ℕ) + e₀) ≤ q ∨ m₀ = 2 ^ 52 ∧ q < 2 ^ ((52 : ℕ) + e₀) := by
  have hfull : 2 ^ 52 ≤ m₀ := c.full.resolve_right normal
  rw [two_zpow_add, ← le_div_iff₀ (zpow_pos two_pos e₀), ← div_lt_iff₀ (zpow_pos two_pos e₀)]
  rcases le_or_gt ((2 : ℚ) ^ 52) (q / 2 ^ e₀) with hle | hlt
  · exact Or.inl hle
  · refine Or.inr ⟨?_, hlt⟩
    have hm₀ : (m₀ : ℚ) < (2 ^ 52 : ℕ) + 1 := by
      push_cast
      linarith [h.nearest.low]
    have hm₀' : m₀ < 2 ^ 52 + 1 := by exact_mod_cast hm₀
    omega

/-- **Where rounding puts a mantissa.**  That is the place of the float that the number rounds to,
or one below if the number lies just below a power of two. -/
theorem place_of_roundsToFloat (c : IsCanonical m₀ e₀) (h : RoundsToFloat q m₀ e₀)
    (hm : m ≤ q / 2 ^ e ∧ q / 2 ^ e < m + 1)
    (room : e ≤ max (m.log2 + e - 52) (-1074)) :
    max (m.log2 + e - 52) (-1074) = e₀ ∨
      e₀ ≠ -1074 ∧ max (m.log2 + e - 52) (-1074) = e₀ - 1 ∧ m₀ = 2 ^ 52 ∧
        q < 2 ^ ((52 : ℕ) + e₀) := by
  have order : ∀ {a b : ℤ}, (2 : ℚ) ^ a < 2 ^ b → a < b := (zpow_lt_zpow_iff_right₀ one_lt_two).1
  have hlow := c.low
  have habove := lt_two_zpow_log2 hm.2
  -- the place is not above that of the float
  have hupper : m = 0 ∨ (m.log2 : ℤ) + e < (53 : ℕ) + e₀ := by
    rcases Nat.eq_zero_or_pos m with rfl | pos
    · exact Or.inl rfl
    · exact Or.inr (order ((two_zpow_log2_le pos hm.1).trans_lt (h.lt_two_zpow c)))
  have hzero : m = 0 → m.log2 = 0 := by
    rintro rfl
    rfl
  by_cases normal : e₀ = -1074
  · left
    omega
  · have hlower := order ((h.two_zpow_le c normal).trans_lt habove)
    rcases h.two_zpow_le_or c normal with hle | ⟨hm₀, hlt⟩
    · have hlower' := order (hle.trans_lt habove)
      left
      omega
    · right
      have hupper' : m = 0 ∨ (m.log2 : ℤ) + e < (52 : ℕ) + e₀ := by
        rcases Nat.eq_zero_or_pos m with rfl | pos
        · exact Or.inl rfl
        · exact Or.inr (order ((two_zpow_log2_le pos hm.1).trans_lt hlt))
      refine ⟨normal, ?_, hm₀, hlt⟩
      omega

/-! ## Rounding -/

variable {acc : Accuracy} {n : ℕ} {e₁ : ℤ} {em : ExtendedMantissa}

theorem roundWithAccuracy_of_shifts (s : Sign) (pos : 0 < m₀)
    (hfirst : shiftToTargetExponent Format.binary64 m e acc = (em, e₁))
    (hrounded : em.roundedMantissa = n)
    (hsecond : shiftToTargetExponent Format.binary64 n e₁ .exact = (⟨m₀, false, false⟩, e₀)) :
    roundWithAccuracy Format.binary64 s m e acc = .finite s m₀ e₀ pos := by
  subst hrounded
  rw [roundWithAccuracy, hfirst]
  dsimp only
  rw [hsecond]
  exact dif_neg pos.ne'

theorem mantissa_le_of_locates (told : Locates (.ofMantissaAndAccuracy m acc) q) :
    m ≤ q ∧ q < m + 1 := by
  have h := told.bounds
  rwa [mantissa_ofMantissaAndAccuracy] at h

/-- **A number that rounds to a float is rounded to it**, as long as the mantissa has enough bits
to be shifted to its place. -/
theorem roundWithAccuracy_eq (s : Sign) (c : IsCanonical m₀ e₀)
    (told : Locates (.ofMantissaAndAccuracy m acc) (q / 2 ^ e))
    (room : e ≤ max (m.log2 + e - 52) (-1074)) (h : RoundsToFloat q m₀ e₀) :
    roundWithAccuracy Format.binary64 s m e acc = .finite s m₀ e₀ c.pos := by
  have hplace := place_of_roundsToFloat c h (mantissa_le_of_locates told) room
  generalize ht : max (m.log2 + e - 52) (-1074) = t at room hplace
  obtain ⟨k, rfl⟩ : ∃ k : ℕ, t = e + k := ⟨(t - e).toNat, by omega⟩
  have hfirst : shiftToTargetExponent Format.binary64 m e acc =
      (ExtendedMantissa.ofMantissaAndAccuracy m acc >>> k, e + k) := by
    have hk : (e + k - e).toNat = k := by omega
    rw [shiftToTargetExponent, targetExponent_eq, ht, shiftToExponent, hk]
  have hshifted : RoundsTo (q / 2 ^ (e + k))
      (ExtendedMantissa.ofMantissaAndAccuracy m acc >>> k).roundedMantissa := by
    have hplaced : q / 2 ^ (e + k) = q / 2 ^ e / 2 ^ k := by
      rw [zpow_add₀ two_ne_zero, zpow_natCast, div_div]
    rw [hplaced]
    exact (told.shiftRight k).roundsTo
  rcases hplace with hplace | ⟨normal, hplace, rfl, hlt⟩
  · rw [hplace] at hfirst hshifted
    exact roundWithAccuracy_of_shifts s c.pos hfirst (hshifted.unique h.nearest)
      (shiftToTargetExponent_of_isCanonical c)
  · -- the mantissa is rounded up to the power of two, and shifted once more
    have hpower : RoundsTo (q / 2 ^ (e + k)) (2 ^ 53) := by
      have hdouble : q / 2 ^ (e + k) = 2 * (q / 2 ^ e₀) := by
        rw [hplace, zpow_sub_one₀ two_ne_zero]
        field_simp
      have hdense := h.dense rfl normal
      rw [two_zpow_add, ← div_lt_iff₀ (zpow_pos two_pos e₀)] at hlt
      rw [hdouble]
      refine ⟨?_, ?_, fun _ => rfl⟩ <;> push_cast <;> linarith
    have hlow := c.low
    have hsecond := shiftToTargetExponent_of_overflow (e := e + k) (by omega)
    rw [hplace, Int.sub_add_cancel] at hsecond
    rw [hplace] at hfirst hshifted hpower
    exact roundWithAccuracy_of_shifts s c.pos hfirst (hshifted.unique hpower) hsecond

/-- **A whole number of units is rounded to the float that it rounds to.** -/
theorem round_eq_of_roundsToFloat (s : Sign) (pos : 0 < m) (c : IsCanonical m₀ e₀)
    (h : RoundsToFloat (m * 2 ^ e) m₀ e₀) :
    UnpackedFloat.round Format.binary64 s m e = .finite s m₀ e₀ c.pos := by
  rw [UnpackedFloat.round, targetExponent_eq]
  generalize ht : max ((m.log2 : ℤ) + e - 52) (-1074) = t
  rw [decreaseExponent]
  generalize hk : (e - t).toNat = k
  have hlog : (m <<< k).log2 = m.log2 + k := log2_shiftLeft pos.ne' k
  refine roundWithAccuracy_eq s c ?_ ?_ h
  · have hunits : (m * 2 ^ e : ℚ) / 2 ^ (e - k : ℤ) = (m <<< k : ℕ) := by
      rw [zpow_sub₀ two_ne_zero, zpow_natCast, Nat.shiftLeft_eq]
      push_cast
      field_simp
    rw [hunits]
    exact .exact _
  · rw [hlog]
    push_cast
    omega

/-! ## Products and quotients -/

variable {m₁ m₂ : ℕ} {e₂ : ℤ}

/-- **A product is rounded to the float that it rounds to**, if the factors have enough bits. -/
theorem mul_eq_of_roundsToFloat (s₁ s₂ : Sign) (pos₁ : 0 < m₁) (pos₂ : 0 < m₂)
    (c : IsCanonical m₀ e₀) (full : 2 ^ 52 ≤ m₁ * m₂)
    (h : RoundsToFloat (m₁ * 2 ^ e₁ * (m₂ * 2 ^ e₂)) m₀ e₀) :
    UnpackedFloat.mul Format.binary64 (.finite s₁ m₁ e₁ pos₁) (.finite s₂ m₂ e₂ pos₂) =
      .finite (s₁ * s₂) m₀ e₀ c.pos := by
  have hlog : 52 ≤ (m₁ * m₂).log2 := (Nat.le_log2 (Nat.mul_pos pos₁ pos₂).ne').2 full
  refine roundWithAccuracy_eq (s₁ * s₂) c ?_ (by omega) h
  have hmantissa : (m₁ * 2 ^ e₁ * (m₂ * 2 ^ e₂) : ℚ) / 2 ^ (e₁ + e₂) = (m₁ * m₂ : ℕ) := by
    rw [zpow_add₀ two_ne_zero]
    push_cast
    field_simp
  rw [hmantissa]
  exact .exact _

/-- A fraction below one tells where a number lies behind a mantissa. -/
theorem locates_fraction {r d : ℕ} (h : r < d) (k : ℕ) :
    Locates (.ofMantissaAndAccuracy k (accuracyOfFraction r d)) (k + (r : ℚ) / d) := by
  have hd : (0 : ℚ) < d := by exact_mod_cast Nat.zero_lt_of_lt h
  have hone : (r : ℚ) / d < 1 := (div_lt_one₀ hd).2 (by exact_mod_cast h)
  rw [accuracyOfFraction]
  rcases Nat.eq_zero_or_pos r with rfl | hr
  · show (k : ℚ) + (0 : ℕ) / d = k
    simp
  · have hr' : 0 < (r : ℚ) / d := div_pos (by exact_mod_cast hr) hd
    rw [if_neg hr.ne']
    rcases lt_trichotomy (2 * r) d with hlt | heq | hgt
    · have hhalf : (r : ℚ) / d < 1 / 2 := by
        have : (2 : ℚ) * r < d := by exact_mod_cast hlt
        rw [div_lt_div_iff₀ hd two_pos]
        linarith
      rw [Nat.compare_eq_lt.2 hlt]
      constructor <;> dsimp only [ExtendedMantissa.ofMantissaAndAccuracy] <;> linarith
    · have hhalf : (r : ℚ) / d = 1 / 2 := by
        have : (2 : ℚ) * r = d := by exact_mod_cast heq
        rw [div_eq_div_iff hd.ne' two_ne_zero]
        linarith
      rw [Nat.compare_eq_eq.2 heq, hhalf]
      rfl
    · have hhalf : 1 / 2 < (r : ℚ) / d := by
        have : (d : ℚ) < 2 * r := by exact_mod_cast hgt
        rw [div_lt_div_iff₀ two_pos hd]
        linarith
      rw [Nat.compare_eq_gt.2 hgt]
      constructor <;> dsimp only [ExtendedMantissa.ofMantissaAndAccuracy] <;> linarith

/-- A division with remainder tells where the quotient lies. -/
theorem locates_div {d : ℕ} (pos : 0 < d) (n : ℕ) :
    Locates (.ofMantissaAndAccuracy (n / d) (accuracyOfFraction (n % d) d)) ((n : ℚ) / d) := by
  have hd : (d : ℚ) ≠ 0 := by exact_mod_cast pos.ne'
  have hsplit : (n : ℚ) / d = (n / d : ℕ) + (n % d : ℕ) / d := by
    have h : (n : ℚ) = d * (n / d : ℕ) + (n % d : ℕ) := by exact_mod_cast (Nat.div_add_mod n d).symm
    rw [div_eq_iff hd, add_mul, div_mul_cancel₀ _ hd, mul_comm _ (d : ℚ)]
    exact h
  rw [hsplit]
  exact locates_fraction (Nat.mod_lt n pos) (n / d)

/-- A quotient has the bits by which the dividend is the longer one. -/
theorem le_log2_div {k b : ℕ} (pos₁ : 0 < m₁) (pos₂ : 0 < m₂)
    (h : b + 1 + m₂.log2 ≤ m₁.log2 + k) : b ≤ (m₁ <<< k / m₂).log2 := by
  have hfull : 2 ^ b ≤ m₁ <<< k / m₂ := by
    rw [Nat.le_div_iff_mul_le pos₂, Nat.shiftLeft_eq]
    calc 2 ^ b * m₂ ≤ 2 ^ b * 2 ^ (m₂.log2 + 1) := Nat.mul_le_mul_left _ Nat.lt_log2_self.le
      _ = 2 ^ (b + 1 + m₂.log2) := by
          rw [← Nat.pow_add]
          congr 1
          omega
      _ ≤ 2 ^ (m₁.log2 + k) := Nat.pow_le_pow_right two_pos h
      _ = 2 ^ m₁.log2 * 2 ^ k := Nat.pow_add 2 _ _
      _ ≤ m₁ * 2 ^ k := Nat.mul_le_mul_right _ (Nat.log2_self_le pos₁.ne')
  exact (Nat.le_log2 ((Nat.two_pow_pos b).trans_le hfull).ne').2 hfull

/-- **A quotient is rounded to the float that it rounds to.** -/
theorem div_eq_of_roundsToFloat (s₁ s₂ : Sign) (pos₁ : 0 < m₁) (pos₂ : 0 < m₂)
    (c : IsCanonical m₀ e₀) (h : RoundsToFloat (m₁ * 2 ^ e₁ / (m₂ * 2 ^ e₂)) m₀ e₀) :
    UnpackedFloat.div Format.binary64 (.finite s₁ m₁ e₁ pos₁) (.finite s₂ m₂ e₂ pos₂) =
      .finite (s₁ / s₂) m₀ e₀ c.pos := by
  have htarget : Format.binary64.targetExponent (totalExponent m₁ e₁ - totalExponent m₂ e₂) =
      max ((m₁.log2 : ℤ) + e₁ - (m₂.log2 + e₂) - 53) (-1074) := by
    show max (((m₁.log2 : ℤ) + 1 + e₁) - (m₂.log2 + 1 + e₂) - 53) (-1074) = _
    congr 1
    omega
  show roundWithAccuracy Format.binary64 (s₁ / s₂) (m₁ <<< _ / m₂) (min (e₁ - e₂) _)
    (accuracyOfFraction (m₁ <<< _ % m₂) m₂) = _
  rw [htarget]
  generalize ht : min (e₁ - e₂) (max ((m₁.log2 : ℤ) + e₁ - (m₂.log2 + e₂) - 53) (-1074)) = t
  obtain ⟨k, hk⟩ : ∃ k : ℕ, e₁ - e₂ = t + k := ⟨(e₁ - e₂ - t).toNat, by omega⟩
  have hshift : (e₁ - e₂ - t).toNat = k := by omega
  rw [hshift]
  refine roundWithAccuracy_eq (s₁ / s₂) c ?_ ?_ h
  · have hquotient : (m₁ * 2 ^ e₁ / (m₂ * 2 ^ e₂) : ℚ) / 2 ^ t = (m₁ <<< k : ℕ) / m₂ := by
      have he₁ : (2 : ℚ) ^ e₁ = 2 ^ e₂ * (2 ^ t * 2 ^ k) := by
        rw [← zpow_natCast, ← zpow_add₀ two_ne_zero, ← zpow_add₀ two_ne_zero]
        congr 1
        omega
      have hm₂ : (m₂ : ℚ) ≠ 0 := by exact_mod_cast pos₂.ne'
      rw [he₁, Nat.shiftLeft_eq]
      push_cast
      field_simp
    rw [hquotient]
    exact locates_div pos₂ _
  · -- unless the exponent is the lowest one, the quotient has enough bits
    rcases le_or_gt t (-1074) with hlow | hnormal
    · omega
    · have hbits : 52 ≤ (m₁ <<< k / m₂).log2 := le_log2_div pos₁ pos₂ (by omega)
      omega

end TeamRouting.Decimal
