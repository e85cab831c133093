import TeamRouting.Decimal.Shortest
import TeamRouting.Proofs.Rounding

/-!
# Floats and their bits

The 64 bits of a float are a sign, an exponent field and a mantissa field.  Unless the exponent
field has all its bits set, they stand for a finite float: its mantissa has a leading bit that is
not written down, or, with an exponent field of zero, none.

* `Encodes` — the fields of a mantissa and an exponent;
* `Encodes.isCanonical`, `exists_encodes` — these are the canonical ones up to the largest float;
* `Encodes.pack`, `Encodes.unpack` — packing writes the fields, and unpacking reads them;
* `unpack_pack_finite` — so a canonical float is the same when it is packed and unpacked;
* `exists_encodes_of_unpack` — and the bits of a float are the fields of what it unpacks to.
-/

namespace TeamRouting.Decimal

open Float.Model Float.Model.UnpackedFloat

/-! ## Fields -/

/-- The exponent field and the mantissa field of a finite float other than zero. -/
inductive Encodes (E : BitVec 11) (M : BitVec 52) : ℕ → ℤ → Prop
  | normal (finite : E ≠ -1#11) (lead : E ≠ 0#11) :
      Encodes E M (2 ^ 52 + M.toNat) (E.toNat - 1075)
  | subnormal (noLead : E = 0#11) (nonzero : M ≠ 0#52) : Encodes E M M.toNat (-1074)

variable {E : BitVec 11} {M : BitVec 52} {m : ℕ} {e : ℤ} {s : Sign}

theorem toNat_ne_of_ne {k : ℕ} {a b : BitVec k} (h : a ≠ b) : a.toNat ≠ b.toNat :=
  fun heq => h (BitVec.eq_of_toNat_eq heq)

theorem Encodes.isCanonical (h : Encodes E M m e) : IsCanonical m e := by
  have hM := M.isLt
  cases h with
  | normal finite lead =>
      have hE : E.toNat ≠ 0 := toNat_ne_of_ne lead
      exact ⟨by omega, by omega, by omega, Or.inl (by omega)⟩
  | subnormal noLead nonzero =>
      have hM' : M.toNat ≠ 0 := toNat_ne_of_ne nonzero
      exact ⟨by omega, by omega, by omega, Or.inr rfl⟩

theorem Encodes.le (h : Encodes E M m e) : e ≤ 971 := by
  cases h with
  | normal finite lead =>
      have hE : E.toNat ≠ 2047 := toNat_ne_of_ne finite
      have := E.isLt
      omega
  | subnormal noLead nonzero => decide

/-- **Canonical mantissas and exponents have fields**, up to the largest float. -/
theorem exists_encodes (c : IsCanonical m e) (he : e ≤ 971) : ∃ E M, Encodes E M m e := by
  have hlow := c.low
  have hsmall := c.small
  by_cases hlead : 2 ^ 52 ≤ m
  · have hE : (e + 1075).toNat < 2 ^ 11 := by omega
    have hM : m - 2 ^ 52 < 2 ^ 52 := by omega
    have finite : BitVec.ofNatLT _ hE ≠ -1#11 := by
      intro heq
      have : (e + 1075).toNat = 2047 := congrArg BitVec.toNat heq
      omega
    have lead : BitVec.ofNatLT _ hE ≠ 0#11 := by
      intro heq
      have : (e + 1075).toNat = 0 := congrArg BitVec.toNat heq
      omega
    have h : Encodes (.ofNatLT _ hE) (.ofNatLT _ hM) (2 ^ 52 + (m - 2 ^ 52))
        ((e + 1075).toNat - 1075) := .normal finite lead
    rw [Nat.add_sub_of_le hlead, Int.toNat_of_nonneg (by omega), Int.add_sub_cancel] at h
    exact ⟨_, _, h⟩
  · have hM : m < 2 ^ 52 := Nat.lt_of_not_le hlead
    have nonzero : BitVec.ofNatLT m hM ≠ 0#52 := fun heq =>
      c.pos.ne' (congrArg BitVec.toNat heq)
    rw [c.full.resolve_left hlead]
    exact ⟨_, _, .subnormal rfl nonzero⟩

/-! ## Packing -/

theorem lead_toNat (M : BitVec 52) : (1#1 ++ M).toNat = 2 ^ 52 + M.toNat := by
  rw [BitVec.toNat_append, ← Nat.shiftLeft_add_eq_or_of_lt M.isLt]
  rfl

theorem pack_finite (s : Sign) (pos : 0 < m) :
    UnpackedFloat.pack Format.binary64 (.finite s m e pos) =
      if 2 ^ 11 ≤ (e + 1023 + 52).toNat + 1 then packedInfinity Format.binary64 s
      else if m.log2 + 1 = 53 then
        packComponents Format.binary64 s (.ofNat 11 (e + 1023 + 52).toNat) (.ofNat 52 m)
      else packComponents Format.binary64 s 0#11 (.ofNat 52 m) := rfl

/-- **Packing writes the fields.** -/
theorem Encodes.pack (h : Encodes E M m e) (s : Sign) (pos : 0 < m) :
    UnpackedFloat.pack Format.binary64 (.finite s m e pos) =
      packComponents Format.binary64 s E M := by
  have hM := M.isLt
  have hE := E.isLt
  rw [pack_finite]
  cases h with
  | normal finite lead =>
      have hE1 : E.toNat ≠ 2047 := toNat_ne_of_ne finite
      have hbiased : ((E.toNat : ℤ) - 1075 + 1023 + 52).toNat = E.toNat := by omega
      have hlog : (2 ^ 52 + M.toNat).log2 = 52 := by
        rw [Nat.log2_eq_iff (by omega)]
        omega
      have hmantissa : BitVec.ofNat 52 (2 ^ 52 + M.toNat) = M := by
        apply BitVec.eq_of_toNat_eq
        rw [BitVec.toNat_ofNat]
        omega
      rw [hbiased, if_neg (by omega), hlog, if_pos rfl, hmantissa, BitVec.ofNat_toNat,
        BitVec.setWidth_eq]
  | subnormal noLead nonzero =>
      have hlog : M.toNat.log2 ≤ 51 := log2_le_of_lt hM
      rw [if_neg (by decide), if_neg (by omega), noLead, BitVec.ofNat_toNat, BitVec.setWidth_eq]

/-! ## Unpacking -/

theorem unpackSign_packComponents (s : Sign) (E : BitVec 11) (M : BitVec 52) :
    Sign.ofBitVec (unpackSign (packComponents Format.binary64 s E M)) = s := by
  unfold unpackSign packComponents BitVec.extractLsb
  rw [BitVec.extractLsb'_append_eq_of_le (by decide),
    BitVec.extractLsb'_append_eq_of_le (by decide)]
  cases s <;> rfl

theorem finite_congr {m' : ℕ} {e' : ℤ} {pos : 0 < m} {pos' : 0 < m'} (hm : m = m') (he : e = e') :
    UnpackedFloat.finite s m e pos = .finite s m' e' pos' := by
  subst hm he
  rfl

/-- **Unpacking reads the fields.** -/
theorem Encodes.unpack (h : Encodes E M m e) (s : Sign) (pos : 0 < m) :
    UnpackedFloat.unpack Format.binary64 (packComponents Format.binary64 s E M) =
      .finite s m e pos := by
  have hmantissa : unpackMantissa (packComponents Format.binary64 s E M) = M :=
    unpackMantissa_packComponents
  have hexponent : unpackExponent (packComponents Format.binary64 s E M) = E :=
    unpackExponent_packComponents
  unfold UnpackedFloat.unpack
  dsimp only
  rw [hexponent, unpackSign_packComponents]
  cases h with
  | normal finite lead =>
      rw [if_neg finite, if_neg lead]
      exact finite_congr (by rw [hmantissa, lead_toNat]) rfl
  | subnormal noLead nonzero =>
      subst noLead
      rw [if_neg (by decide), if_pos rfl, dif_neg (by rwa [hmantissa])]
      exact finite_congr (by rw [hmantissa]) rfl

/-- **A canonical float is the same when it is packed and unpacked.** -/
theorem unpack_pack_finite (c : IsCanonical m e) (he : e ≤ 971) (s : Sign) :
    (Float.Model.pack (.finite s m e c.pos)).unpack = .finite s m e c.pos := by
  obtain ⟨E, M, h⟩ := exists_encodes c he
  show UnpackedFloat.unpack _ (UnpackedFloat.pack _ _) = _
  rw [h.pack, h.unpack]

/-! ## The bits of a float -/

/-- Bits are their three fields. -/
theorem exists_packComponents (b : BitVec 64) :
    ∃ s E M, b = packComponents Format.binary64 s E M := by
  let b : BitVec Format.binary64.numBits := b
  refine ⟨Sign.ofBitVec (unpackSign b), unpackExponent b, unpackMantissa b, ?_⟩
  have hsign : (Sign.ofBitVec (unpackSign b)).toBitVec = unpackSign b := by
    generalize unpackSign b = v
    revert v
    decide
  rw [packComponents, hsign]
  unfold unpackSign unpackExponent unpackMantissa BitVec.extractLsb
  ext i hi
  grind

theorem toNat_packComponents (s : Sign) (E : BitVec 11) (M : BitVec 52) :
    (packComponents Format.binary64 s E M).toNat =
      s.toBitVec.toNat * 2 ^ 63 + E.toNat * 2 ^ 52 + M.toNat := by
  have hM := M.isLt
  have hE := E.isLt
  rw [packComponents, BitVec.toNat_append, ← Nat.shiftLeft_add_eq_or_of_lt hM,
    BitVec.toNat_append, ← Nat.shiftLeft_add_eq_or_of_lt hE, Nat.shiftLeft_eq, Nat.shiftLeft_eq]
  omega

/-- The bits of a finite float: a sign, and the fields of zero or of a mantissa and an exponent. -/
inductive HasFields (x : Float) : Prop
  | zero (s : Sign)
      (bits : x.toBits.toBitVec = packComponents Format.binary64 s 0#11 0#52) : HasFields x
  | finite (s : Sign) {E : BitVec 11} {M : BitVec 52} {m : ℕ} {e : ℤ} (fields : Encodes E M m e)
      (bits : x.toBits.toBitVec = packComponents Format.binary64 s E M) : HasFields x

theorem isFinite_unpack_of_all_ones (s : Sign) (M : BitVec 52) :
    (UnpackedFloat.unpack Format.binary64
      (packComponents Format.binary64 s (-1#11) M)).isFinite = false := by
  have hexponent : unpackExponent (packComponents Format.binary64 s (-1#11) M) = -1#11 :=
    unpackExponent_packComponents
  unfold UnpackedFloat.unpack
  dsimp only
  rw [hexponent, if_pos rfl]
  split <;> rfl

/-- **Every finite float has such bits.** -/
theorem hasFields_of_isFinite {x : Float} (finite : x.isFinite = true) : HasFields x := by
  obtain ⟨s, E, M, hbits⟩ := exists_packComponents x.toBits.toBitVec
  have hexponent : E ≠ -1#11 := by
    rintro rfl
    have hunpack : (UnpackedFloat.unpack Format.binary64 x.toBits.toBitVec).isFinite = true :=
      finite
    rw [hbits, isFinite_unpack_of_all_ones] at hunpack
    cases hunpack
  by_cases hE : E = 0#11
  · subst hE
    by_cases hM : M = 0#52
    · subst hM
      exact .zero s hbits
    · exact .finite s (.subnormal rfl hM) hbits
  · exact .finite s (.normal hexponent hE) hbits

/-! ## What the bits stand for -/

theorem eq_of_bits {x : Float} {u : UnpackedFloat}
    (h : x.toBits.toBitVec = UnpackedFloat.pack Format.binary64 u) :
    x = Float.ofModel (Float.Model.pack u) := by
  have hbits : x.toModel.toBits = (Float.Model.pack u).toBits := UInt64.eq_of_toBitVec_eq h
  obtain ⟨bits, valid⟩ := x
  exact congrArg Float.ofModel (by cases hbits; rfl)

end TeamRouting.Decimal
