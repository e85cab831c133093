import Mathlib.Data.List.TakeWhile
import TeamRouting.Proofs.Numerals
import TeamRouting.Proofs.ShortestDecimals
import TeamRouting.Scalar

/-!
# Texts of numbers

A number is set down in digits, with a point if it has a fraction and behind a sign if it is
negative.  Whatever its size there is no exponent, so that the text may be long, but it is easily
taken apart: what is read are the digits and the scale that were chosen for the number, though not
always split in the same way between the two.

* `PlainNumeral`, `PlainNumeral.magnitude?_eq` — digits and a point, and what they are read as;
* `exists_plainNumeral` — a decimal without exponent is one, and stands for the same number;
* `read?_asText` — the text of a finite float reads back as that float;
* `int64?_asText` — and that of a whole number as the whole number;
* `IsNumberText.bounds` — neither has letters or blanks.
-/

namespace TeamRouting.Decimal

open TeamRouting.Text Float.Model Float.Model.UnpackedFloat

/-! ## Plain numerals -/

/-- A numeral without sign and exponent: digits, with a point among them or without.  It stands for
digits and a scale. -/
inductive PlainNumeral : List Char → ℕ → ℤ → Prop
  | whole {cs : List Char} {n : ℕ} (digits : digits? cs = some n) : PlainNumeral cs n 0
  | point {cs ds : List Char} {n : ℕ} {e : ℤ} (lead : cs ≠ [])
      (whole : ∀ c ∈ cs, c.isDigit = true) (part : ∀ c ∈ ds, c.isDigit = true)
      (value : digitsValue (cs ++ ds) = n) (scale : e = -(ds.length : ℤ)) :
      PlainNumeral (cs ++ '.' :: ds) n e

namespace PlainNumeral

variable {cs : List Char} {n : ℕ} {e : ℤ}

theorem exists_digit (h : PlainNumeral cs n e) : ∃ c rest, cs = c :: rest ∧ c.isDigit = true := by
  cases h with
  | whole digits =>
      obtain ⟨hne, hall, -⟩ := digits?_eq_some_iff.1 digits
      obtain ⟨c, rest, rfl⟩ := List.exists_cons_of_ne_nil hne
      exact ⟨c, rest, rfl, hall c List.mem_cons_self⟩
  | point lead whole part value scale =>
      obtain ⟨c, rest, rfl⟩ := List.exists_cons_of_ne_nil lead
      exact ⟨c, _, List.cons_append, whole c List.mem_cons_self⟩

theorem isDigit_or (h : PlainNumeral cs n e) : ∀ c ∈ cs, c.isDigit = true ∨ c = '.' := by
  intro c hc
  cases h with
  | whole digits => exact Or.inl ((digits?_eq_some_iff.1 digits).2.1 c hc)
  | point lead whole part value scale =>
      rcases List.mem_append.1 hc with hc | hc
      · exact Or.inl (whole c hc)
      · rcases List.mem_cons.1 hc with rfl | hc
        · exact Or.inr rfl
        · exact Or.inl (part c hc)

/-- **A plain numeral is read as its digits and its scale.** -/
theorem magnitude?_eq (h : PlainNumeral cs n e) : magnitude? cs = some (toFloat n e) := by
  have hhead := h.exists_digit
  cases h with
  | whole digits => exact magnitude?_of_digits? digits
  | point lead whole part value scale =>
    rename_i cs ds
    have htake : (cs ++ '.' :: ds).takeWhile Char.isDigit = cs := by
      rw [List.takeWhile_append_of_pos whole, List.takeWhile_cons_of_neg (by decide),
        List.append_nil]
    have hdrop : (cs ++ '.' :: ds).dropWhile Char.isDigit = '.' :: ds := by
      rw [List.dropWhile_append_of_pos whole, List.dropWhile_cons_of_neg (by decide)]
    have hne : (cs ++ ds).isEmpty = false := by
      rw [List.isEmpty_eq_false_iff]
      exact List.append_ne_nil_of_left_ne_nil lead ds
    have hpart : ds.takeWhile Char.isDigit = ds ∧ ds.dropWhile Char.isDigit = [] :=
      ⟨List.takeWhile_eq_self_iff.2 part, List.dropWhile_eq_nil_iff.2 part⟩
    have hdigits : digitsNumeral? (cs ++ '.' :: ds) = some (toFloat n e) := by
      unfold digitsNumeral?
      rw [htake, hdrop]
      simp only [fraction, hpart.1, hpart.2, hne, value]
      show some (toFloat n (0 - (ds.length : ℤ))) = _
      rw [Int.zero_sub, scale]
    obtain ⟨c, rest, hcs, hc⟩ := hhead
    rw [magnitude?, hdigits, hcs, word?_of_isDigit hc, Option.none_or]

end PlainNumeral

/-! ## The digits of a decimal -/

theorem digitsValue_eq (cs : List Char) : digitsValue cs = Nat.ofDigitChars 10 cs 0 := by
  rw [Nat.ofDigitChars_eq_foldl]
  rfl

theorem digitsValue_toDigits (n : ℕ) : digitsValue (Nat.toDigits 10 n) = n := by
  rw [digitsValue_eq, Nat.ofDigitChars_ten_toDigits]

theorem isDigit_of_mem_toDigits {n : ℕ} : ∀ c ∈ Nat.toDigits 10 n, c.isDigit = true :=
  fun _ hc => Nat.isDigit_of_mem_toDigits (by decide) (by decide) hc

theorem digits?_toDigits (n : ℕ) : digits? (Nat.toDigits 10 n) = some n :=
  digits?_eq_some_iff.2 ⟨Nat.toDigits_ne_nil, isDigit_of_mem_toDigits, digitsValue_toDigits n⟩

theorem isDigit_of_mem_zeros {k : ℕ} : ∀ c ∈ List.replicate k '0', c.isDigit = true := by
  intro c hc
  rw [List.eq_of_mem_replicate hc]
  rfl

namespace PlainNumeral

variable {m k : ℕ}

/-- Zeros stand behind the digits. -/
theorem zeros_behind : PlainNumeral (Nat.toDigits 10 m ++ List.replicate k '0') (m * 10 ^ k) 0 := by
  refine .whole (digits?_eq_some_iff.2 ⟨?_, ?_, ?_⟩)
  · exact List.append_ne_nil_of_left_ne_nil Nat.toDigits_ne_nil _
  · exact List.forall_mem_append.2 ⟨isDigit_of_mem_toDigits, isDigit_of_mem_zeros⟩
  · rw [digitsValue_eq, Nat.ofDigitChars_append, Nat.ofDigitChars_ten_toDigits,
      Nat.ofDigitChars_replicate_zero, Nat.mul_comm]

/-- The point stands among the digits. -/
theorem point_among (h : k < (Nat.toDigits 10 m).length) :
    PlainNumeral ((Nat.toDigits 10 m).take ((Nat.toDigits 10 m).length - k) ++
      '.' :: (Nat.toDigits 10 m).drop ((Nat.toDigits 10 m).length - k)) m (-k) := by
  refine .point ?_ ?_ ?_ ?_ ?_
  · rw [← List.length_pos_iff, List.length_take]
    omega
  · exact fun c hc => isDigit_of_mem_toDigits c (List.mem_of_mem_take hc)
  · exact fun c hc => isDigit_of_mem_toDigits c (List.mem_of_mem_drop hc)
  · rw [List.take_append_drop, digitsValue_toDigits]
  · rw [List.length_drop]
    omega

/-- Zeros fill the places between the point and the digits. -/
theorem point_before (h : (Nat.toDigits 10 m).length ≤ k) :
    PlainNumeral (['0'] ++ '.' ::
      (List.replicate (k - (Nat.toDigits 10 m).length) '0' ++ Nat.toDigits 10 m)) m (-k) := by
  refine .point (List.cons_ne_nil _ _) ?_ ?_ ?_ ?_
  · exact isDigit_of_mem_zeros (k := 1)
  · exact List.forall_mem_append.2 ⟨isDigit_of_mem_zeros, isDigit_of_mem_toDigits⟩
  · rw [digitsValue_eq, Nat.ofDigitChars_append, Nat.ofDigitChars_append]
    exact (congrArg _ Nat.ofDigitChars_replicate_zero).trans Nat.ofDigitChars_ten_toDigits
  · rw [List.length_append, List.length_replicate]
    omega

end PlainNumeral

/-- **A decimal without exponent is a plain numeral** that stands for the same number. -/
theorem exists_plainNumeral (d : Digits) :
    ∃ n e, PlainNumeral (d.plain false).toList n e ∧ (n * 10 ^ e : ℚ) = d.value := by
  unfold Digits.plain
  dsimp only
  split
  · next hscale =>
    refine ⟨d.digits * 10 ^ d.scale.toNat, 0, ?_, ?_⟩
    · simpa [zeros] using PlainNumeral.zeros_behind
    · rw [Digits.value, zpow_zero, mul_one, Nat.cast_mul, Nat.cast_pow, Nat.cast_ofNat,
        ← zpow_natCast, Int.toNat_of_nonneg hscale]
  · next hscale =>
    obtain ⟨k, hk⟩ : ∃ k : ℕ, d.scale = -k := ⟨d.scale.natAbs, by omega⟩
    have hvalue : (d.digits * 10 ^ (-k : ℤ) : ℚ) = d.value := by rw [Digits.value, hk]
    rw [hk, Int.natAbs_neg, Int.natAbs_natCast]
    refine ⟨d.digits, -k, ?_, hvalue⟩
    split
    · next hplaces => simpa using PlainNumeral.point_among hplaces
    · next hplaces => simpa [zeros] using PlainNumeral.point_before (Nat.le_of_not_lt hplaces)

/-! ## Reading back -/

variable {x : Float} {m : ℕ} {e : ℤ}

/-- The float without its sign. -/
theorem neg_ofModel_pack (c : IsCanonical m e) (he : e ≤ 971) :
    -Float.ofModel (Float.Model.pack (.finite .positive m e c.pos)) =
      Float.ofModel (Float.Model.pack (.finite .negative m e c.pos)) := by
  show Float.ofModel (Float.Model.pack (Float.Model.pack _).unpack.neg) = _
  rw [unpack_pack_finite c he]
  rfl

/-- The size of a float in plain digits, and the float that they are read as. -/
theorem exists_size (finite : x.isFinite = true) :
    ∃ n e, PlainNumeral (Scalar.textLayout.size x).toList n e ∧
      x = if isNegative x then -toFloat n e else toFloat n e := by
  cases hasFields_of_isFinite finite with
  | zero s bits =>
      refine ⟨0, 0, ?_, ?_⟩
      · rw [Layout.size, if_pos (value_ofBits_of_zero bits)]
        exact .whole (n := 0) rfl
      · rw [isNegative_of_bits bits]
        cases s
        · exact eq_of_bits (u := .zero .negative) bits
        · exact eq_of_bits (u := .zero .positive) bits
  | finite s fields bits =>
    rename_i E M m e
    have c := fields.isCanonical
    have hvalue : (Interval.ofBits x.toBits).value ≠ 0 := by
      rw [ofBits_of_encodes fields bits]
      exact (Nat.mul_pos (Nat.mul_pos (by decide) c.pos) (Nat.pow_pos two_pos)).ne'
    obtain ⟨n, scale, hplain, hn⟩ :=
      exists_plainNumeral ((Interval.ofBits x.toBits).shortest .up)
    refine ⟨n, scale, ?_, ?_⟩
    · rw [Layout.size, if_neg hvalue]
      exact hplain
    · have hround : RoundsToFloat (n * 10 ^ scale) m e := by
        rw [hn, ofBits_of_encodes fields bits]
        exact roundsToFloat_shortest c.pos
      have hx : x = Float.ofModel (Float.Model.pack (.finite s m e c.pos)) :=
        eq_of_bits (bits.trans (fields.pack s c.pos).symm)
      rw [isNegative_of_bits bits, toFloat_eq_of_roundsToFloat c fields.le hround,
        neg_ofModel_pack c fields.le, hx]
      cases s <;> rfl

theorem render_of_isFinite (finite : x.isFinite = true) (layout : Layout) :
    layout.render x = (if isNegative x then "-" else "") ++ layout.size x := by
  have hfinite : x.toModel.unpack.isFinite = true := finite
  have hnan : x.isNaN = false := by
    show x.toModel.unpack.isNaN = false
    generalize x.toModel.unpack = u at hfinite
    cases u <;> first | rfl | cases hfinite
  have hinf : x.isInf = false := by
    show x.toModel.unpack.isInf = false
    generalize x.toModel.unpack = u at hfinite
    cases u <;> first | rfl | cases hfinite
  rw [Layout.render, hnan, hinf]
  rfl

/-- The text of a finite float: a plain numeral, behind a sign if the float has one. -/
theorem exists_text (finite : x.isFinite = true) :
    ∃ cs n e, PlainNumeral cs n e ∧
      ((Scalar.number x).asText.toList = cs ∧ x = toFloat n e ∨
        (Scalar.number x).asText.toList = '-' :: cs ∧ x = -toFloat n e) := by
  obtain ⟨n, e, hplain, hx⟩ := exists_size finite
  refine ⟨_, n, e, hplain, ?_⟩
  rw [Scalar.asText, render_of_isFinite finite, String.toList_append]
  cases hneg : isNegative x with
  | true =>
      rw [hneg] at hx
      exact Or.inr ⟨rfl, hx⟩
  | false =>
      rw [hneg] at hx
      exact Or.inl ⟨rfl, hx⟩

theorem PlainNumeral.read?_eq {cs : List Char} {n : ℕ} (h : PlainNumeral cs n e) :
    read? cs = some (toFloat n e) := by
  obtain ⟨c, rest, rfl, hc⟩ := h.exists_digit
  rw [← h.magnitude?_eq, read?]
  · rintro cs ⟨⟩
    cases hc
  · rintro cs ⟨⟩
    cases hc

/-- **The text of a finite float reads back as that float.** -/
theorem read?_asText (finite : x.isFinite = true) :
    read? (Scalar.number x).asText.toList = some x := by
  obtain ⟨cs, n, e, hplain, ⟨hcs, hx⟩ | ⟨hcs, hx⟩⟩ := exists_text finite
  · rw [hcs, hplain.read?_eq, ← hx]
  · rw [hcs, read?, hplain.magnitude?_eq, Option.map_some, ← hx]

/-- What a text is read as depends on what it is without the blanks around it. -/
theorem readTrimmed?_of_trim {v t : String} (h : trim v = t) :
    readTrimmed? v = read? t.toList := by
  rw [← h, trim, String.toList_ofList]
  rfl

end TeamRouting.Decimal

/-! ## Whole numbers -/

namespace TeamRouting.Text

variable {cs : List Char} {n : ℕ}

theorem signed?_of_digits? (h : digits? cs = some n) : signed? cs = some (n : ℤ) := by
  obtain ⟨hne, hall, -⟩ := Decimal.digits?_eq_some_iff.1 h
  obtain ⟨c, rest, rfl⟩ := List.exists_cons_of_ne_nil hne
  have hc : c.isDigit = true := hall c List.mem_cons_self
  rw [signed?, unsigned?, h]
  · rfl
  · rintro cs ⟨⟩
    cases hc
  · rintro cs ⟨⟩
    cases hc

theorem digits?_toString (n : ℕ) : digits? (toString n).toList = some n := by
  rw [Nat.toString_eq_ofList_toDigits, String.toList_ofList, Decimal.digits?_toDigits]

/-- The text of a whole number: digits, behind a sign if the number is negative. -/
theorem exists_toString (i : ℤ) :
    ∃ cs n, digits? cs = some n ∧
      ((toString i).toList = cs ∧ i = n ∨ (toString i).toList = '-' :: cs ∧ i = -(n : ℤ)) := by
  cases i with
  | ofNat n => exact ⟨_, n, digits?_toString n, Or.inl ⟨rfl, rfl⟩⟩
  | negSucc n =>
      exact ⟨_, n + 1, digits?_toString (n + 1), Or.inr ⟨String.toList_append, rfl⟩⟩

theorem signed?_toString (i : ℤ) : signed? (toString i).toList = some i := by
  obtain ⟨cs, n, hn, ⟨hcs, hi⟩ | ⟨hcs, hi⟩⟩ := exists_toString i
  · rw [hcs, signed?_of_digits? hn, hi]
  · rw [hcs, signed?, hn, hi]
    rfl

/-- **The text of a whole number reads back as that number.** -/
theorem int64?_asText (n : Int64) : int64? (Scalar.integer n).asText.toList = some n := by
  rw [Scalar.asText, int64?, signed?_toString, Option.filter_some_pos (fitsInt64_toInt n),
    Option.map_some, Int64.ofInt_toInt]

end TeamRouting.Text

/-! ## The characters of numbers -/

namespace TeamRouting.Scalar

open TeamRouting.Decimal TeamRouting.Text

variable {cs : List Char} {x : Float}

/-- The text of a number: a plain numeral, which may have a minus sign before it. -/
def IsNumberText (cs : List Char) : Prop :=
  ∃ ds n e, PlainNumeral ds n e ∧ (cs = ds ∨ cs = '-' :: ds)

theorem isNumberText_integer (n : Int64) : IsNumberText (integer n).asText.toList := by
  obtain ⟨cs, k, hk, ⟨hcs, -⟩ | ⟨hcs, -⟩⟩ := exists_toString n.toInt
  · exact ⟨cs, k, 0, .whole hk, Or.inl hcs⟩
  · exact ⟨cs, k, 0, .whole hk, Or.inr hcs⟩

theorem isNumberText_number (finite : x.isFinite = true) :
    IsNumberText (number x).asText.toList := by
  obtain ⟨cs, n, e, hplain, ⟨hcs, -⟩ | ⟨hcs, -⟩⟩ := exists_text finite
  · exact ⟨cs, n, e, hplain, Or.inl hcs⟩
  · exact ⟨cs, n, e, hplain, Or.inr hcs⟩

/-- **The text of a number has no letters and no blanks.** -/
theorem IsNumberText.bounds (h : IsNumberText cs) : ∀ c ∈ cs, 45 ≤ c.toNat ∧ c.toNat ≤ 57 := by
  obtain ⟨ds, n, e, hplain, hcs⟩ := h
  have hds : ∀ c ∈ ds, 45 ≤ c.toNat ∧ c.toNat ≤ 57 := by
    intro c hc
    rcases hplain.isDigit_or c hc with hdigit | rfl
    · rw [Char.isDigit_iff_toNat] at hdigit
      exact ⟨Nat.le_trans (by decide) hdigit.1, hdigit.2⟩
    · decide
  rcases hcs with rfl | rfl
  · exact hds
  · exact List.forall_mem_cons.2 ⟨by decide, hds⟩

end TeamRouting.Scalar
