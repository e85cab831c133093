import TeamRouting.Proofs.Floats

/-!
# Whole numbers and decimal numerals

A text that stands for a whole number is also a decimal numeral.  Both readings give the same
number, except that the numeral `-0` keeps its sign.

* `Decimal.magnitude?_of_digits?` — digits alone, read as a numeral;
* `Decimal.read?_of_int64?` — a whole number of 64 bits, read as a numeral: the float is finite
  and the one nearest to the number;
* `Scalar.numeric?_of_read`, `Scalar.numeric?_of_not_read` — a text becomes a number exactly if
  it reads as a finite float, and then as the same number.
-/

namespace TeamRouting

open TeamRouting.Text

theorem Text.fitsInt64_toInt (n : Int64) : fitsInt64 n.toInt = true := by
  have hlow := n.le_toInt
  have hhigh := n.toInt_lt
  simp only [fitsInt64, Bool.and_eq_true, decide_eq_true_eq]
  exact ⟨hlow, hhigh⟩

namespace Decimal

/-! ## Digits -/

theorem digits?_eq_some_iff {cs : List Char} {n : Nat} :
    digits? cs = some n ↔ cs ≠ [] ∧ (∀ c ∈ cs, c.isDigit = true) ∧ digitsValue cs = n := by
  unfold digits?
  cases cs with
  | nil => simp
  | cons c cs =>
      rw [← List.all_eq_true]
      cases (c :: cs).all Char.isDigit <;> simp

theorem isDigit_toLower {c : Char} (h : c.isDigit = true) : c.toLower.isDigit = true := by
  have hnine : c.val ≤ '9'.val := by
    unfold Char.isDigit at h
    exact of_decide_eq_true (Bool.and_eq_true_iff.1 h).2
  have hlower : c.toLower = c := by
    unfold Char.toLower
    refine dif_neg fun hupper => ?_
    have : 'A'.val ≤ '9'.val := UInt32.le_trans hupper.1 hnine
    exact absurd this (by decide)
  rw [hlower, h]

/-- A text that begins with a digit is no word. -/
theorem word?_of_isDigit {c : Char} (h : c.isDigit = true) (cs : List Char) :
    word? (c :: cs) = none := by
  have hc : c.toLower.isDigit = true := isDigit_toLower h
  have hword : ∀ (d : Char) (ds : List Char), d.isDigit = false →
      String.ofList ((c :: cs).map Char.toLower) ≠ String.ofList (d :: ds) := by
    intro d ds hd heq
    obtain ⟨rfl, -⟩ := List.cons.inj (String.ofList_injective heq)
    rw [hc] at hd
    cases hd
  have hinf := hword 'i' ['n', 'f'] rfl
  have hinfinity := hword 'i' ['n', 'f', 'i', 'n', 'i', 't', 'y'] rfl
  have hnan := hword 'n' ['a', 'n'] rfl
  unfold word?
  dsimp only
  rw [if_neg, if_neg hnan]
  intro h
  rcases Bool.or_eq_true_iff.1 h with h | h
  · exact hinf (of_decide_eq_true h)
  · exact hinfinity (of_decide_eq_true h)

/-- Digits alone, read as a numeral, have neither a fraction nor an exponent. -/
theorem magnitude?_of_digits? {cs : List Char} {n : Nat} (h : digits? cs = some n) :
    magnitude? cs = some (toFloat n 0) := by
  obtain ⟨hne, hall, hvalue⟩ := digits?_eq_some_iff.1 h
  have htake : cs.takeWhile Char.isDigit = cs := by
    have h := @List.takeWhile_append_of_pos _ Char.isDigit cs [] hall
    rwa [List.append_nil, List.takeWhile_nil, List.append_nil] at h
  have hdrop : cs.dropWhile Char.isDigit = [] := by
    have h := @List.dropWhile_append_of_pos _ Char.isDigit cs [] hall
    rwa [List.append_nil] at h
  have hdigits : digitsNumeral? cs = some (toFloat n 0) := by
    unfold digitsNumeral?
    rw [htake, hdrop]
    simp [fraction, exponent?, hne, hvalue]
  obtain ⟨c, cs, rfl⟩ := List.exists_cons_of_ne_nil hne
  rw [magnitude?, word?_of_isDigit (hall c List.mem_cons_self), Option.none_or, hdigits]

/-! ## Signs -/

/-- Both readings take the same sign off the same text. -/
theorem exists_digits?_of_signed? {cs : List Char} {i : Int} (h : signed? cs = some i) :
    ∃ ds n, digits? ds = some n ∧
      (i = -(n : Int) ∧ read? cs = (magnitude? ds).map (fun x => -x) ∨
        i = n ∧ read? cs = magnitude? ds) := by
  unfold signed? at h
  split at h
  · next ds =>
    cases hn : digits? ds with
    | none =>
        rw [hn] at h
        cases h
    | some n =>
        rw [hn] at h
        cases h
        exact ⟨ds, n, hn, Or.inl ⟨rfl, rfl⟩⟩
  · next hminus =>
    unfold unsigned? at h
    split at h
    · next ds =>
      cases hn : digits? ds with
      | none =>
          rw [hn] at h
          cases h
      | some n =>
          rw [hn] at h
          cases h
          exact ⟨ds, n, hn, Or.inr ⟨rfl, rfl⟩⟩
    · next hplus =>
      cases hn : digits? cs with
      | none =>
          rw [hn] at h
          cases h
      | some n =>
          rw [hn] at h
          cases h
          refine ⟨cs, n, hn, Or.inr ⟨rfl, ?_⟩⟩
          unfold read?
          split
          · next ds => exact absurd rfl (hminus ds)
          · next ds => exact absurd rfl (hplus ds)
          · rfl

/-- **The two readings agree.**  Only for `-0` do they give different floats, the two zeros. -/
theorem read?_of_signed? {cs : List Char} {i : Int} (h : signed? cs = some i)
    (hi : i.natAbs < 2 ^ 64) :
    ∃ x, read? cs = some x ∧ x.isFinite = true ∧ SameNumber x (ofInt i) := by
  obtain ⟨ds, n, hn, ⟨rfl, hread⟩ | ⟨rfl, hread⟩⟩ := exists_digits?_of_signed? h
  · rw [Int.natAbs_neg, Int.natAbs_natCast] at hi
    refine ⟨-toFloat n 0, ?_, (bounded_neg_toFloat hi).isFinite, ?_⟩
    · rw [hread, magnitude?_of_digits? hn, Option.map_some]
    · rcases Nat.eq_zero_or_pos n with rfl | hpos
      · exact sameNumber_neg_zero
      · refine Or.inl ?_
        rw [ofInt, if_pos (by omega), Int.natAbs_neg, Int.natAbs_natCast]
  · rw [Int.natAbs_natCast] at hi
    refine ⟨toFloat n 0, ?_, (bounded_toFloat hi).isFinite, Or.inl ?_⟩
    · rw [hread, magnitude?_of_digits? hn]
    · rw [ofInt, if_neg (by omega), Int.natAbs_natCast]

theorem read?_of_int64? {cs : List Char} {n : Int64} (h : int64? cs = some n) :
    ∃ x, read? cs = some x ∧ x.isFinite = true ∧ SameNumber x (ofInt n.toInt) := by
  obtain ⟨i, hi, rfl⟩ := Option.map_eq_some_iff.1 h
  obtain ⟨hsigned, hfits⟩ := Option.filter_eq_some_iff.1 hi
  have hrange : -(2 ^ 63 : Int) ≤ i ∧ i < 2 ^ 63 := by
    rcases Bool.and_eq_true_iff.1 hfits with ⟨hlow, hhigh⟩
    exact ⟨of_decide_eq_true hlow, of_decide_eq_true hhigh⟩
  have htoInt : (Int64.ofInt i).toInt = i := Int64.toInt_ofInt_of_le hrange.1 hrange.2
  rw [htoInt]
  exact read?_of_signed? hsigned (by omega)

end Decimal

/-! ## Texts that become numbers -/

namespace Scalar

/-- A text that reads as a finite float becomes that number. -/
theorem numeric?_of_read {s : String} {x : Float} (h : Decimal.readTrimmed? s = some x)
    (hx : x.isFinite = true) :
    numeric? s = some (number x) ∨
      ∃ n, numeric? s = some (integer n) ∧ Decimal.SameNumber x (Decimal.ofInt n.toInt) := by
  unfold numeric?
  dsimp only
  cases hint : int64? (trimChars s.toList) with
  | some n =>
      obtain ⟨x', hx', -, hsame⟩ := Decimal.read?_of_int64? hint
      obtain rfl : x' = x := Option.some.inj (hx'.symm.trans h)
      exact Or.inr ⟨n, rfl, hsame⟩
  | none =>
      have hread : Decimal.read? (trimChars s.toList) = some x := h
      refine Or.inl ?_
      rw [hread, Option.filter_some_pos hx]
      rfl

/-- A text that reads as no finite float stays a text. -/
theorem numeric?_of_not_read {s : String}
    (h : ∀ x, Decimal.readTrimmed? s = some x → x.isFinite = false) : numeric? s = none := by
  unfold numeric?
  dsimp only
  cases hint : int64? (trimChars s.toList) with
  | some n =>
      obtain ⟨x, hx, hfinite, -⟩ := Decimal.read?_of_int64? hint
      rw [h x hx] at hfinite
      cases hfinite
  | none =>
      have hfilter : (Decimal.read? (trimChars s.toList)).filter Float.isFinite = none := by
        refine Option.filter_eq_none_iff.2 fun x hx hfinite => ?_
        rw [h x hx] at hfinite
        cases hfinite
      rw [hfilter]
      rfl

end Scalar

end TeamRouting
