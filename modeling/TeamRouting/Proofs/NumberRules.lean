import TeamRouting.Proofs.Acceptance
import TeamRouting.Proofs.NumberForms
import TeamRouting.Proofs.WholeNumbers

/-!
# Rules about numbers

A rule on a number attribute compares the float of a member with those of its operand.  Two
things come between the numbers that people write down and the answer.  Whole numbers are rounded
when they have too many digits for a float.  And equality leaves a margin, where the comparisons by
size leave none.

* `Operator.Weighs`, `Operator.TakesNumbers` — what operators say about numbers;
* `Scalar.Reads`, `Rule.Decides` — the numbers of scalars, and what a rule answers;
* `Rule.decides_weighs` — a rule weighs the numbers that its scalars are;
* `Query.whole_number_rules` — whole numbers are compared after rounding;
* `Answers`, `Query.number_rules_agree` — equality and order agree, but for numbers within the
  margin.
-/

namespace TeamRouting

open Decimal

/-! ## Operators on numbers -/

namespace Operator

section Weighs

variable {α β : Type} [LinearOrder α] [LinearOrder β]

/-- What an operator says about a number and the numbers of its operand, for a notion of when two
numbers are the same. -/
def Weighs (same : α → α → Prop) (x : α) : Operator → List α → Prop
  | .equals, [y] => same x y
  | .notEquals, [y] => ¬ same x y
  | .greaterThan, [y] => x > y
  | .greaterThanOrEqual, [y] => x ≥ y
  | .lessThan, [y] => x < y
  | .lessThanOrEqual, [y] => x ≤ y
  | .between, [low, high] => low ≤ x ∧ x ≤ high
  | _, _ => False

/-- The operators that compare numbers, with as many numbers as they take. -/
inductive TakesNumbers : Operator → List α → Prop
  | equals (y : α) : TakesNumbers .equals [y]
  | notEquals (y : α) : TakesNumbers .notEquals [y]
  | greaterThan (y : α) : TakesNumbers .greaterThan [y]
  | greaterThanOrEqual (y : α) : TakesNumbers .greaterThanOrEqual [y]
  | lessThan (y : α) : TakesNumbers .lessThan [y]
  | lessThanOrEqual (y : α) : TakesNumbers .lessThanOrEqual [y]
  | between (low high : α) : TakesNumbers .between [low, high]

variable {op : Operator} {x : α} {ys : List α} {f : α → β} {same : α → α → Prop}
  {same' : β → β → Prop}

/-- The operators see no more than which numbers are the same and which are less. -/
theorem TakesNumbers.weighs_map_iff (sized : op.TakesNumbers ys)
    (hsame : ∀ y ∈ ys, (same' (f x) (f y) ↔ same x y))
    (hless : ∀ y ∈ ys, (f x < f y ↔ x < y) ∧ (f y < f x ↔ y < x)) :
    op.Weighs same' (f x) (ys.map f) ↔ op.Weighs same x ys := by
  have hle : ∀ y ∈ ys, (f x ≤ f y ↔ x ≤ y) ∧ (f y ≤ f x ↔ y ≤ x) := by
    intro y hy
    obtain ⟨hbelow, habove⟩ := hless y hy
    exact ⟨by rw [← not_lt, habove, not_lt], by rw [← not_lt, hbelow, not_lt]⟩
  cases sized with
  | equals y => exact hsame y (by simp)
  | notEquals y => exact not_congr (hsame y (by simp))
  | greaterThan y => exact (hless y (by simp)).2
  | greaterThanOrEqual y => exact (hle y (by simp)).2
  | lessThan y => exact (hless y (by simp)).1
  | lessThanOrEqual y => exact (hle y (by simp)).1
  | between low high => exact and_congr (hle low (by simp)).2 (hle high (by simp)).1

end Weighs

namespace TakesNumbers

variable {α β : Type} {op : Operator} {ys : List α}

theorem allowed (h : op.TakesNumbers ys) :
    op.takesOperand = true ∧ op ∈ AttributeType.number.operators := by
  cases h <;> decide

theorem map (h : op.TakesNumbers ys) (f : α → β) : op.TakesNumbers (ys.map f) := by
  cases h <;> constructor

end TakesNumbers

end Operator

/-! ## Numbers -/

/-- A scalar that reads as a finite float, and the number that this is. -/
def Scalar.Reads (s : Scalar) (q : ℚ) : Prop :=
  ∃ y, s.asNumber = some y ∧ y.isFinite = true ∧ rational y = q

/-- Numbers that are closer than the margin. -/
def Near (p q : ℚ) : Prop := |p - q| < margin

namespace Scalar

variable {s : Scalar} {v : String} {p q : ℚ} {x : Float}

/-- What stands for a finite number is that number. -/
theorem asNumber_asFinite (reads : s.asNumber = some x) (finite : x.isFinite = true) :
    s.asFinite.asNumber = some x := by
  cases s with
  | integer n => exact reads
  | number y => exact reads
  | text t =>
      have hread : readTrimmed? t = some x := reads
      rw [asFinite, hread, Option.filter_some_pos finite]
      rfl

theorem exists_asNumber_of_reads {scalars : List Scalar} {qs : List ℚ}
    (h : List.Forall₂ Reads scalars qs) : ∀ s ∈ scalars, ∃ x, s.asNumber = some x := by
  induction h with
  | nil => simp
  | cons reads rest ih =>
      obtain ⟨x, hx, -⟩ := reads
      exact List.forall_mem_cons.2 ⟨⟨x, hx⟩, ih⟩

/-- A value matches a number that is near to the one that it reads as. -/
theorem Reads.matches_iff (hs : s.Reads q) (hv : (text v).Reads p) :
    s.asFinite.Matches v ↔ Near p q := by
  obtain ⟨y, hy, hyfinite, rfl⟩ := hs
  obtain ⟨x, hx, hxfinite, rfl⟩ := hv
  have hread : readTrimmed? v = some x := hx
  have inside : ¬ s.IsNonFinite := by
    rintro ⟨t, z, rfl, hz, nonFinite⟩
    cases hz.symm.trans hy
    rw [hyfinite] at nonFinite
    cases nonFinite
  rw [s.asFinite_alike.matches_iff, matches_intoNumeric_iff hy inside, hread, Near,
    ← nearlyEqual_iff hxfinite hyfinite]
  simp

end Scalar

/-- **An operator weighs the numbers that scalars are.** -/
theorem Operator.TakesNumbers.compares_iff {op : Operator} {scalars : List Scalar} {qs : List ℚ}
    {v : String} {p : ℚ} (sized : op.TakesNumbers qs) (hs : List.Forall₂ Scalar.Reads scalars qs)
    (hv : (Scalar.text v).Reads p) :
    op.Compares [v] (scalars.map Scalar.asFinite) ↔ op.Weighs Near p qs := by
  obtain ⟨x, hx, hxfinite, rfl⟩ := id hv
  have hread : readTrimmed? v = some x := hx
  cases sized with
  | equals q =>
      obtain _ | ⟨hs, ⟨⟩⟩ := hs
      simp [Compares, Weighs, hs.matches_iff hv]
  | notEquals q =>
      obtain _ | ⟨hs, ⟨⟩⟩ := hs
      simp [Compares, Weighs, hs.matches_iff hv]
  | greaterThan q =>
      obtain _ | ⟨⟨y, hy, hyfinite, rfl⟩, ⟨⟩⟩ := hs
      simp [Compares, Weighs, IsNumber, hread, Scalar.asNumber_asFinite hy hyfinite,
        lt_iff hyfinite hxfinite]
  | greaterThanOrEqual q =>
      obtain _ | ⟨⟨y, hy, hyfinite, rfl⟩, ⟨⟩⟩ := hs
      simp [Compares, Weighs, IsNumber, hread, Scalar.asNumber_asFinite hy hyfinite,
        le_iff hyfinite hxfinite]
  | lessThan q =>
      obtain _ | ⟨⟨y, hy, hyfinite, rfl⟩, ⟨⟩⟩ := hs
      simp [Compares, Weighs, IsNumber, hread, Scalar.asNumber_asFinite hy hyfinite,
        lt_iff hxfinite hyfinite]
  | lessThanOrEqual q =>
      obtain _ | ⟨⟨y, hy, hyfinite, rfl⟩, ⟨⟩⟩ := hs
      simp [Compares, Weighs, IsNumber, hread, Scalar.asNumber_asFinite hy hyfinite,
        le_iff hxfinite hyfinite]
  | between low high =>
      obtain _ | ⟨⟨y, hy, hyfinite, rfl⟩, _ | ⟨⟨z, hz, hzfinite, rfl⟩, ⟨⟩⟩⟩ := hs
      simp [Compares, Weighs, IsNumber, hread, Scalar.asNumber_asFinite hy hyfinite,
        Scalar.asNumber_asFinite hz hzfinite, le_iff hyfinite hxfinite, le_iff hxfinite hzfinite]

/-! ## Rules -/

/-- A rule is accepted, and then it holds of a member just if a condition does. -/
def Rule.Decides (catalog : Catalog) (values : MemberValues) (r : Rule ResolvedOperand)
    (φ : Prop) : Prop :=
  ∃ validation, (Query.rule r).validate catalog = .ok validation ∧
    ∀ t, (validation.tree.evaluate values t).1 = true ↔ φ

section Rules

variable {catalog : Catalog} {values : MemberValues} {a : Attribute} {id v : String}
  {op : Operator} {o : ResolvedOperand} {value : Literal}

theorem Rule.Decides.congr {r : Rule ResolvedOperand} {φ ψ : Prop}
    (h : r.Decides catalog values φ) (same : φ ↔ ψ) : r.Decides catalog values ψ := by
  rwa [← propext same]

/-- A value that fits is taken, whoever it comes from. -/
theorem exists_form_of_fits (number : a.type = .number) (ho : o.value? = some value)
    (fits : op.Fits a value.scalars) :
    ∃ form, validateOperand op a o = .ok (form, []) ∧
      form.value? = some (suppliedForm a value) := by
  have hflaw := flaw?_eq_none_iff.2 fits
  have hform : authoredForm a value = .ok (suppliedForm a value) := by
    rw [authoredForm, suppliedForm, if_pos number, if_pos number]
  cases o with
  | static value =>
      cases ho
      refine ⟨.static (suppliedForm a value), ?_, rfl⟩
      rw [validateOperand, hflaw, hform]
      rfl
  | bound value ref =>
      cases ho
      refine ⟨.bound (suppliedForm a value) ref, ?_, rfl⟩
      rw [validateOperand, hflaw]
  | indeterminate ref => cases ho

/-- Numbers fit the operators that take as many. -/
theorem fits_of_takesNumbers {qs : List ℚ} (sized : op.TakesNumbers qs)
    (hs : List.Forall₂ Scalar.Reads value.scalars qs) : op.Fits a value.scalars := by
  have hlength := hs.length_eq
  refine ⟨?_, ?_, ?_⟩
  · rintro rfl
    cases sized
    exact hlength
  · intro single
    cases sized <;> first | exact hlength | cases single
  · exact fun _ => Scalar.exists_asNumber_of_reads hs

/-- **A rule weighs the numbers that its scalars are** against the single number of a member. -/
theorem Rule.decides_weighs {qs : List ℚ} {p : ℚ} (defined : catalog.Defines id a)
    (number : a.type = .number) (sized : op.TakesNumbers qs) (ho : o.value? = some value)
    (hs : List.Forall₂ Scalar.Reads value.scalars qs) (hvalues : values.get id = [v])
    (hv : (Scalar.text v).Reads p) :
    Rule.Decides catalog values ⟨id, op, some o⟩ (op.Weighs Near p qs) := by
  obtain ⟨takes, allowed⟩ := sized.allowed
  rw [← number] at allowed
  obtain ⟨form, hform, hvalue⟩ := exists_form_of_fits number ho (fits_of_takesNumbers sized hs)
  have hstands : a.standsFor = Scalar.asFinite := by
    funext s
    rw [Attribute.standsFor, number]
  refine ⟨⟨.rule ⟨id, op, some form⟩, []⟩, ?_, fun t => ?_⟩
  · rw [Query.validate_of_operand defined allowed takes, hform]
    rfl
  · rw [Query.evaluate_rule_iff_compares takes hvalue,
      compares_suppliedForm_iff (List.contains_iff_mem.2 allowed), hstands, hvalues,
      sized.compares_iff hs hv]

end Rules

/-! ## Whole numbers -/

theorem natAbs_toInt_lt (n : Int64) : n.toInt.natAbs < 2 ^ 64 := by
  have hlow := n.le_toInt
  have hhigh := n.toInt_lt
  omega

theorem Scalar.reads_integer (n : Int64) : (integer n).Reads (rounded n.toInt) := by
  obtain ⟨finite, hvalue⟩ := rational_ofInt (natAbs_toInt_lt n)
  exact ⟨_, rfl, finite, hvalue⟩

theorem Scalar.reads_of_spells {v : String} {m : Int64}
    (spelled : Spells (Text.trimChars v.toList) m.toInt) :
    (text v).Reads (rounded m.toInt) :=
  spelled.exists_read (natAbs_toInt_lt m)

/-- Whole numbers are near only if they are the same. -/
theorem near_intCast_iff {k l : ℤ} : Near k l ↔ k = l := by
  rw [Near, ← Int.cast_sub, ← Int.cast_abs]
  constructor
  · intro h
    have hone : |k - l| < 1 := by exact_mod_cast h.trans margin_lt_one
    rwa [Int.abs_lt_one_iff, sub_eq_zero] at hone
  · rintro rfl
    rw [sub_self, abs_zero, Int.cast_zero]
    exact margin_pos

/-- An operator weighs whole numbers as rational ones. -/
theorem Operator.TakesNumbers.weighs_intCast_iff {op : Operator} {k : ℤ} {ls : List ℤ}
    (sized : op.TakesNumbers ls) :
    op.Weighs Near k (ls.map fun l : ℤ => (l : ℚ)) ↔ op.Weighs Eq k ls :=
  sized.weighs_map_iff (fun _ _ => near_intCast_iff) fun _ _ => ⟨Int.cast_lt, Int.cast_lt⟩

namespace Query

variable {catalog : Catalog} {values : MemberValues} {a : Attribute} {id v : String}
  {op : Operator} {o : ResolvedOperand} {value : Literal} {m : Int64} {ns : List Int64}

/-- **Whole numbers are compared after rounding.**  Let the operand of a rule on a number attribute
be whole numbers of 64 bits, and let a member have a decimal text of one as the only value.  The
rule is accepted, and it answers how these numbers compare when they are rounded to 53 binary
digits.  If of each two that are compared one is smaller than that, then rounding does not matter,
and the answer is right for the numbers themselves. -/
theorem whole_number_rules (defined : catalog.Defines id a) (number : a.type = .number)
    (sized : op.TakesNumbers ns) (ho : o.value? = some value)
    (hscalars : value.scalars = ns.map .integer) (hvalues : values.get id = [v])
    (spelled : Spells (Text.trimChars v.toList) m.toInt) :
    Rule.Decides catalog values ⟨id, op, some o⟩
        (op.Weighs Eq (rounded m.toInt) (ns.map fun n => rounded n.toInt)) ∧
      ((∀ n ∈ ns, m.toInt.natAbs < 2 ^ 53 ∨ n.toInt.natAbs < 2 ^ 53) →
        Rule.Decides catalog values ⟨id, op, some o⟩
          (op.Weighs Eq m.toInt (ns.map Int64.toInt))) := by
  have hs : List.Forall₂ Scalar.Reads value.scalars
      (ns.map fun n => (rounded n.toInt : ℚ)) := by
    rw [hscalars, List.forall₂_map_left_iff, List.forall₂_map_right_iff, List.forall₂_same]
    exact fun n _ => Scalar.reads_integer n
  have hrounded : Rule.Decides catalog values ⟨id, op, some o⟩
      (op.Weighs Eq (rounded m.toInt) (ns.map fun n => rounded n.toInt)) := by
    refine (Rule.decides_weighs defined number (sized.map _) ho hs hvalues
      (Scalar.reads_of_spells spelled)).congr ?_
    rw [← (sized.map fun n => rounded n.toInt).weighs_intCast_iff, List.map_map]
    rfl
  refine ⟨hrounded, fun small => hrounded.congr ?_⟩
  have hless : ∀ l ∈ ns.map Int64.toInt, (rounded m.toInt < rounded l ↔ m.toInt < l) ∧
      (rounded l < rounded m.toInt ↔ l < m.toInt) := by
    intro l hl
    obtain ⟨n, hn, rfl⟩ := List.mem_map.1 hl
    exact ⟨rounded_lt_iff (small n hn), rounded_lt_iff (small n hn).symm⟩
  have hsame : ∀ l ∈ ns.map Int64.toInt, (rounded m.toInt = rounded l ↔ m.toInt = l) := by
    intro l hl
    rw [eq_iff_le_not_lt, eq_iff_le_not_lt, ← not_lt, ← not_lt, (hless l hl).1, (hless l hl).2]
  have h := (sized.map Int64.toInt).weighs_map_iff hsame hless
  rwa [List.map_map] at h

/-- A member with 5.0, and a range from 5 to the first whole number that is rounded. -/
theorem whole_number_rules_of_range :
    Rule.Decides ⟨"team", "org", [⟨"level", "Level", .number, []⟩], []⟩ ⟨[("level", [" 5.0"])]⟩
      ⟨"level", .between, some (.static (.list [.integer 5, .integer 9007199254740993]))⟩
      ((5 : ℤ) ≤ 5 ∧ (5 : ℤ) ≤ 9007199254740993) := by
  have written : PlainNumeral (['5'] ++ '.' :: ['0']) 50 (-1) :=
    .point (List.cons_ne_nil _ _) (List.forall_mem_singleton.2 rfl)
      (List.forall_mem_singleton.2 rfl) rfl rfl
  have spelled : Spells (Text.trimChars " 5.0".toList) (5 : Int64).toInt :=
    .plain (k := 5) written (by norm_num)
  have sized : Operator.TakesNumbers .between [(5 : Int64), 9007199254740993] := .between _ _
  have five : (5 : Int64).toInt.natAbs < 2 ^ 53 := by decide
  exact (whole_number_rules (Catalog.attribute?_eq_some_iff.1 rfl) rfl sized rfl rfl rfl spelled).2
    fun _ _ => Or.inl five

/-- A whole number with one binary digit too many equals the one before. -/
theorem whole_number_rules_lose_a_digit :
    (Query.rule ⟨"level", .equals, some (.static (.single (.integer 9007199254740993)))⟩).validate
        ⟨"team", "org", [⟨"level", "Level", .number, []⟩], []⟩ =
      .ok ⟨.rule ⟨"level", .equals, some (.static (.single (.integer 9007199254740993)))⟩, []⟩ ∧
    ((Query.rule
        ⟨"level", .equals, some (.static (.single (.integer 9007199254740993)))⟩).evaluate
      ⟨[("level", ["9007199254740992"])]⟩ {}).1 = true ∧
    (9007199254740992 : ℤ) ≠ 9007199254740993 := by
  refine ⟨rfl, by decide +kernel, by decide⟩

end Query

/-! ## Equality and order -/

/-- One of three statements is true, and no other. -/
def ExactlyOne (φ ψ χ : Prop) : Prop := (φ ∨ ψ ∨ χ) ∧ ¬ (φ ∧ ψ) ∧ ¬ (φ ∧ χ) ∧ ¬ (ψ ∧ χ)

/-- Numbers that are the same or no closer than the margin. -/
def Apart (p q : ℚ) : Prop := p = q ∨ margin ≤ |p - q|

section Apart

variable {p q : ℚ}

theorem near_self (p : ℚ) : Near p p := by
  rw [Near, sub_self, abs_zero]
  exact margin_pos

/-- Only numbers that are apart are near just when they are the same. -/
theorem near_iff_eq_iff : (Near p q ↔ p = q) ↔ Apart p q := by
  rw [Apart, ← not_lt]
  show (Near p q ↔ p = q) ↔ p = q ∨ ¬ Near p q
  constructor
  · intro h
    rw [h]
    exact em _
  · rintro (rfl | far)
    · exact iff_of_true (near_self p) rfl
    · refine iff_of_false far ?_
      rintro rfl
      exact far (near_self p)

/-- Order and nearness part numbers into three kinds only if they are apart. -/
theorem exactlyOne_iff_apart : ExactlyOne (p < q) (Near p q) (p > q) ↔ Apart p q := by
  rw [← near_iff_eq_iff]
  rcases lt_trichotomy p q with hlt | rfl | hgt
  · simp [ExactlyOne, hlt, hlt.not_gt, hlt.ne]
  · simp [ExactlyOne, near_self]
  · simp [ExactlyOne, hgt, hgt.not_gt, hgt.ne']

/-- The answers of the rules that compare one number with another: less, equal, greater, greater or
equal, and within the range from that number to itself. -/
structure Answers (p q : ℚ) (less equal greater atLeast within : Prop) : Prop where
  less_iff : less ↔ p < q
  equal_iff : equal ↔ |p - q| < margin
  greater_iff : greater ↔ p > q
  atLeast_iff : atLeast ↔ p ≥ q
  within_iff : within ↔ p = q
  some_holds : less ∨ equal ∨ greater
  not_both : ¬ (less ∧ greater)
  exactlyOne_iff : ExactlyOne less equal greater ↔ Apart p q
  equal_iff_within_iff : (equal ↔ within) ↔ Apart p q
  atLeast_iff_of_apart : Apart p q → (atLeast ↔ greater ∨ equal)

/-- How exact comparisons by size and equality within the margin go together. -/
theorem answers_of_order (p q : ℚ) : Answers p q (p < q) (Near p q) (p > q) (p ≥ q) (p = q) where
  less_iff := Iff.rfl
  equal_iff := Iff.rfl
  greater_iff := Iff.rfl
  atLeast_iff := Iff.rfl
  within_iff := Iff.rfl
  some_holds := by
    rcases lt_trichotomy p q with hlt | rfl | hgt
    · exact Or.inl hlt
    · exact Or.inr (Or.inl (near_self p))
    · exact Or.inr (Or.inr hgt)
  not_both := fun ⟨hlt, hgt⟩ => hlt.not_gt hgt
  exactlyOne_iff := exactlyOne_iff_apart
  equal_iff_within_iff := near_iff_eq_iff
  atLeast_iff_of_apart := by
    intro apart
    rw [near_iff_eq_iff.2 apart, ge_iff_le, le_iff_lt_or_eq, gt_iff_lt, eq_comm]

end Apart

namespace Query

variable {catalog : Catalog} {values : MemberValues} {a : Attribute} {id v : String}
  {o o' : ResolvedOperand} {value value' : Literal} {s : Scalar} {p q : ℚ}

/-- **Equality and order agree, but for numbers within the margin.**  Let an operand on a number
attribute be a finite number, and let a member have a single value that reads as one.  The rules
that compare by size, and the range from the number to itself, are exact.  Equality leaves a margin.
So at least one of less, equal and greater holds, and less and greater never both.  Exactly one of
the three holds, and equality agrees with the range, just for numbers that are the same or no closer
than the margin.  For these, at least the number means greater than it or equal to it. -/
theorem number_rules_agree (defined : catalog.Defines id a) (number : a.type = .number)
    (ho : o.value? = some value) (hscalars : value.scalars = [s])
    (ho' : o'.value? = some value') (hscalars' : value'.scalars = [s, s]) (hs : s.Reads q)
    (hvalues : values.get id = [v]) (hv : (Scalar.text v).Reads p) :
    ∃ less equal greater atLeast within : Prop,
      Rule.Decides catalog values ⟨id, .lessThan, some o⟩ less ∧
      Rule.Decides catalog values ⟨id, .equals, some o⟩ equal ∧
      Rule.Decides catalog values ⟨id, .greaterThan, some o⟩ greater ∧
      Rule.Decides catalog values ⟨id, .greaterThanOrEqual, some o⟩ atLeast ∧
      Rule.Decides catalog values ⟨id, .between, some o'⟩ within ∧
      Answers p q less equal greater atLeast within := by
  have hone : List.Forall₂ Scalar.Reads value.scalars [q] := by
    rw [hscalars]
    exact .cons hs .nil
  have htwo : List.Forall₂ Scalar.Reads value'.scalars [q, q] := by
    rw [hscalars']
    exact .cons hs (.cons hs .nil)
  have decides : ∀ {op}, op.TakesNumbers [q] →
      Rule.Decides catalog values ⟨id, op, some o⟩ (op.Weighs Near p [q]) := fun sized =>
    Rule.decides_weighs defined number sized ho hone hvalues hv
  have hwithin : Rule.Decides catalog values ⟨id, .between, some o'⟩ (p = q) :=
    (Rule.decides_weighs defined number (.between q q) ho' htwo hvalues hv).congr
      (and_comm.trans le_antisymm_iff.symm)
  exact ⟨p < q, Near p q, p > q, p ≥ q, p = q, decides (.lessThan q), decides (.equals q),
    decides (.greaterThan q), decides (.greaterThanOrEqual q), hwithin, answers_of_order p q⟩

/-- A member with seven, compared with five. -/
theorem number_rules_agree_on_seven :
    ∃ less equal greater : Prop,
      Rule.Decides ⟨"team", "org", [⟨"level", "Level", .number, []⟩], []⟩ ⟨[("level", ["7"])]⟩
        ⟨"level", .lessThan, some (.static (.single (.integer 5)))⟩ less ∧
      Rule.Decides ⟨"team", "org", [⟨"level", "Level", .number, []⟩], []⟩ ⟨[("level", ["7"])]⟩
        ⟨"level", .equals, some (.static (.single (.integer 5)))⟩ equal ∧
      Rule.Decides ⟨"team", "org", [⟨"level", "Level", .number, []⟩], []⟩ ⟨[("level", ["7"])]⟩
        ⟨"level", .greaterThan, some (.static (.single (.integer 5)))⟩ greater ∧
      ExactlyOne less equal greater := by
  have defined : (⟨"team", "org", [⟨"level", "Level", .number, []⟩], []⟩ : Catalog).Defines "level"
      ⟨"level", "Level", .number, []⟩ := Catalog.attribute?_eq_some_iff.1 rfl
  have single : (ResolvedOperand.static (.single (.integer 5))).value? =
      some (.single (.integer 5)) := rfl
  have range : (ResolvedOperand.static (.list [.integer 5, .integer 5])).value? =
      some (.list [.integer 5, .integer 5]) := rfl
  have found : MemberValues.get ⟨[("level", ["7"])]⟩ "level" = ["7"] := rfl
  have seven : (Scalar.text "7").Reads (rounded (7 : Int64).toInt) :=
    Scalar.reads_of_spells (spells_asText 7)
  have apart : Apart (rounded (7 : Int64).toInt) (rounded (5 : Int64).toInt) :=
    near_iff_eq_iff.1 (near_intCast_iff.trans Int.cast_inj.symm)
  obtain ⟨less, equal, greater, _, _, hless, hequal, hgreater, -, -, hanswers⟩ :=
    number_rules_agree defined rfl single rfl range rfl (Scalar.reads_integer 5) found seven
  exact ⟨less, equal, greater, hless, hequal, hgreater, hanswers.exactlyOne_iff.2 apart⟩

/-- **Equal and greater.**  A member with a number very close to zero, but above it. -/
theorem number_rules_overlap :
    (∃ validation,
      (Query.rule ⟨"level", .equals, some (.static (.single (.integer 0)))⟩).validate
        ⟨"team", "org", [⟨"level", "Level", .number, []⟩], []⟩ = .ok validation ∧
      (validation.tree.evaluate ⟨[("level", ["1e-17"])]⟩ {}).1 = true) ∧
    ∃ validation,
      (Query.rule ⟨"level", .greaterThan, some (.static (.single (.integer 0)))⟩).validate
        ⟨"team", "org", [⟨"level", "Level", .number, []⟩], []⟩ = .ok validation ∧
      (validation.tree.evaluate ⟨[("level", ["1e-17"])]⟩ {}).1 = true :=
  ⟨⟨_, rfl, by decide +kernel⟩, ⟨_, rfl, by decide +kernel⟩⟩

end Query

end TeamRouting
