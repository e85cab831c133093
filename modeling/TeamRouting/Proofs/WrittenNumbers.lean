import TeamRouting.Proofs.Acceptance
import TeamRouting.Proofs.FloatTexts
import TeamRouting.Proofs.LowerCase
import TeamRouting.Proofs.NumberForms

/-!
# Numbers on text attributes

On a text attribute a rule compares texts as texts, but a number that it asks for stays a number and
is compared as one.  So it finds the number in all its forms, `7` as well as `007` and `7.0`, where
its text would be found in no other.  The text itself is no exception: it reads back as the number,
and so a value that is written like the number equals it in either way.

* `Scalar.written` — the text of a scalar in its place;
* `Scalar.FormMatters`, `Scalar.formMatters_iff` — the values for which that makes a difference;
* `Query.evaluate_written` — for all others a rule about numbers is a rule about their texts;
* `Query.evaluate_other_form` — a value for which it is not.
-/

namespace TeamRouting

/-! ## Numerals and their texts -/

namespace Scalar

variable {s : Scalar} {v : String} {x : Float}

/-- The text of a scalar in its place. -/
def written (s : Scalar) : Scalar := .text s.asText

/-- Whether it makes a difference for a value that a number is not a text.  The value reads as the
number but is written in another way, or it is written like a number that is not finite, which
equals nothing. -/
inductive FormMatters : Scalar → String → Prop
  | otherwise {s : Scalar} {v : String} (numeral : s.IsNumeral) (reads : s.Matches v)
      (other : Text.trim v ≠ s.asText) : FormMatters s v
  | nonFinite {x : Float} {v : String} (nonFinite : x.isFinite = false)
      (spelt : (number x).written.Matches v) : FormMatters (number x) v

theorem written_matches_iff : s.written.Matches v ↔ Text.normalize v = Text.normalize s.asText :=
  Iff.rfl

/-- Digits, a point and a sign are compared as they are. -/
theorem written_matches_iff_trim (plain : ∀ c ∈ s.asText.toList, 45 ≤ c.toNat ∧ c.toNat ≤ 57) :
    s.written.Matches v ↔ Text.trim v = s.asText := by
  have hblank : ∀ c ∈ s.asText.toList, Text.isBlank c = false := fun c hc =>
    Text.isBlank_of_bounds (plain c hc).1 ((plain c hc).2.trans (by decide))
  have hletters : ∀ c ∈ s.asText.toList, c.toNat < 65 := fun c hc =>
    Nat.lt_of_le_of_lt (plain c hc).2 (by decide)
  rw [written_matches_iff, Text.normalize, Text.normalize, Text.normalizeChars, Text.normalizeChars,
    Text.trimChars_of_not_blank hblank, Text.lowerChars_eq_iff hletters, Text.trim,
    ← String.toList_inj, String.toList_ofList]

/-- **A value that is written like a number reads as that number.** -/
theorem integer_matches_of_trim {n : Int64} (h : Text.trim v = (integer n).asText) :
    (integer n).Matches v := by
  obtain ⟨y, hread, finite, hsame⟩ := Decimal.read?_of_int64? (Text.int64?_asText n)
  refine ⟨y, ?_, ?_⟩
  · rw [Decimal.readTrimmed?_of_trim h, hread]
  · rw [← hsame.nearlyEqual_right, Decimal.nearlyEqual_self finite]

theorem number_matches_of_trim (finite : x.isFinite = true)
    (h : Text.trim v = (number x).asText) : (number x).Matches v :=
  ⟨x, by rw [Decimal.readTrimmed?_of_trim h, Decimal.read?_asText finite],
    Decimal.nearlyEqual_self finite⟩

/-- A number with a plain text matches what its text matches, and what reads as the number in
another form. -/
theorem formMatters_iff_of_plain (numeral : s.IsNumeral)
    (finite : ∀ x, s = number x → x.isFinite = true)
    (plain : ∀ c ∈ s.asText.toList, 45 ≤ c.toNat ∧ c.toNat ≤ 57)
    (reads : Text.trim v = s.asText → s.Matches v) :
    s.FormMatters v ↔ ¬ (s.written.Matches v ↔ s.Matches v) := by
  have hforms : s.FormMatters v ↔ s.Matches v ∧ Text.trim v ≠ s.asText := by
    constructor
    · rintro (⟨-, hreads, hother⟩ | ⟨nonFinite, -⟩)
      · exact ⟨hreads, hother⟩
      · rw [finite _ rfl] at nonFinite
        cases nonFinite
    · rintro ⟨hreads, hother⟩
      exact .otherwise numeral hreads hother
  rw [hforms, written_matches_iff_trim plain]
  constructor
  · rintro ⟨hreads, hother⟩ hsame
    exact hother (hsame.2 hreads)
  · intro hdiffer
    have hother : Text.trim v ≠ s.asText := fun h => hdiffer ⟨fun _ => reads h, fun _ => h⟩
    refine ⟨?_, hother⟩
    by_contra hreads
    exact hdiffer ⟨fun h => absurd h hother, fun h => absurd h hreads⟩

/-- **When it makes a difference that a number is not a text.** -/
theorem formMatters_iff : s.FormMatters v ↔ ¬ (s.written.Matches v ↔ s.Matches v) := by
  cases s with
  | text t =>
      have hsame : (text t).written.Matches v ↔ (text t).Matches v := Iff.rfl
      refine ⟨?_, fun hdiffer => absurd hsame hdiffer⟩
      rintro ⟨⟨⟩, -, -⟩
  | integer n =>
      exact formMatters_iff_of_plain (.integer n) (by rintro x ⟨⟩)
        (isNumberText_integer n).bounds integer_matches_of_trim
  | number x =>
      cases finite : x.isFinite with
      | true =>
          exact formMatters_iff_of_plain (.number x) (by rintro y ⟨⟩; exact finite)
            (isNumberText_number finite).bounds (number_matches_of_trim finite)
      | false =>
          have hnothing : ¬ (number x).Matches v := by
            rintro ⟨y, -, hy⟩
            rw [Decimal.nearlyEqual_of_nonFinite finite] at hy
            cases hy
          constructor
          · rintro (⟨-, reads, -⟩ | ⟨-, spelt⟩) hsame
            · exact hnothing reads
            · exact hnothing (hsame.1 spelt)
          · intro hdiffer
            refine .nonFinite finite ?_
            by_contra hwritten
            exact hdiffer ⟨fun h => absurd h hwritten, fun h => absurd h hnothing⟩

instance (s : Scalar) (v : String) : Decidable (s.FormMatters v) :=
  decidable_of_iff (¬ (equalsScalar v s.written = true ↔ equalsScalar v s = true)) (by
    rw [formMatters_iff, equalsScalar_iff, equalsScalar_iff])

/-- Otherwise a value equals a number just if it equals the text of the number. -/
theorem hasValue_written {values : List String} (h : ∀ v ∈ values, ¬ s.FormMatters v) :
    hasValue values s.written = hasValue values s := by
  rw [Bool.eq_iff_iff, hasValue_iff, hasValue_iff]
  refine exists_congr fun v => and_congr_right fun hv => ?_
  exact not_not.1 fun hdiffer => h v hv (formMatters_iff.2 hdiffer)

end Scalar

/-! ## Rules -/

/-- The operators that ask which scalars the values equal. -/
def Operator.IsEquality (op : Operator) : Prop :=
  op = .equals ∨ op = .notEquals ∨ op = .anyIn ∨ op = .noneIn

/-- Such a rule says the same about scalars that the same values equal. -/
theorem Rule.verdictOn_map_of_isEquality {r r' : Rule ResolvedOperand} {values : List String}
    {scalars : List Scalar} {f : Scalar → Scalar} (same : r'.operator = r.operator)
    (equality : r.operator.IsEquality)
    (h : ∀ s ∈ scalars, hasValue values (f s) = hasValue values s) :
    r'.verdictOn values (scalars.map f) = r.verdictOn values scalars := by
  have hany : (scalars.map f).any (hasValue values) = scalars.any (hasValue values) := by
    rw [List.any_map, Bool.eq_iff_iff, List.any_eq_true, List.any_eq_true]
    refine exists_congr fun s => and_congr_right fun hs => ?_
    rw [Function.comp_apply, h s hs]
  unfold Rule.verdictOn
  rw [same]
  rcases equality with hop | hop | hop | hop <;> rw [hop]
  case inl =>
    rcases scalars with _ | ⟨s, _ | ⟨s', rest⟩⟩
    · rfl
    · exact congrArg (Verdict.mk · none) (h s (List.mem_singleton_self s))
    · rfl
  case inr.inl =>
    rcases scalars with _ | ⟨s, _ | ⟨s', rest⟩⟩
    · rfl
    · exact congrArg (fun b => Verdict.mk (!b) none) (h s (List.mem_singleton_self s))
    · rfl
  case inr.inr.inl => exact congrArg (Verdict.mk · none) hany
  case inr.inr.inr => exact congrArg (fun b => Verdict.mk (!b) none) hany

theorem Operator.IsEquality.takesOperand {op : Operator} (h : op.IsEquality) :
    op.takesOperand = true := by
  rcases h with rfl | rfl | rfl | rfl <;> rfl

theorem Operator.IsEquality.mem_operators {op : Operator} (h : op.IsEquality) :
    op ∈ AttributeType.text.operators := by
  rcases h with rfl | rfl | rfl | rfl <;> decide

/-! ## Trees -/

namespace Query

variable {catalog : Catalog} {a : Attribute} {id : String} {op : Operator} {value : Literal}

/-- **On a text attribute numbers may be replaced by their texts**, but for the values for which
the form matters.  If a rule that asks for equality is accepted, so is the rule with the text of
each scalar in its place.  Both are evaluated alike for every member, unless a value of the member
reads as one of the numbers but is written in another way, or is written like one of them that is
not finite. -/
theorem evaluate_written (defined : catalog.Defines id a) (text : a.type = .text)
    (equality : op.IsEquality) {validation : Validation}
    (accepted : (rule ⟨id, op, some (.static value)⟩).validate catalog = .ok validation) :
    ∃ written, (rule ⟨id, op, some (.static (value.map Scalar.written))⟩).validate catalog =
        .ok written ∧
      ∀ values : MemberValues,
        (∀ s ∈ value.scalars, ∀ v ∈ values.get id, ¬ s.FormMatters v) →
        ∀ t, written.tree.evaluate values t = validation.tree.evaluate values t := by
  have allowed : op ∈ a.type.operators := text ▸ equality.mem_operators
  have takes : op.takesOperand = true := equality.takesOperand
  obtain ⟨single, rfl⟩ :=
    (validate_static_text_eq_ok_iff defined text allowed takes).1 accepted
  have single' : op.takesSet = false → (value.map Scalar.written).scalars.length = 1 := by
    rwa [Literal.scalars_map, List.length_map]
  refine ⟨_, (validate_static_text_eq_ok_iff defined text allowed takes).2 ⟨single', rfl⟩, ?_⟩
  intro values plain t
  have hverdictOn : ∀ value : Literal, Rule.verdict ⟨id, op, some (.static value)⟩ (values.get id) =
      Rule.verdictOn ⟨id, op, some (.static value)⟩ (values.get id) value.scalars := fun value =>
    Rule.verdict_of_value rfl
  have hverdict : Rule.verdict ⟨id, op, some (.static (value.map Scalar.written))⟩ (values.get id) =
      Rule.verdict ⟨id, op, some (.static value)⟩ (values.get id) := by
    rw [hverdictOn, hverdictOn, Literal.scalars_map]
    exact Rule.verdictOn_map_of_isEquality rfl equality fun s hs =>
      Scalar.hasValue_written (plain s hs)
  rw [evaluate, evaluate, hverdict]

/-- Codes that are numbers with and without a fraction, for a member who has them as texts. -/
theorem evaluate_written_of_codes :
    ∃ validation written : Validation,
      (rule ⟨"code", .anyIn, some (.static (.list [.integer 7, .number 0.5]))⟩).validate
        ⟨"team", "org", [⟨"code", "Code", .text, []⟩], []⟩ = .ok validation ∧
      (rule ⟨"code", .anyIn, some (.static (.list [.text "7", .text "0.5"]))⟩).validate
        ⟨"team", "org", [⟨"code", "Code", .text, []⟩], []⟩ = .ok written ∧
      ∀ t, written.tree.evaluate ((∅ : MemberValues).insert "code" [" 0.5", "1e1"]) t =
        validation.tree.evaluate ((∅ : MemberValues).insert "code" [" 0.5", "1e1"]) t := by
  have defined : (⟨"team", "org", [⟨"code", "Code", .text, []⟩], []⟩ : Catalog).Defines "code"
      ⟨"code", "Code", .text, []⟩ := Catalog.attribute?_eq_some_iff.1 rfl
  have accepted : (rule ⟨"code", .anyIn, some (.static (.list [.integer 7, .number 0.5]))⟩).validate
      ⟨"team", "org", [⟨"code", "Code", .text, []⟩], []⟩ =
        .ok ⟨rule ⟨"code", .anyIn, some (.static (.list [.integer 7, .number 0.5]))⟩, []⟩ := rfl
  have htexts : (Literal.list [.integer 7, .number 0.5]).map Scalar.written =
      .list [.text "7", .text "0.5"] := by decide +kernel
  obtain ⟨written, hwritten, hsame⟩ :=
    evaluate_written defined rfl (Or.inr (Or.inr (Or.inl rfl))) accepted
  rw [htexts] at hwritten
  refine ⟨_, written, accepted, hwritten, hsame _ ?_⟩
  rw [MemberValues.get_insert_self]
  decide +kernel

/-- **A code in another form.**  `007` reads as the number, and is not its text. -/
theorem evaluate_other_form :
    ∃ r r' : Rule ResolvedOperand,
      r = ⟨"code", .equals, some (.static (.single (.integer 7)))⟩ ∧
      r' = ⟨"code", .equals, some (.static (.single (.text (Scalar.integer 7).asText)))⟩ ∧
      (rule r).validate ⟨"team", "org", [⟨"code", "Code", .text, []⟩], []⟩ = .ok ⟨.rule r, []⟩ ∧
      (rule r').validate ⟨"team", "org", [⟨"code", "Code", .text, []⟩], []⟩ = .ok ⟨.rule r', []⟩ ∧
      ((rule r).evaluate ((∅ : MemberValues).insert "code" ["007"]) {}).1 = true ∧
      ((rule r').evaluate ((∅ : MemberValues).insert "code" ["007"]) {}).1 = false := by
  refine ⟨_, _, rfl, rfl, rfl, rfl, ?_, ?_⟩ <;> decide +kernel

end Query

end TeamRouting
