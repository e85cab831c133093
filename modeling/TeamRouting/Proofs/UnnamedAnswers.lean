import TeamRouting.Proofs.ChoiceNames

/-!
# Answers that name no choice

A booking may answer with something that is no choice of a select attribute.  Such an answer stays
as it was given, and is meant to match nobody: rules that ask for it fail, rules that ask for
anything else hold, for every member who has nothing but choices.  Looking a choice up and comparing
values are two different notions of equality, though.  An id is found to the letter, and compared
without regard to case or, if the answer is a number, as a number.  So the intention is met just as
long as no choice has an id that the answer resembles.

* `Literal.FailsToMatch` — the intention;
* `nameChoiceIfAny_of_unnamed`, `Query.validate_unnamed` — the answer stays as it was given;
* `Operator.compares_of_apart` — what the operators say about values that match nothing;
* `Query.unnamed_answer_fails_iff` — when the intention is met;
* `Scalar.not_matches_of_lowerCase` — ids and answers in lower case do not resemble one another;
* `Query.unnamed_answer_matches` — an answer that names no choice, and matches one.
-/

namespace TeamRouting

/-! ## The intention -/

/-- An answer matches nobody who has only choices: with it as their operand, the rules that ask for
a value fail and those that ask for other values hold. -/
def Literal.FailsToMatch (catalog : Catalog) (a : Attribute) (value : Literal) : Prop :=
  ∀ op ∈ a.type.operators, op.takesOperand = true → ∀ ref, ∃ validation,
    (Query.rule ⟨a.id, op, some (.bound value ref)⟩).validate catalog = .ok validation ∧
    ∀ values : MemberValues, (∀ v ∈ values.get a.id, v ∈ a.choiceIds) → ∀ t,
      (op ∈ [.equals, .anyIn, .allIn] → (validation.tree.evaluate values t).1 = false) ∧
      (op ∈ [.notEquals, .noneIn] → op.Fits a value.scalars →
        (validation.tree.evaluate values t).1 = true)

/-! ## What becomes of such an answer -/

section Unnamed

variable {a : Attribute} {value : Literal}

theorem nameChoiceIfAny_of_unnamed {s : Scalar} (unnamed : a.findChoice? s.asText = none) :
    nameChoiceIfAny a s = s := by
  rw [nameChoiceIfAny, unnamed]
  rfl

/-- **An answer that names no choice stays as it was given.** -/
theorem suppliedForm_of_unnamed (select : a.type.hasChoices = true)
    (unnamed : ∀ s ∈ value.scalars, a.findChoice? s.asText = none) :
    suppliedForm a value = value := by
  rw [suppliedForm, if_neg (AttributeType.ne_number_of_hasChoices select), if_pos select]
  cases value with
  | single s =>
      rw [Literal.map, nameChoiceIfAny_of_unnamed (unnamed s (List.mem_singleton_self s))]
  | list ss =>
      have hmap : ss.map (nameChoiceIfAny a) = ss.map id :=
        List.map_congr_left fun s hs => nameChoiceIfAny_of_unnamed (unnamed s hs)
      rw [Literal.map, hmap, List.map_id]

end Unnamed

/-- What the operators say about values that no scalar matches. -/
theorem Operator.compares_of_apart {op : Operator} {values : List String} {scalars : List Scalar}
    (apart : ∀ s ∈ scalars, ∀ v ∈ values, ¬ s.Matches v) :
    (op ∈ [Operator.equals, .anyIn, .allIn] → ¬ op.Compares values scalars) ∧
      (op ∈ [Operator.notEquals, .noneIn] → (op.takesSet = false → scalars.length = 1) →
        op.Compares values scalars) := by
  have nowhere : ∀ s ∈ scalars, ¬ ∃ v ∈ values, s.Matches v := by
    rintro s hs ⟨v, hv, hmatches⟩
    exact apart s hs v hv hmatches
  constructor
  · intro hop
    simp only [List.mem_cons, List.not_mem_nil, or_false] at hop
    rcases hop with rfl | rfl | rfl
    · rintro ⟨s, rfl, hmatches⟩
      exact nowhere s (List.mem_singleton_self s) hmatches
    · rintro ⟨s, hs, hmatches⟩
      exact nowhere s hs hmatches
    · rintro ⟨hne, hall⟩
      obtain ⟨s, hs⟩ := List.exists_mem_of_ne_nil scalars hne
      exact nowhere s hs (hall s hs)
  · intro hop single
    simp only [List.mem_cons, List.not_mem_nil, or_false] at hop
    rcases hop with rfl | rfl
    · obtain ⟨s, rfl⟩ := List.length_eq_one_iff.1 (single rfl)
      exact ⟨s, rfl, nowhere s (List.mem_singleton_self s)⟩
    · rintro ⟨s, hs, hmatches⟩
      exact nowhere s hs hmatches

/-- **Where ids and answers are in lower case, no answer that names nothing resembles an id.** -/
theorem Scalar.not_matches_of_lowerCase {a : Attribute} {answer id : String}
    (unnamed : a.findChoice? answer = none) (hid : id ∈ a.choiceIds)
    (lowerId : Text.normalize id = id.toList)
    (lowerAnswer : Text.normalize answer = Text.trimChars answer.toList) :
    ¬ (Scalar.text answer).Matches id := by
  intro hmatches
  have hsame : id = Text.trim answer := by
    apply String.toList_injective
    rw [Text.trim, String.toList_ofList, ← lowerAnswer, ← lowerId]
    exact hmatches
  rw [Attribute.choiceIds, NameSet.mem_ofList] at hid
  obtain ⟨c, hc, rfl⟩ := List.mem_map.1 hid
  obtain ⟨d, hd⟩ := Attribute.exists_leadsTo hc (Or.inl hsame)
  rw [Attribute.findChoice?_eq_some_iff.2 hd] at unnamed
  cases unnamed

/-! ## Rules with such an answer -/

namespace Query

variable {catalog : Catalog} {a : Attribute} {value : Literal} {op : Operator}

/-- A rule with a fitting answer that names no choice is accepted as it is. -/
theorem validate_unnamed (defined : catalog.Defines a.id a) (select : a.type.hasChoices = true)
    (unnamed : ∀ s ∈ value.scalars, a.findChoice? s.asText = none) (allowed : op ∈ a.type.operators)
    (takes : op.takesOperand = true) (fits : flaw? op a value = none) (ref : Reference) :
    (rule ⟨a.id, op, some (.bound value ref)⟩).validate catalog =
      .ok ⟨.rule ⟨a.id, op, some (.bound value ref)⟩, []⟩ := by
  rw [validate_of_operand defined allowed takes, validateOperand, fits]
  show Except.ok _ = _
  rw [suppliedForm_of_unnamed select unnamed]

/-- A rule with an answer that does not fit is accepted, and left without a value. -/
theorem validate_misfit {flaw : OperandFlaw} (defined : catalog.Defines a.id a)
    (allowed : op ∈ a.type.operators) (takes : op.takesOperand = true)
    (hflaw : flaw? op a value = some flaw) (ref : Reference) :
    (rule ⟨a.id, op, some (.bound value ref)⟩).validate catalog =
      .ok ⟨.rule ⟨a.id, op, some (.indeterminate ref)⟩, [⟨ref, op, a.id, flaw⟩]⟩ := by
  rw [validate_of_operand defined allowed takes, validateOperand, hflaw]
  rfl

/-- What matches no id matches nobody who has only choices. -/
theorem failsToMatch_of_apart (defined : catalog.Defines a.id a) (select : a.type.hasChoices = true)
    (unnamed : ∀ s ∈ value.scalars, a.findChoice? s.asText = none)
    (apart : ∀ s ∈ value.scalars, ∀ id ∈ a.choiceIds, ¬ s.Matches id) :
    value.FailsToMatch catalog a := by
  intro op allowed takes ref
  cases hflaw : flaw? op a value with
  | none =>
      refine ⟨_, validate_unnamed defined select unnamed allowed takes hflaw ref, ?_⟩
      intro values hvalues t
      have nowhere : ∀ s ∈ value.scalars, ∀ v ∈ values.get a.id, ¬ s.Matches v :=
        fun s hs v hv => apart s hs v (hvalues v hv)
      rw [Bool.eq_false_iff, ne_eq, evaluate_rule_iff_compares takes rfl]
      exact ⟨(Operator.compares_of_apart nowhere).1,
        fun hop fits => (Operator.compares_of_apart nowhere).2 hop fits.single⟩
  | some flaw =>
      refine ⟨_, validate_misfit defined allowed takes hflaw ref, ?_⟩
      intro values hvalues t
      refine ⟨fun _ => ?_, fun _ fits => ?_⟩
      · show (Rule.verdict ⟨a.id, op, some (.indeterminate ref)⟩ _).holds = false
        rw [Rule.verdict_of_no_value takes rfl]
      · rw [← flaw?_eq_none_iff, hflaw] at fits
        cases fits

/-- What matches nobody who has only choices matches no id: a member could have that id alone, and
would match if some of the answer is wanted. -/
theorem not_matches_of_failsToMatch (defined : catalog.Defines a.id a)
    (select : a.type.hasChoices = true)
    (unnamed : ∀ s ∈ value.scalars, a.findChoice? s.asText = none)
    (fails : value.FailsToMatch catalog a) {s : Scalar} (hs : s ∈ value.scalars) {id : String}
    (hid : id ∈ a.choiceIds) : ¬ s.Matches id := by
  intro hmatches
  have allowed : Operator.anyIn ∈ a.type.operators := by
    revert select
    cases a.type <;> decide
  have fits : flaw? .anyIn a value = none := by
    rw [flaw?_eq_none_iff, Operator.fits_iff_of_ne_number
      (AttributeType.ne_number_of_hasChoices select) (List.contains_iff_mem.2 allowed)]
    intro noSet
    cases noSet
  obtain ⟨validation, hvalidation, hvalues⟩ := fails .anyIn allowed rfl ⟨formSource, a.id⟩
  rw [validate_unnamed defined select unnamed allowed rfl fits] at hvalidation
  cases hvalidation
  have hget : MemberValues.get ((∅ : MemberValues).insert a.id [id]) a.id = [id] :=
    MemberValues.get_insert_self
  obtain ⟨hasks, -⟩ := hvalues ((∅ : MemberValues).insert a.id [id])
    (by rw [hget]; simpa using hid) {}
  have hfails := hasks (by simp)
  rw [Bool.eq_false_iff, ne_eq, evaluate_rule_iff_compares rfl rfl, hget] at hfails
  exact hfails ⟨s, hs, id, List.mem_singleton_self id, hmatches⟩

/-- **When an answer that names no choice fails to match.**  Let an answer be none of whose scalars
names a choice of a select attribute.  It matches nobody who has only choices just when it matches
none of the ids: no text of it is an id in another case, and no number of it is what an id reads
as. -/
theorem unnamed_answer_fails_iff (defined : catalog.Defines a.id a)
    (select : a.type.hasChoices = true)
    (unnamed : ∀ s ∈ value.scalars, a.findChoice? s.asText = none) :
    value.FailsToMatch catalog a ↔ ∀ s ∈ value.scalars, ∀ id ∈ a.choiceIds, ¬ s.Matches id := by
  constructor
  · intro fails s hs id hid
    exact not_matches_of_failsToMatch defined select unnamed fails hs hid
  · intro apart
    exact failsToMatch_of_apart defined select unnamed apart

/-- Two choices with ids in lower case, an answer that is a word in lower case and an answer that is
a number. -/
theorem unnamed_answer_fails_of_legal :
    ∃ a : Attribute, a = ⟨"dept", "Department", .multiSelect, [⟨"d1", "Sales"⟩, ⟨"d2", "Field"⟩]⟩ ∧
      (Literal.list [.text " legal", .integer 7]).FailsToMatch ⟨"team", "org", [a], []⟩ a := by
  refine ⟨_, rfl, (unnamed_answer_fails_iff (Catalog.attribute?_eq_some_iff.1 rfl) rfl ?_).2 ?_⟩
  · decide
  · intro s hs id hid
    have hids : id = "d1" ∨ id = "d2" := by
      rw [Attribute.choiceIds, NameSet.mem_ofList] at hid
      simpa using hid
    simp only [Literal.scalars, List.mem_cons, List.not_mem_nil, or_false] at hs
    rcases hs with rfl | rfl
    · apply Scalar.not_matches_of_lowerCase (by decide) hid
      · rcases hids with rfl | rfl <;> decide
      · decide
    · rw [← equalsScalar_iff]
      rcases hids with rfl | rfl <;> decide

/-- **An answer that names no choice, and matches one.**  An id is looked up to the letter, so `d1`
does not name the choice `D1`.  Compared with what members have, it is the same. -/
theorem unnamed_answer_matches :
    ∃ a : Attribute, a = ⟨"dept", "Department", .singleSelect, [⟨"D1", "Sales"⟩]⟩ ∧
      a.findChoice? "d1" = none ∧ "D1" ∈ a.choiceIds ∧
      ∀ op ∈ [Operator.equals, .notEquals], ∃ validation,
        (rule ⟨"dept", op, some (.bound (.single (.text "d1")) ⟨formSource, "dept"⟩)⟩).validate
          ⟨"team", "org", [a], []⟩ = .ok validation ∧
        ((validation.tree.evaluate ((∅ : MemberValues).insert "dept" ["D1"]) {}).1 = true ↔
          op = .equals) := by
  refine ⟨_, rfl, rfl, NameSet.mem_ofList.2 (by decide), fun op hop => ?_⟩
  simp only [List.mem_cons, List.not_mem_nil, or_false] at hop
  rcases hop with rfl | rfl
  · exact ⟨_, rfl, by decide⟩
  · exact ⟨_, rfl, by decide⟩

end Query

end TeamRouting
