import TeamRouting.Proofs.Acceptance
import TeamRouting.Proofs.Interchange
import TeamRouting.Proofs.MissingAnswers
import TeamRouting.Proofs.Restoration

/-!
# Set operators as groups

An operator that takes a set of values asks of some or of all of them what another operator asks of
a single one.  So a rule with such an operator can be spelled out: as a group of rules, one for each
value of the set.  The two go through other checks and other ways of evaluation, and still they come
to the same, whatever is in the set and whether it is accepted or not.

* `Operator.Unfolds` — which group each set operator stands for;
* `Query.ofSet`, `Query.ofSingles` — the rule and the group;
* `Operator.Unfolds.compares_iff` — the operator says of a set what the group says of its values;
* `Engine.fault?_prepare_ofSet`, `Engine.fault?_prepare_ofSingles` — both are at fault for the first
  value of the set that names no choice, and for nothing else;
* `Engine.prepare_set_operator` — so they are prepared alike and match the same members, and the
  order of a set and repetitions in it do not matter.
-/

namespace TeamRouting

/-! ## The rule and the group -/

/-- A set operator with the group that it stands for: how that combines its rules, and the operator
of each of them. -/
inductive Operator.Unfolds : Operator → Combinator → Operator → Prop
  | anyIn : Unfolds .anyIn .or .equals
  | noneIn : Unfolds .noneIn .and .notEquals
  | allIn : Unfolds .allIn .and .equals

/-- Whether a property holds of all scalars, or of some, as a combinator wants it. -/
def Combinator.Over (c : Combinator) (φ : Scalar → Prop) (scalars : List Scalar) : Prop :=
  match c with
  | .and => ∀ s ∈ scalars, φ s
  | .or => ∃ s ∈ scalars, φ s

namespace Query

/-- A rule about a set of scalars. -/
def ofSet (id : String) (op : Operator) (scalars : List Scalar) : Query Operand :=
  rule ⟨id, op, some (.literal (.list scalars))⟩

/-- A group of rules about single scalars. -/
def ofSingles (c : Combinator) (id : String) (op : Operator) (scalars : List Scalar) :
    Query Operand :=
  group c (scalars.map fun s => rule ⟨id, op, some (.literal (.single s))⟩)

variable {c : Combinator} {id : String} {op : Operator} {scalars : List Scalar}

theorem rules_ofSingles : (ofSingles c id op scalars).rules =
    scalars.map fun s => ⟨id, op, some (.literal (.single s))⟩ := by
  rw [ofSingles, rules]
  induction scalars with
  | nil => rfl
  | cons s rest ih => simp [rulesOfAll, rules, ih]

theorem references_ofSet : (ofSet id op scalars).references = [] := rfl

theorem references_ofSingles : (ofSingles c id op scalars).references = [] := by
  rw [references, rules_ofSingles]
  simp [Operand.reference?]

theorem holds_ofSingles {φ : Rule Operand → Prop} : (ofSingles c id op scalars).Holds φ ↔
    c.Over (fun s => φ ⟨id, op, some (.literal (.single s))⟩) scalars := by
  cases c with
  | and => simp [ofSingles, holds_and, Holds, Combinator.Over]
  | or => simp [ofSingles, holds_or, Holds, Combinator.Over]

end Query

/-! ## What both say -/

namespace Operator.Unfolds

variable {op single : Operator} {c : Combinator} {t : AttributeType} {values : List String}

theorem takesSet (h : op.Unfolds c single) : op.takesSet = true ∧ single.takesSet = false := by
  cases h <;> exact ⟨rfl, rfl⟩

theorem takesOperand (h : op.Unfolds c single) :
    op.takesOperand = true ∧ single.takesOperand = true := by
  cases h <;> exact ⟨rfl, rfl⟩

/-- Numbers have no set operators, and all other types have the operators for single values. -/
theorem allowed (h : op.Unfolds c single) (allowed : op ∈ t.operators) :
    t ≠ .number ∧ single ∈ t.operators := by
  revert allowed
  cases h <;> cases t <;> decide

/-- **A set operator says of a set what its group says of the values.**  Of no values it would say
that not all are there, where the group says that they are. -/
theorem compares_iff (h : op.Unfolds c single) {scalars : List Scalar} (nonempty : scalars ≠ [])
    (f : Scalar → Scalar) : op.Compares values (scalars.map f) ↔
      c.Over (fun s => single.Compares values [f s]) scalars := by
  cases h with
  | anyIn => simp [Compares, Combinator.Over]
  | noneIn => simp [Compares, Combinator.Over]
  | allIn => simp [Compares, Combinator.Over, nonempty]

end Operator.Unfolds

/-- Only which scalars there are matters, not their order or how often they are there. -/
theorem Combinator.over_congr {c : Combinator} {φ : Scalar → Prop} {scalars scalars' : List Scalar}
    (same : ∀ s, s ∈ scalars' ↔ s ∈ scalars) : c.Over φ scalars' ↔ c.Over φ scalars := by
  cases c <;> simp [Over, same]

/-- What a rule with a literal says about a member. -/
theorem Rule.means_of_literal {catalog : Catalog} {a : Attribute} {bindings : Bindings}
    {values : MemberValues} {id : String} {op : Operator} {value : Literal}
    (defined : catalog.Defines id a) (takes : op.takesOperand = true) :
    Means catalog bindings values ⟨id, op, some (.literal value)⟩ ↔
      op.Compares (values.get id) (value.scalars.map a.standsFor) := by
  rw [Rule.means_iff takes]
  simp [Catalog.attribute?_eq_some_iff.2 defined, Operand.supplies_literal_iff]

/-! ## Faults of both -/

/-- An authored value that has the right shape is at fault if it has no form. -/
theorem fault?_validateRule_of_fits {catalog : Catalog} {a : Attribute} {id : String}
    {op : Operator} {value : Literal} (defined : catalog.Defines id a)
    (allowed : op ∈ a.type.operators) (takes : op.takesOperand = true)
    (fits : op.Fits a value.scalars) :
    fault? (validateRule catalog ⟨id, op, some (.static value)⟩)
      = fault? (authoredForm a value) := by
  rw [validateRule_of_defines defined, validateRuleOn_of_allowed allowed takes]
  dsimp only
  rw [fault?_validateOperand_static, flaw?_eq_none_iff.2 fits, Option.map_none, Option.none_or]

namespace Engine

variable {engine : Engine} {catalog : Catalog} {bindings : Bindings} {a : Attribute} {id : String}
  {op single : Operator} {c : Combinator} {scalars : List Scalar}

/-- A tree without references is at fault for what validation finds in it. -/
theorem fault?_prepare_of_no_references {query : Query Operand} (plain : query.references = []) :
    fault? (engine.prepare catalog bindings query) =
      query.rules.findSome? fun r =>
        fault? (validateRule catalog
          ⟨r.attributeId, r.operator, r.operand.map (Operand.settle bindings)⟩) := by
  have known : ∀ ref ∈ query.references, engine.sources.contains ref.source = true := by
    rw [plain]
    exact fun _ href => absurd href List.not_mem_nil
  have hresolve := Query.resolve_of_known engine.sources bindings known
  rw [prepare_eq_bind, hresolve]
  show fault? (Except.map _ _) = _
  rw [fault?_map, Query.fault?_validate, Query.mapOperands, Query.rules_mapRules,
    List.findSome?_map]
  rfl

/-- The fault of a rule about a set. -/
theorem fault?_prepare_ofSet (defined : catalog.Defines id a) (unfolds : op.Unfolds c single)
    (allowed : op ∈ a.type.operators) :
    fault? (engine.prepare catalog bindings (.ofSet id op scalars)) =
      if a.type.hasChoices then scalars.findSome? fun s => fault? (nameChoice a s) else none := by
  have fits : op.Fits a (Literal.list scalars).scalars := by
    refine (Operator.fits_iff_of_ne_number (unfolds.allowed allowed).1
      (List.contains_iff_mem.2 allowed)).2 fun one => ?_
    rw [unfolds.takesSet.1] at one
    cases one
  rw [fault?_prepare_of_no_references Query.references_ofSet, Query.ofSet, Query.rules,
    List.findSome?_singleton]
  show fault? (validateRule catalog ⟨id, op, some (.static (.list scalars))⟩) = _
  rw [fault?_validateRule_of_fits defined allowed unfolds.takesOperand.1 fits, fault?_authoredForm]
  rfl

/-- **The group is at fault just as the rule is.** -/
theorem fault?_prepare_ofSingles (defined : catalog.Defines id a) (unfolds : op.Unfolds c single)
    (allowed : op ∈ a.type.operators) :
    fault? (engine.prepare catalog bindings (.ofSingles c id single scalars)) =
      if a.type.hasChoices then scalars.findSome? fun s => fault? (nameChoice a s) else none := by
  obtain ⟨noNumber, allowed'⟩ := unfolds.allowed allowed
  have hrule : ∀ s,
      fault? (validateRule catalog ⟨id, single, some (.static (.single s))⟩) =
        if a.type.hasChoices then fault? (nameChoice a s) else none := by
    intro s
    have fits : single.Fits a (Literal.single s).scalars :=
      (Operator.fits_iff_of_ne_number noNumber (List.contains_iff_mem.2 allowed')).2 fun _ => rfl
    rw [fault?_validateRule_of_fits defined allowed' unfolds.takesOperand.2 fits,
      fault?_authoredForm, Literal.scalars, List.findSome?_singleton]
  rw [fault?_prepare_of_no_references Query.references_ofSingles, Query.rules_ofSingles,
    List.findSome?_map]
  show scalars.findSome? (fun s =>
    fault? (validateRule catalog ⟨id, single, some (.static (.single s))⟩)) = _
  simp only [hrule]
  split
  · rfl
  · simp

/-- The values of an accepted set can be listed in any order and any number of times. -/
theorem fault?_prepare_ofSet_congr (defined : catalog.Defines id a) (unfolds : op.Unfolds c single)
    (allowed : op ∈ a.type.operators) {scalars' : List Scalar}
    (same : ∀ s, s ∈ scalars' ↔ s ∈ scalars) :
    fault? (engine.prepare catalog bindings (.ofSet id op scalars')) = none ↔
      fault? (engine.prepare catalog bindings (.ofSet id op scalars)) = none := by
  rw [fault?_prepare_ofSet defined unfolds allowed, fault?_prepare_ofSet defined unfolds allowed]
  split
  · simp [List.findSome?_eq_none_iff, same]
  · rfl

end Engine

/-! ## Members of both -/

/-- Two plans that match the same members, whatever was tallied before. -/
def Plan.MatchesAlike (p p' : Plan) : Prop :=
  ∀ values t t', (p.tree.evaluate values t).1 = (p'.tree.evaluate values t').1

theorem EndAlike.of_fault? {ε α β : Type} {R : α → β → Prop} {x : Except ε α} {y : Except ε β}
    (fault : fault? x = fault? y) (related : ∀ a b, x = .ok a → y = .ok b → R a b) :
    EndAlike R x y := by
  cases x with
  | error e =>
      cases y with
      | error e' =>
          cases fault
          exact .fault e
      | ok b => cases fault
  | ok a =>
      cases y with
      | error e' => cases fault
      | ok b => exact .result (related a b rfl rfl)

namespace Engine

variable {engine : Engine} {catalog : Catalog} {bindings : Bindings} {a : Attribute} {id : String}
  {op single : Operator} {c : Combinator} {scalars : List Scalar}

/-- Plans match the same members if the trees that they were prepared from say the same. -/
theorem matchesAlike_of_holds {query query' : Query Operand} {plan plan' : Plan}
    (prepared : engine.prepare catalog bindings query = .ok plan)
    (prepared' : engine.prepare catalog bindings query' = .ok plan')
    (same : ∀ values, query.Holds (Rule.Means catalog bindings values) ↔
      query'.Holds (Rule.Means catalog bindings values)) : plan.MatchesAlike plan' := by
  intro values t t'
  rw [Bool.eq_iff_iff, evaluate_plan_iff prepared, evaluate_plan_iff prepared', same]

/-- What a rule about a set says, by its values. -/
theorem holds_ofSet_iff (defined : catalog.Defines id a) (unfolds : op.Unfolds c single)
    (nonempty : scalars ≠ []) (values : MemberValues) :
    (Query.ofSet id op scalars).Holds (Rule.Means catalog bindings values) ↔
      c.Over (fun s => single.Compares (values.get id) [a.standsFor s]) scalars := by
  rw [← unfolds.compares_iff nonempty]
  exact Rule.means_of_literal defined unfolds.takesOperand.1

/-- **A set operator is a group of rules about single values.**  Let an attribute have a type to
which the operator applies, and let the set be of any authored values, at least one.  Preparing the
rule fails with the same fault as preparing the group, or both are prepared, and then they match the
same members.  So it does not matter for an accepted rule in which order the values of the set are
listed and how often: any other list of the same values is accepted too, and matches the same
members. -/
theorem prepare_set_operator (defined : catalog.Defines id a) (unfolds : op.Unfolds c single)
    (allowed : op ∈ a.type.operators) (nonempty : scalars ≠ []) :
    EndAlike Plan.MatchesAlike (engine.prepare catalog bindings (.ofSet id op scalars))
        (engine.prepare catalog bindings (.ofSingles c id single scalars)) ∧
      ∀ scalars', (∀ s, s ∈ scalars' ↔ s ∈ scalars) →
        ∀ plan, engine.prepare catalog bindings (.ofSet id op scalars) = .ok plan →
          ∃ plan', engine.prepare catalog bindings (.ofSet id op scalars') = .ok plan' ∧
            plan.MatchesAlike plan' := by
  constructor
  · refine .of_fault? ?_ fun plan plan' prepared prepared' => ?_
    · rw [fault?_prepare_ofSet defined unfolds allowed,
        fault?_prepare_ofSingles defined unfolds allowed]
    · refine matchesAlike_of_holds prepared prepared' fun values => ?_
      rw [holds_ofSet_iff defined unfolds nonempty, Query.holds_ofSingles]
      simp only [Rule.means_of_literal defined unfolds.takesOperand.2]
      rfl
  · intro scalars' same plan prepared
    obtain ⟨s, hs⟩ := List.exists_mem_of_ne_nil _ nonempty
    have nonempty' : scalars' ≠ [] := List.ne_nil_of_mem ((same s).2 hs)
    have sound : fault? (engine.prepare catalog bindings (.ofSet id op scalars')) = none := by
      rw [fault?_prepare_ofSet_congr defined unfolds allowed same, prepared, fault?_ok]
    obtain ⟨plan', prepared'⟩ := fault?_eq_none_iff.1 sound
    refine ⟨plan', prepared', matchesAlike_of_holds prepared prepared' fun values => ?_⟩
    rw [holds_ofSet_iff defined unfolds nonempty, holds_ofSet_iff defined unfolds nonempty',
      Combinator.over_congr same]

/-- Two languages, one by its label and one by its id, and once more in another order with one of
them twice. -/
theorem prepare_set_operator_of_languages :
    ∃ (catalog : Catalog) (plan group plan' : Plan),
      catalog = ⟨"team", "org",
        [⟨"lang", "Languages", .multiSelect, [⟨"l1", "English"⟩, ⟨"l2", "German"⟩]⟩], []⟩ ∧
      ({} : Engine).prepare catalog {} (.ofSet "lang" .allIn [.text " english", .text "l2"])
        = .ok plan ∧
      ({} : Engine).prepare catalog {}
        (.ofSingles .and "lang" .equals [.text " english", .text "l2"]) = .ok group ∧
      ({} : Engine).prepare catalog {}
        (.ofSet "lang" .allIn [.text "l2", .text " english", .text "l2"]) = .ok plan' ∧
      plan.MatchesAlike group ∧ plan.MatchesAlike plan' := by
  have defined : (⟨"team", "org",
      [⟨"lang", "Languages", .multiSelect, [⟨"l1", "English"⟩, ⟨"l2", "German"⟩]⟩], []⟩ :
        Catalog).Defines "lang"
      ⟨"lang", "Languages", .multiSelect, [⟨"l1", "English"⟩, ⟨"l2", "German"⟩]⟩ :=
    Catalog.attribute?_eq_some_iff.1 rfl
  obtain ⟨alike, anyOrder⟩ := @prepare_set_operator {} _ {} _ "lang" .allIn .equals .and
    [.text " english", .text "l2"] defined .allIn (by decide) (by decide)
  obtain ⟨plan', prepared', same'⟩ := anyOrder [.text "l2", .text " english", .text "l2"]
    (by intro s; simp only [List.mem_cons, List.not_mem_nil]; tauto) _ rfl
  cases alike with
  | result same => exact ⟨_, _, _, plan', rfl, rfl, rfl, prepared', same, same'⟩

end Engine

end TeamRouting
