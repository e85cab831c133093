import Mathlib.Data.List.Basic
import TeamRouting.Proofs.Preparation
import TeamRouting.Proofs.Protocol

/-!
# Independence of the answers

The answers of a booking reach a run through the references of its trees and through nothing else,
and they never decide whether it fails: a tree is at fault because of what its author wrote.

Two runs of one input with different answers are compared.

* `fault?_resolveRule_eq`, `fault?_validateRule_eq` — neither pass fails on account of an answer;
* `Engine.fault?_prepare_eq` — so the trees are prepared in both runs, or are at fault in both;
* `Engine.prepare_congr` — answers that agree on the references of a tree prepare it alike;
* `Engine.run_bindings` — a run fails with the same fault whatever the answers are, and answers
  that agree on all references give equal outcomes.
-/

namespace TeamRouting

/-! ## References -/

/-- The reference that an operand is. -/
def Operand.reference? : Operand → Option Reference
  | literal _ => none
  | dynamic r => some r

/-- The references that occur in a tree, in document order. -/
def Query.references (query : Query Operand) : List Reference :=
  query.rules.filterMap fun r => r.operand.bind Operand.reference?

/-- The references that occur in the trees of an input. -/
def MatchInput.references (input : MatchInput) : List Reference :=
  (input.primary.toList ++ input.fallback.toList).flatMap Query.references

theorem MatchInput.mem_references {input : MatchInput} {ref : Reference} :
    ref ∈ input.references ↔
      ∃ q, (input.primary = some q ∨ input.fallback = some q) ∧ ref ∈ q.references := by
  simp only [references, List.mem_flatMap, List.mem_append, Option.mem_toList]

/-! ## Faults of rules -/

variable {known : NameSet} {catalog : Catalog} {b b' : Bindings}

theorem findSome?_congr {α β : Type} {f g : α → Option β} {xs : List α}
    (h : ∀ x ∈ xs, f x = g x) : xs.findSome? f = xs.findSome? g := by
  rw [← List.head?_filterMap, List.filterMap_congr h, List.head?_filterMap]

/-- Whether a source is known does not depend on its answers. -/
theorem fault?_resolveOperand_eq (known : NameSet) (b b' : Bindings) (operand : Operand) :
    fault? (resolveOperand known b operand) = fault? (resolveOperand known b' operand) := by
  cases operand with
  | literal value => rfl
  | dynamic r =>
      unfold resolveOperand
      dsimp only
      split
      · cases b.get? r <;> cases b'.get? r <;> rfl
      · rfl

theorem fault?_resolveRule_eq (known : NameSet) (b b' : Bindings) (r : Rule Operand) :
    fault? (resolveRule known b r) = fault? (resolveRule known b' r) := by
  obtain ⟨attributeId, op, operand⟩ := r
  cases operand with
  | none => rfl
  | some operand =>
      have h := fault?_resolveOperand_eq known b b' operand
      unfold resolveRule
      dsimp only
      cases hb : resolveOperand known b operand <;> cases hb' : resolveOperand known b' operand
      all_goals
        rw [hb, hb'] at h
        exact h

/-- A reference is never at fault in validation, whether it has a value or none. -/
theorem fault?_validateOperand_of_dynamic {op : Operator} {a : Attribute} {r : Reference}
    {o : ResolvedOperand} {unbound : List Reference}
    (h : resolveOperand known b (.dynamic r) = .ok (o, unbound)) :
    fault? (validateOperand op a o) = none := by
  rcases resolveOperand_cases h with ⟨value, hvalue, -⟩ | ⟨r', value, -, -, rfl⟩ | ⟨r', -, -, rfl⟩
  · cases hvalue
  · unfold validateOperand
    dsimp only
    split <;> rfl
  · rfl

theorem fault?_validateOperand_eq {op : Operator} {a : Attribute} {operand : Operand}
    {o o' : ResolvedOperand} {unbound unbound' : List Reference}
    (h : resolveOperand known b operand = .ok (o, unbound))
    (h' : resolveOperand known b' operand = .ok (o', unbound')) :
    fault? (validateOperand op a o) = fault? (validateOperand op a o') := by
  cases operand with
  | literal value =>
      cases h
      cases h'
      rfl
  | dynamic r =>
      rw [fault?_validateOperand_of_dynamic h, fault?_validateOperand_of_dynamic h']

/-- What validation finds wrong with a rule depends on its operand only by what it finds wrong with
that. -/
theorem fault?_validateRuleOn_congr {a : Attribute} {attributeId : String} {op : Operator}
    {o o' : ResolvedOperand}
    (h : fault? (validateOperand op a o) = fault? (validateOperand op a o')) :
    fault? (validateRuleOn a ⟨attributeId, op, some o⟩)
      = fault? (validateRuleOn a ⟨attributeId, op, some o'⟩) := by
  unfold validateRuleOn
  dsimp only
  split
  · rfl
  · split
    · rfl
    · cases ho : validateOperand op a o <;> cases ho' : validateOperand op a o'
      all_goals
        rw [ho, ho'] at h
        exact h

theorem fault?_validateRule_eq {r : Rule Operand} {s s' : Rule ResolvedOperand}
    {unbound unbound' : List Reference} (h : resolveRule known b r = .ok (s, unbound))
    (h' : resolveRule known b' r = .ok (s', unbound')) :
    fault? (validateRule catalog s) = fault? (validateRule catalog s') := by
  obtain ⟨hid, hop, hoperand⟩ := resolveRule_cases h
  obtain ⟨hid', hop', hoperand'⟩ := resolveRule_cases h'
  obtain ⟨attributeId, op, o⟩ := s
  obtain ⟨attributeId', op', o'⟩ := s'
  dsimp only at hid hop hoperand hid' hop' hoperand'
  subst hid hop hid' hop'
  unfold validateRule
  dsimp only
  cases catalog.attribute? r.attributeId with
  | none => rfl
  | some a =>
      rcases hoperand with ⟨hnone, rfl⟩ | ⟨operand, o, hsome, rfl, ho⟩
      · rcases hoperand' with ⟨-, rfl⟩ | ⟨operand', o', hsome', -, -⟩
        · rfl
        · rw [hnone] at hsome'
          cases hsome'
      · rcases hoperand' with ⟨hnone', -⟩ | ⟨operand', o', hsome', rfl, ho'⟩
        · rw [hsome] at hnone'
          cases hnone'
        · obtain rfl := Option.some.inj (hsome.symm.trans hsome')
          exact fault?_validateRuleOn_congr (fault?_validateOperand_eq ho ho')

/-! ## Faults of trees -/

namespace Query

theorem fault?_resolve (query : Query Operand) :
    fault? (query.resolve known b)
      = query.rules.findSome? fun r => fault? (resolveRule known b r) := by
  rw [← fault?_traverse, resolve]
  cases query.traverse (resolveRule known b) <;> rfl

theorem fault?_validate (tree : Query ResolvedOperand) :
    fault? (tree.validate catalog)
      = tree.rules.findSome? fun r => fault? (validateRule catalog r) := by
  rw [← fault?_traverse, validate]
  cases tree.traverse (validateRule catalog) <;> rfl

theorem fault?_resolve_eq (known : NameSet) (b b' : Bindings) (query : Query Operand) :
    fault? (query.resolve known b) = fault? (query.resolve known b') := by
  rw [fault?_resolve, fault?_resolve]
  exact findSome?_congr fun r _ => fault?_resolveRule_eq known b b' r

/-- What a tree resolves to with one set of answers or another has the same fault. -/
theorem fault?_validate_eq (catalog : Catalog) {query : Query Operand}
    {resolution resolution' : Resolution}
    (h : query.resolve known b = .ok resolution) (h' : query.resolve known b' = .ok resolution') :
    fault? (resolution.tree.validate catalog) = fault? (resolution'.tree.validate catalog) := by
  obtain ⟨g, htree, hg⟩ := exists_of_resolve h
  obtain ⟨g', htree', hg'⟩ := exists_of_resolve h'
  rw [fault?_validate, fault?_validate, htree, htree', rules_mapRules, rules_mapRules,
    List.findSome?_map, List.findSome?_map]
  refine findSome?_congr fun r hr => ?_
  obtain ⟨unbound, hr₁⟩ := hg r hr
  obtain ⟨unbound', hr₂⟩ := hg' r hr
  exact fault?_validateRule_eq hr₁ hr₂

end Query

/-! ## Answers that agree -/

theorem resolveRule_congr {r : Rule Operand}
    (agree : ∀ ref, r.operand.bind Operand.reference? = some ref → b.get? ref = b'.get? ref) :
    resolveRule known b r = resolveRule known b' r := by
  obtain ⟨attributeId, op, operand⟩ := r
  cases operand with
  | none => rfl
  | some operand =>
      cases operand with
      | literal value => rfl
      | dynamic ref =>
          have hget : b.get? ref = b'.get? ref := agree ref rfl
          simp only [resolveRule, resolveOperand, hget]

/-- Answers that agree on the references of a tree resolve it alike. -/
theorem Query.resolve_congr {query : Query Operand}
    (agree : ∀ ref ∈ query.references, b.get? ref = b'.get? ref) :
    query.resolve known b = query.resolve known b' := by
  have hwalk : query.traverse (resolveRule known b) = query.traverse (resolveRule known b') := by
    refine traverse_congr query fun r hr => resolveRule_congr fun ref href => ?_
    exact agree ref (List.mem_filterMap.2 ⟨r, hr, href⟩)
  rw [resolve, resolve, hwalk]

/-! ## Runs -/

namespace Engine

/-- **A tree is prepared whatever the answers are, or at fault whatever they are.** -/
theorem fault?_prepare_eq (engine : Engine) (catalog : Catalog) (b b' : Bindings)
    (query : Query Operand) :
    fault? (engine.prepare catalog b query) = fault? (engine.prepare catalog b' query) := by
  have hresolve := Query.fault?_resolve_eq engine.sources b b' query
  unfold prepare
  cases hr : query.resolve engine.sources b with
  | error e =>
      cases hr' : query.resolve engine.sources b' with
      | error e' =>
          rw [hr, hr'] at hresolve
          exact hresolve
      | ok resolution' =>
          rw [hr, hr'] at hresolve
          cases hresolve
  | ok resolution =>
      cases hr' : query.resolve engine.sources b' with
      | error e' =>
          rw [hr, hr'] at hresolve
          cases hresolve
      | ok resolution' =>
          have hvalidate := Query.fault?_validate_eq catalog hr hr'
          dsimp only
          cases hv : resolution.tree.validate catalog <;>
            cases hv' : resolution'.tree.validate catalog
          all_goals
            rw [hv, hv'] at hvalidate
            exact hvalidate

theorem fault?_prepare?_eq (engine : Engine) (catalog : Catalog) (b b' : Bindings)
    (query : Option (Query Operand)) :
    fault? (engine.prepare? catalog b query) = fault? (engine.prepare? catalog b' query) := by
  cases query with
  | none => rfl
  | some query =>
      show fault? ((engine.prepare catalog b query).map some)
        = fault? ((engine.prepare catalog b' query).map some)
      rw [fault?_map, fault?_map, fault?_prepare_eq engine catalog b b']

variable {engine : Engine}

theorem prepare_congr {query : Query Operand}
    (agree : ∀ ref ∈ query.references, b.get? ref = b'.get? ref) :
    engine.prepare catalog b query = engine.prepare catalog b' query := by
  rw [prepare, prepare, Query.resolve_congr agree]

theorem prepare?_congr {query : Option (Query Operand)}
    (agree : ∀ q ∈ query, ∀ ref ∈ q.references, b.get? ref = b'.get? ref) :
    engine.prepare? catalog b query = engine.prepare? catalog b' query := by
  cases query with
  | none => rfl
  | some q => rw [prepare?, prepare?, prepare_congr (agree q rfl)]

/-- **The answers of a booking never decide whether a run fails, and none leaks in but through a
reference.**  With any two sets of answers the run fails with the same fault or not at all; and if
they agree on every reference in the two trees, the runs give equal outcomes. -/
theorem run_bindings (engine : Engine) (catalog : Catalog) (input : MatchInput) (b b' : Bindings)
    (signal : Signal) :
    (∀ e, engine.run catalog { input with bindings := b } signal = .error e ↔
        engine.run catalog { input with bindings := b' } signal = .error e) ∧
      ((∀ ref ∈ input.references, b.get? ref = b'.get? ref) →
        engine.run catalog { input with bindings := b } signal
          = engine.run catalog { input with bindings := b' } signal) := by
  by_cases nothing : input.DecidesNothing
  · obtain ⟨o, -, hrun⟩ := @run_of_nothing engine catalog input nothing
    have hsame : engine.run catalog { input with bindings := b } signal
        = engine.run catalog { input with bindings := b' } signal :=
      (hrun b input.fallback signal).trans (hrun b' input.fallback signal).symm
    exact ⟨fun e => by rw [hsame], fun _ => hsame⟩
  · rw [MatchInput.DecidesNothing] at nothing
    push Not at nothing
    obtain ⟨primary, given, rules⟩ := nothing
    have hrun : ∀ bindings, engine.run catalog { input with bindings := bindings } signal
        = (engine.prepare catalog bindings primary).bind fun plan =>
          (engine.prepare? catalog bindings input.fallback).map
            (engine.conclude signal catalog input.explain plan) :=
      fun bindings => @run_of_rules engine catalog { input with bindings := bindings } primary
        signal given rules
    constructor
    · intro e
      rw [← fault?_eq_some_iff, ← fault?_eq_some_iff, hrun, hrun, fault?_bind_map, fault?_bind_map,
        fault?_prepare_eq engine catalog b b', fault?_prepare?_eq engine catalog b b']
    · intro agree
      have hprimary : engine.prepare catalog b primary = engine.prepare catalog b' primary := by
        refine prepare_congr fun ref href => agree ref ?_
        exact MatchInput.mem_references.2 ⟨primary, Or.inl given, href⟩
      have hfallback : engine.prepare? catalog b input.fallback
          = engine.prepare? catalog b' input.fallback := by
        refine prepare?_congr fun q hq ref href => agree ref ?_
        exact MatchInput.mem_references.2 ⟨q, Or.inr hq, href⟩
      rw [hrun, hrun, hprimary, hfallback]

/-- A blank answer to the one question that a tree asks, and no answer to it but one to another
question: the runs give equal outcomes. -/
theorem run_bindings_of_blank_answer :
    (∀ ref ∈ ({ primary := some (.rule ⟨"region", .equals,
          some (.dynamic ⟨"field", "region"⟩)⟩) } : MatchInput).references,
        (⟨⟨[("field", ⟨[("region", .single (.text " "))]⟩)]⟩⟩ : Bindings).get? ref
          = (⟨⟨[("field", ⟨[("language", .single (.text "es"))]⟩)]⟩⟩ : Bindings).get? ref) ∧
      ({} : Engine).run ⟨"team", "org", [⟨"region", "Region", .text, []⟩],
          [⟨"a", ⟨[("region", ["eu"])]⟩⟩]⟩
          { primary := some (.rule ⟨"region", .equals, some (.dynamic ⟨"field", "region"⟩)⟩),
            bindings := ⟨⟨[("field", ⟨[("region", .single (.text " "))]⟩)]⟩⟩ } .never
        = ({} : Engine).run ⟨"team", "org", [⟨"region", "Region", .text, []⟩],
          [⟨"a", ⟨[("region", ["eu"])]⟩⟩]⟩
          { primary := some (.rule ⟨"region", .equals, some (.dynamic ⟨"field", "region"⟩)⟩),
            bindings := ⟨⟨[("field", ⟨[("language", .single (.text "es"))]⟩)]⟩⟩ } .never := by
  have agree : ∀ ref ∈ ({ primary := some (.rule ⟨"region", .equals,
        some (.dynamic ⟨"field", "region"⟩)⟩) } : MatchInput).references,
      (⟨⟨[("field", ⟨[("region", .single (.text " "))]⟩)]⟩⟩ : Bindings).get? ref
        = (⟨⟨[("field", ⟨[("language", .single (.text "es"))]⟩)]⟩⟩ : Bindings).get? ref := by
    decide
  exact ⟨agree, (run_bindings _ _ _ _ _ .never).2 agree⟩

end Engine

end TeamRouting
