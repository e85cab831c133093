import Mathlib.Data.List.Basic
import TeamRouting.Proofs.Acceptance
import TeamRouting.Proofs.BindingIndependence

/-!
# What preparing a tree has to say

Resolution tells of the references without an answer, and validation of the answers that do not fit
the rules that they are for.  Both can be read off the authored tree, the catalog and the answers:
no pass has to be made for it, and the order is that of the document.

* `Query.unbound` — the references of a tree without an answer;
* `Rule.misfit?`, `Query.misfits` — the answers that do not fit;
* `Query.notices` — the warnings about both;
* `Engine.warnings_of_prepare` — and these are the warnings of a prepared tree.
-/

namespace TeamRouting

/-! ## Notices -/

/-- The references of a tree without an answer, each of them once, in the order in which they first
occur. -/
def Query.unbound (bindings : Bindings) (query : Query Operand) : List Reference :=
  (query.references.filter fun ref => (bindings.get? ref).isNone).eraseDups

/-- The answer to a reference that does not fit an operator on an attribute. -/
def Operand.misfit? (bindings : Bindings) (op : Operator) (a : Attribute) :
    Operand → Option Misfit
  | literal _ => none
  | dynamic reference => do
    let value ← bindings.get? reference
    let flaw ← flaw? op a value
    return ⟨reference, op, a.id, flaw⟩

/-- The answer that is meant for a rule but does not fit it.  Rules that take no operand do not look
at answers. -/
def Rule.misfit? (catalog : Catalog) (bindings : Bindings) (r : Rule Operand) : Option Misfit :=
  if r.operator.takesOperand then do
    let a ← catalog.attribute? r.attributeId
    let operand ← r.operand
    operand.misfit? bindings r.operator a
  else
    none

/-- The answers that do not fit the rules of a tree, in document order. -/
def Query.misfits (catalog : Catalog) (bindings : Bindings) (query : Query Operand) :
    List Misfit :=
  query.rules.filterMap (Rule.misfit? catalog bindings)

/-- **What there is to say about a tree** before any member is looked at: its references without an
answer first, then the answers that do not fit. -/
def Query.notices (catalog : Catalog) (bindings : Bindings) (query : Query Operand) :
    List String :=
  (query.unbound bindings).map Reference.unboundWarning ++
    (query.misfits catalog bindings).map Misfit.warning

/-! ## Resolution -/

section Resolution

variable {known : NameSet} {bindings : Bindings}

/-- What resolution notes about an operand is its reference, if that has no answer. -/
theorem noted_of_resolveOperand {operand : Operand} {resolved : ResolvedOperand}
    {noted : List Reference} (h : resolveOperand known bindings operand = .ok (resolved, noted)) :
    noted = operand.reference?.toList.filter fun ref => (bindings.get? ref).isNone := by
  cases operand with
  | literal value =>
      cases h
      rfl
  | dynamic ref =>
      unfold resolveOperand at h
      dsimp only at h
      split at h
      · cases hget : bindings.get? ref with
        | none =>
            rw [hget] at h
            cases h
            simp [Operand.reference?, hget]
        | some value =>
            rw [hget] at h
            cases h
            simp [Operand.reference?, hget]
      · cases h

theorem noted_of_resolveRule {r : Rule Operand} {resolved : Rule ResolvedOperand}
    {noted : List Reference} (h : resolveRule known bindings r = .ok (resolved, noted)) :
    noted = (r.operand.bind Operand.reference?).toList.filter
      fun ref => (bindings.get? ref).isNone := by
  obtain ⟨attributeId, op, operand⟩ := r
  cases operand with
  | none =>
      cases h
      rfl
  | some operand =>
      unfold resolveRule at h
      dsimp only at h
      cases ho : resolveOperand known bindings operand with
      | error e =>
          rw [ho] at h
          cases h
      | ok p =>
          rw [ho] at h
          cases h
          exact noted_of_resolveOperand ho

/-- **A resolution tells of the references without an answer.** -/
theorem unbound_of_resolve {query : Query Operand} {resolution : Resolution}
    (h : query.resolve known bindings = .ok resolution) :
    resolution.unbound = query.unbound bindings := by
  obtain ⟨noted, htraverse, hunbound⟩ := Query.resolve_eq_ok_iff.1 h
  obtain ⟨g, notes, hstep, hp⟩ := Query.exists_of_traverse_ok htraverse
  have hnoted : noted = query.rules.flatMap notes := congrArg Prod.snd hp
  have hnotes : ∀ r ∈ query.rules, notes r = _ := fun r hr => noted_of_resolveRule (hstep r hr)
  rw [hunbound, hnoted, Query.unbound, Query.references, List.flatMap_congr hnotes,
    List.filterMap_eq_flatMap_toList, List.filter_flatMap]

end Resolution

/-! ## Validation -/

section Validation

variable {known : NameSet} {catalog : Catalog} {bindings : Bindings}

/-- What validation notes about an operand is the answer that is meant for it, if that does not
fit. -/
theorem misfits_of_validateOperand {op : Operator} {a : Attribute} {operand : Operand}
    {resolved form : ResolvedOperand} {noted : List Reference} {misfits : List Misfit}
    (hresolve : resolveOperand known bindings operand = .ok (resolved, noted))
    (hvalidate : validateOperand op a resolved = .ok (form, misfits)) :
    misfits = (operand.misfit? bindings op a).toList := by
  have hform := validatesTo_of_ok hvalidate
  rcases resolveOperand_cases hresolve with ⟨value, rfl, rfl⟩ | ⟨ref, value, rfl, hget, rfl⟩ |
    ⟨ref, rfl, hget, rfl⟩
  · cases hform
    rfl
  · cases hform with
    | bound _ fits => simp [Operand.misfit?, hget, fits]
    | misfit _ hflaw => simp [Operand.misfit?, hget, hflaw]
  · cases hform
    simp [Operand.misfit?, hget]

theorem misfits_of_validateRule {r : Rule Operand} {resolved validated : Rule ResolvedOperand}
    {noted : List Reference} {misfits : List Misfit}
    (hresolve : resolveRule known bindings r = .ok (resolved, noted))
    (hvalidate : validateRule catalog resolved = .ok (validated, misfits)) :
    misfits = (r.misfit? catalog bindings).toList := by
  obtain ⟨hid, hop, hoperand⟩ := resolveRule_cases hresolve
  obtain ⟨-, -, a, ha, hallowed, idle | ⟨takes, o, form, ho, -, hform⟩⟩ :=
    validateRule_cases hvalidate
  · have defined := Catalog.attribute?_eq_some_iff.1 ha
    have allowed : resolved.operator ∈ a.type.operators := List.contains_iff_mem.1 hallowed
    rw [validateRule_of_defines defined, validateRuleOn_of_idle allowed idle] at hvalidate
    cases hvalidate
    rw [hop] at idle
    simp [Rule.misfit?, idle]
  · rw [hop] at takes hform
    rw [hid] at ha
    obtain ⟨-, hnone⟩ | ⟨operand, o', hr, ho', hresolved⟩ := hoperand
    · rw [hnone] at ho
      cases ho
    · cases ho.symm.trans ho'
      rw [misfits_of_validateOperand hresolved hform, Rule.misfit?, if_pos takes, ha, hr]
      rfl

/-- **A validation tells of the answers that do not fit.** -/
theorem misfits_of_validate {query : Query Operand} {resolution : Resolution}
    {validation : Validation} (hresolve : query.resolve known bindings = .ok resolution)
    (hvalidate : resolution.tree.validate catalog = .ok validation) :
    validation.misfits = query.misfits catalog bindings := by
  obtain ⟨resolved, htree, hresolved⟩ := exists_of_resolve hresolve
  have htraverse := Query.validate_eq_ok_iff.1 hvalidate
  rw [htree, Query.traverse_mapRules] at htraverse
  obtain ⟨g, notes, hstep, hp⟩ := Query.exists_of_traverse_ok htraverse
  have hmisfits : validation.misfits = query.rules.flatMap notes := congrArg Prod.snd hp
  have hnotes : ∀ r ∈ query.rules, notes r = (r.misfit? catalog bindings).toList := by
    intro r hr
    obtain ⟨noted, hrule⟩ := hresolved r hr
    exact misfits_of_validateRule hrule (hstep r hr)
  rw [hmisfits, Query.misfits, List.flatMap_congr hnotes, List.filterMap_eq_flatMap_toList]

end Validation

/-- **The warnings of a prepared tree** are what there is to say about the authored one. -/
theorem Engine.warnings_of_prepare {engine : Engine} {catalog : Catalog} {bindings : Bindings}
    {query : Query Operand} {plan : Plan} (h : engine.prepare catalog bindings query = .ok plan) :
    plan.warnings = query.notices catalog bindings := by
  obtain ⟨resolution, validation, hresolve, hvalidate, rfl⟩ := prepare_eq_ok_iff.1 h
  rw [Query.notices, ← unbound_of_resolve hresolve, ← misfits_of_validate hresolve hvalidate]
  rfl

end TeamRouting
