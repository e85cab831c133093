import TeamRouting.Proofs.Traversal
import TeamRouting.Validation

/-!
# What preparation does to a tree

Resolution and validation replace the rules of a tree one by one.  This file says what becomes of
each of them, so that nothing else needs to look into the two passes.

* `resolveOperand_cases`, `resolveRule_cases` — what resolution leaves of an operand and a rule;
* `ValidatesTo`, `validateRule_cases` — what validation leaves of an operand and a rule, and what it
  has checked then;
* `exists_of_resolve_validate` — both passes together are one replacement of the rules of a tree.
-/

namespace TeamRouting

/-! ## Resolution -/

/-- What resolution leaves of an operand: the literal, the value bound to the reference, or the
mere reference if there is no value. -/
theorem resolveOperand_cases {known : NameSet} {bindings : Bindings} {operand : Operand}
    {resolved : ResolvedOperand} {unbound : List Reference}
    (h : resolveOperand known bindings operand = .ok (resolved, unbound)) :
    (∃ value, operand = .literal value ∧ resolved = .static value) ∨
      (∃ r value, operand = .dynamic r ∧ bindings.get? r = some value ∧
        resolved = .bound value r) ∨
      ∃ r, operand = .dynamic r ∧ bindings.get? r = none ∧ resolved = .indeterminate r := by
  cases operand with
  | literal value =>
      cases h
      exact Or.inl ⟨value, rfl, rfl⟩
  | dynamic r =>
      unfold resolveOperand at h
      dsimp only at h
      split at h
      · cases hget : bindings.get? r with
        | none =>
            rw [hget] at h
            cases h
            exact Or.inr (Or.inr ⟨r, rfl, hget, rfl⟩)
        | some value =>
            rw [hget] at h
            cases h
            exact Or.inr (Or.inl ⟨r, value, rfl, hget, rfl⟩)
      · cases h

/-- A resolved rule keeps its attribute and its operator. -/
theorem resolveRule_cases {known : NameSet} {bindings : Bindings} {r : Rule Operand}
    {resolved : Rule ResolvedOperand} {unbound : List Reference}
    (h : resolveRule known bindings r = .ok (resolved, unbound)) :
    resolved.attributeId = r.attributeId ∧ resolved.operator = r.operator ∧
      (r.operand = none ∧ resolved.operand = none ∨
        ∃ operand o, r.operand = some operand ∧ resolved.operand = some o ∧
          resolveOperand known bindings operand = .ok (o, unbound)) := by
  obtain ⟨attributeId, op, operand⟩ := r
  cases operand with
  | none =>
      cases h
      exact ⟨rfl, rfl, Or.inl ⟨rfl, rfl⟩⟩
  | some operand =>
      unfold resolveRule at h
      dsimp only at h
      cases ho : resolveOperand known bindings operand with
      | error e =>
          rw [ho] at h
          cases h
      | ok o =>
          rw [ho] at h
          cases h
          exact ⟨rfl, rfl, Or.inr ⟨operand, o.1, rfl, rfl, ho⟩⟩

/-- A resolution is a walk, after which each of the references that it noted is kept once. -/
theorem Query.resolve_eq_map {known : NameSet} {bindings : Bindings} {query : Query Operand} :
    query.resolve known bindings =
      (query.traverse (resolveRule known bindings)).map fun p => ⟨p.1, p.2.eraseDups⟩ := by
  rw [resolve]
  cases query.traverse (resolveRule known bindings) <;> rfl

/-- A resolution is a walk that succeeds, with each of the references that it noted once. -/
theorem Query.resolve_eq_ok_iff {known : NameSet} {bindings : Bindings} {query : Query Operand}
    {resolution : Resolution} : query.resolve known bindings = .ok resolution ↔
      ∃ noted, query.traverse (resolveRule known bindings) = .ok (resolution.tree, noted) ∧
        resolution.unbound = noted.eraseDups := by
  obtain ⟨tree, unbound⟩ := resolution
  rw [resolve]
  cases query.traverse (resolveRule known bindings) with
  | error e => simp
  | ok p =>
      constructor
      · rintro ⟨⟩
        exact ⟨p.2, rfl, rfl⟩
      · rintro ⟨noted, ⟨⟩, rfl⟩
        rfl

theorem exists_of_resolve {known : NameSet} {bindings : Bindings} {query : Query Operand}
    {resolution : Resolution} (h : query.resolve known bindings = .ok resolution) :
    ∃ g : Rule Operand → Rule ResolvedOperand, resolution.tree = query.mapRules g ∧
      ∀ r ∈ query.rules, ∃ unbound, resolveRule known bindings r = .ok (g r, unbound) := by
  unfold Query.resolve at h
  cases hr : query.traverse (resolveRule known bindings) with
  | error e =>
      rw [hr] at h
      cases h
  | ok p =>
      rw [hr] at h
      cases h
      obtain ⟨g, unbound, hg, rfl⟩ := Query.exists_of_traverse_ok hr
      exact ⟨g, rfl, fun r hmem => ⟨unbound r, hg r hmem⟩⟩

/-! ## Validation -/

/-- What validation makes of an operand, and what it notes: an authored value that fits takes its
form, and so does a supplied one; a supplied value that does not fit is noted and leaves its
reference without a value. -/
inductive ValidatesTo (op : Operator) (a : Attribute) :
    ResolvedOperand → ResolvedOperand → List Misfit → Prop
  | static {value form : Literal} (fits : flaw? op a value = none)
      (hform : authoredForm a value = .ok form) :
      ValidatesTo op a (.static value) (.static form) []
  | bound {value : Literal} (ref : Reference) (fits : flaw? op a value = none) :
      ValidatesTo op a (.bound value ref) (.bound (suppliedForm a value) ref) []
  | misfit {value : Literal} {flaw : OperandFlaw} (ref : Reference)
      (hflaw : flaw? op a value = some flaw) :
      ValidatesTo op a (.bound value ref) (.indeterminate ref) [⟨ref, op, a.id, flaw⟩]
  | indeterminate (ref : Reference) :
      ValidatesTo op a (.indeterminate ref) (.indeterminate ref) []

theorem validatesTo_of_ok {op : Operator} {a : Attribute} {o form : ResolvedOperand}
    {misfits : List Misfit} (h : validateOperand op a o = .ok (form, misfits)) :
    ValidatesTo op a o form misfits := by
  cases o with
  | static value =>
      rw [validateOperand] at h
      split at h
      · cases h
      · next hfits =>
        cases hform : authoredForm a value with
        | error e =>
            rw [hform] at h
            cases h
        | ok form' =>
            rw [hform] at h
            cases h
            exact .static hfits hform
  | bound value ref =>
      rw [validateOperand] at h
      split at h
      · next hflaw =>
        cases h
        exact .misfit ref hflaw
      · next hfits =>
        cases h
        exact .bound ref hfits
  | indeterminate ref =>
      cases h
      exact .indeterminate ref

/-- A validated rule keeps its attribute and its operator, which applies to the attribute; its
operand is validated if the operator takes one. -/
theorem validateRule_cases {catalog : Catalog} {r validated : Rule ResolvedOperand}
    {misfits : List Misfit} (h : validateRule catalog r = .ok (validated, misfits)) :
    validated.attributeId = r.attributeId ∧ validated.operator = r.operator ∧
      ∃ a, catalog.attribute? r.attributeId = some a ∧
        a.type.operators.contains r.operator = true ∧
        (r.operator.takesOperand = false ∨ r.operator.takesOperand = true ∧
          ∃ o form, r.operand = some o ∧ validated.operand = some form ∧
            validateOperand r.operator a o = .ok (form, misfits)) := by
  obtain ⟨attributeId, op, operand⟩ := r
  unfold validateRule at h
  cases ha : catalog.attribute? attributeId with
  | none =>
      rw [ha] at h
      cases h
  | some a =>
      rw [ha] at h
      unfold validateRuleOn at h
      dsimp only at h
      split at h
      · cases h
      · next hallowed =>
        rw [Bool.not_eq_true', Bool.not_eq_false] at hallowed
        split at h
        · next htakes =>
          rw [Bool.not_eq_true'] at htakes
          cases h
          exact ⟨rfl, rfl, a, rfl, hallowed, Or.inl htakes⟩
        · next htakes =>
          rw [Bool.not_eq_true', Bool.not_eq_false] at htakes
          cases operand with
          | none => cases h
          | some o =>
              dsimp only at h
              cases hform : validateOperand op a o with
              | error e =>
                  rw [hform] at h
                  cases h
              | ok p =>
                  rw [hform] at h
                  cases h
                  exact ⟨rfl, rfl, a, rfl, hallowed, Or.inr ⟨htakes, o, p.1, rfl, rfl, hform⟩⟩

/-- A validation is a walk, with what it noted. -/
theorem Query.validate_eq_map {catalog : Catalog} {tree : Query ResolvedOperand} :
    tree.validate catalog = (tree.traverse (validateRule catalog)).map fun p => ⟨p.1, p.2⟩ := by
  rw [validate]
  cases tree.traverse (validateRule catalog) <;> rfl

/-- A validation is a walk that succeeds, with what it noted. -/
theorem Query.validate_eq_ok_iff {catalog : Catalog} {tree : Query ResolvedOperand}
    {validation : Validation} : tree.validate catalog = .ok validation ↔
      tree.traverse (validateRule catalog) = .ok (validation.tree, validation.misfits) := by
  obtain ⟨validated, misfits⟩ := validation
  rw [validate]
  cases tree.traverse (validateRule catalog) with
  | error e => simp
  | ok p => simp [Prod.ext_iff]

/-! ## Both passes -/

/-- Resolution and validation together are one replacement of the rules of a tree. -/
theorem exists_of_resolve_validate {known : NameSet} {bindings : Bindings} {catalog : Catalog}
    {query : Query Operand} {resolution : Resolution} {validation : Validation}
    (hresolve : query.resolve known bindings = .ok resolution)
    (hvalidate : resolution.tree.validate catalog = .ok validation) :
    ∃ g : Rule Operand → Rule ResolvedOperand, validation.tree = query.mapRules g ∧
      ∀ r ∈ query.rules, ∃ resolved unbound misfits,
        resolveRule known bindings r = .ok (resolved, unbound) ∧
          validateRule catalog resolved = .ok (g r, misfits) := by
  obtain ⟨resolved, htree, hresolved⟩ := exists_of_resolve hresolve
  unfold Query.validate at hvalidate
  rw [htree, Query.traverse_mapRules] at hvalidate
  cases hv : query.traverse (validateRule catalog ∘ resolved) with
  | error e =>
      rw [hv] at hvalidate
      cases hvalidate
  | ok p =>
      rw [hv] at hvalidate
      cases hvalidate
      obtain ⟨validated, misfits, hvalidated, rfl⟩ := Query.exists_of_traverse_ok hv
      refine ⟨validated, rfl, fun r hmem => ?_⟩
      obtain ⟨unbound, hr⟩ := hresolved r hmem
      exact ⟨resolved r, unbound, misfits r, hr, hvalidated r hmem⟩

end TeamRouting
