import TeamRouting.Proofs.Notices

/-!
# What resolution does to a tree

Resolution can be described without a walk.  The first reference that names a source which does not
exist is its only fault; otherwise each operand is settled by itself, in its place, and the
references without an answer are told of once each.  Nothing of the authored tree is lost on the
way.

* `Operand.settle` — what becomes of one operand;
* `resolveRule_of_known`, `fault?_resolveRule` — what becomes of one rule, and when it is at fault;
* `Resolution.Restores` — a resolution from which the authored tree can be read off again;
* `Query.resolve_restores` — every resolution is one, unless a source does not exist.
-/

namespace TeamRouting

/-! ## Operands and rules -/

/-- What becomes of an operand: a literal stays as it is, and a reference gets the value that it is
bound to, or none. -/
def Operand.settle (bindings : Bindings) : Operand → ResolvedOperand
  | literal value => .static value
  | dynamic ref => ((bindings.get? ref).map (.bound · ref)).getD (.indeterminate ref)

theorem authored_settle (bindings : Bindings) (operand : Operand) :
    (operand.settle bindings).authored = operand := by
  cases operand with
  | literal value => rfl
  | dynamic ref =>
      rw [Operand.settle]
      cases bindings.get? ref <;> rfl

theorem bound_of_settle {bindings : Bindings} {operand : Operand} {value : Literal}
    {ref : Reference} (h : operand.settle bindings = .bound value ref) :
    bindings.get? ref = some value := by
  cases operand with
  | literal _ => cases h
  | dynamic ref' =>
      rw [Operand.settle] at h
      cases hget : bindings.get? ref' with
      | none =>
          rw [hget] at h
          cases h
      | some value' =>
          rw [hget] at h
          cases h
          exact hget

section Rules

variable (known : NameSet) (bindings : Bindings)

theorem resolveOperand_of_known {operand : Operand}
    (h : ∀ ref ∈ operand.reference?, known.contains ref.source = true) :
    resolveOperand known bindings operand = .ok (operand.settle bindings,
      operand.reference?.toList.filter fun ref => (bindings.get? ref).isNone) := by
  cases operand with
  | literal value => rfl
  | dynamic ref =>
      rw [resolveOperand, if_pos (h ref rfl), Operand.settle]
      cases hget : bindings.get? ref <;> simp [Operand.reference?, hget]

/-- **A rule whose source exists** keeps all but its operand, which is settled. -/
theorem resolveRule_of_known {r : Rule Operand}
    (h : ∀ ref ∈ r.operand.bind Operand.reference?, known.contains ref.source = true) :
    resolveRule known bindings r =
      .ok (⟨r.attributeId, r.operator, r.operand.map (Operand.settle bindings)⟩,
        (r.operand.bind Operand.reference?).toList.filter
          fun ref => (bindings.get? ref).isNone) := by
  obtain ⟨attributeId, op, operand⟩ := r
  cases operand with
  | none => rfl
  | some operand =>
      have hoperand := resolveOperand_of_known known bindings h
      simp only [resolveRule, hoperand, Option.map_some, Option.bind_some]

/-- **A rule is at fault** if its reference names a source that does not exist, and for nothing
else. -/
theorem fault?_resolveRule (r : Rule Operand) :
    fault? (resolveRule known bindings r) =
      ((r.operand.bind Operand.reference?).filter fun ref => !known.contains ref.source).map
        .unknownSource := by
  obtain ⟨attributeId, op, operand⟩ := r
  rcases operand with _ | value | ref
  · rfl
  · rfl
  · cases hknown : known.contains ref.source with
    | false => simp [resolveRule, resolveOperand, Operand.reference?, hknown]
    | true =>
        rw [resolveRule_of_known known bindings fun _ h => by cases h; exact hknown]
        simp [Operand.reference?, hknown]

end Rules

/-! ## First occurrences -/

/-- Of the elements that are kept, each is listed once, in the order in which they first occur among
all. -/
theorem pairwise_idxOf_eraseDups {α : Type} [BEq α] [LawfulBEq α] (xs : List α) (p : α → Bool) :
    (xs.filter p).eraseDups.Pairwise fun x y => xs.idxOf x < xs.idxOf y := by
  induction xs generalizing p with
  | nil => exact .nil
  | cons a xs ih =>
      -- behind `a` the elements other than `a` keep their order
      have behind : ∀ ys : List α, a ∉ ys → (ys.Pairwise fun x y => xs.idxOf x < xs.idxOf y) →
          ys.Pairwise fun x y => (a :: xs).idxOf x < (a :: xs).idxOf y := by
        intro ys hys h
        refine h.imp_of_mem fun {x y} hx hy hxy => ?_
        rw [List.idxOf_cons_ne xs (ne_of_mem_of_not_mem hx hys).symm,
          List.idxOf_cons_ne xs (ne_of_mem_of_not_mem hy hys).symm]
        exact Nat.succ_lt_succ hxy
      by_cases ha : p a = true
      · have hrest : a ∉ ((xs.filter p).filter fun b => !b == a).eraseDups := by
          simp [List.mem_eraseDups]
        rw [List.filter_cons_of_pos ha, List.eraseDups_cons, List.pairwise_cons]
        refine ⟨fun y hy => ?_, behind _ hrest ?_⟩
        · rw [List.idxOf_cons_self, List.idxOf_cons_ne xs (ne_of_mem_of_not_mem hy hrest).symm]
          exact Nat.succ_pos _
        · rw [List.filter_filter]
          exact ih _
      · rw [List.filter_cons_of_neg ha]
        exact behind _ (by simp [List.mem_eraseDups, ha]) (ih p)

/-! ## Trees -/

/-- What a resolution keeps of the authored tree, and what it adds. -/
structure Resolution.Restores (bindings : Bindings) (query : Query Operand)
    (resolution : Resolution) : Prop where
  /-- every operand is settled in its place -/
  tree : resolution.tree = query.mapOperands (Operand.settle bindings)
  /-- the authored tree is found again -/
  authored : resolution.tree.mapOperands ResolvedOperand.authored = query
  /-- no value that was supplied is blank -/
  supplied : ∀ r ∈ resolution.tree.rules, ∀ value ref,
    r.operand = some (.bound value ref) → bindings.get? ref = some value ∧ value.isBlank = false
  /-- there is one warning for each reference without an answer, in the order in which they first
  occur -/
  warnings : ∃ unbound : List Reference,
    resolution.warnings = unbound.map Reference.unboundWarning ∧
      (∀ ref, ref ∈ unbound ↔ ref ∈ query.references ∧ bindings.get? ref = none) ∧
      unbound.Pairwise fun ref ref' => query.references.idxOf ref < query.references.idxOf ref'

namespace Query

variable {ω ω' : Type}

mutual

theorem mapRules_id : ∀ q : Query ω, mapRules id q = q
  | .group _ qs => by rw [mapRules, mapRulesOfAll_id qs]
  | .rule _ => rfl

theorem mapRulesOfAll_id : ∀ qs : List (Query ω), mapRulesOfAll id qs = qs
  | [] => rfl
  | q :: qs => by rw [mapRulesOfAll, mapRules_id q, mapRulesOfAll_id qs]

end

/-- Operands that are replaced and put back leave the tree as it was. -/
theorem mapOperands_mapOperands_cancel {f : ω → ω'} {g : ω' → ω} (h : ∀ o, g (f o) = o)
    (q : Query ω) : (q.mapOperands f).mapOperands g = q := by
  have hcancel : g ∘ f = id := funext h
  have hrule : ∀ r ∈ q.rules,
      (⟨r.attributeId, r.operator, (r.operand.map f).map g⟩ : Rule ω) = id r := by
    intro r _
    rw [Option.map_map, hcancel, Option.map_id]
    rfl
  rw [mapOperands, mapOperands, mapRules_mapRules]
  exact (mapRules_congr q hrule).trans (mapRules_id q)

variable (known : NameSet) (bindings : Bindings) (query : Query Operand)

/-- **The only fault of a resolution** is the first reference to a source that does not exist. -/
theorem fault?_resolve_eq_find? : fault? (query.resolve known bindings) =
    (query.references.find? fun ref => !known.contains ref.source).map .unknownSource := by
  rw [fault?_resolve, references, ← List.head?_filter, List.filter_filterMap, List.head?_filterMap,
    List.map_findSome?]
  exact findSome?_congr fun r _ => fault?_resolveRule known bindings r

/-- Without such a reference all operands are settled. -/
theorem resolve_of_known {query : Query Operand}
    (h : ∀ ref ∈ query.references, known.contains ref.source = true) :
    query.resolve known bindings =
      .ok ⟨query.mapOperands (Operand.settle bindings), query.unbound bindings⟩ := by
  have hrules : ∀ r ∈ query.rules, resolveRule known bindings r = .ok (_, _) := fun r hr =>
    resolveRule_of_known known bindings fun ref href => h ref (List.mem_filterMap.2 ⟨r, hr, href⟩)
  rw [resolve_eq_map, traverse_of_ok query hrules, ← List.filter_flatMap,
    ← List.filterMap_eq_flatMap_toList]
  rfl

/-- **Resolution is undone by reading off what was authored, and fails for nothing but a source that
does not exist.**  Whatever the answers are, the first reference to such a source is the fault.
Otherwise literals stay as they are, references get the values that they are bound to, which are
never blank, or none, and each of those without a value is told of once, where it first occurs. -/
theorem resolve_restores :
    match query.references.find? fun ref => !known.contains ref.source with
    | some ref => query.resolve known bindings = .error (.unknownSource ref)
    | none => ∃ resolution, query.resolve known bindings = .ok resolution ∧
        resolution.Restores bindings query := by
  have hfault := fault?_resolve_eq_find? known bindings query
  cases hfind : query.references.find? fun ref => !known.contains ref.source with
  | some ref =>
      rw [hfind] at hfault
      exact fault?_eq_some_iff.1 hfault
  | none =>
      have hknown : ∀ ref ∈ query.references, known.contains ref.source = true := by
        simpa using hfind
      refine ⟨_, resolve_of_known known bindings hknown, ?_⟩
      exact {
        tree := rfl
        authored := mapOperands_mapOperands_cancel (authored_settle bindings) query
        supplied := by
          intro r hr value ref hoperand
          dsimp only at hr
          rw [mapOperands, rules_mapRules] at hr
          obtain ⟨r', -, rfl⟩ := List.mem_map.1 hr
          obtain ⟨operand, -, hsettle⟩ := Option.map_eq_some_iff.1 hoperand
          have hget := bound_of_settle hsettle
          exact ⟨hget, Bindings.not_isBlank_of_get? hget⟩
        warnings := by
          refine ⟨query.unbound bindings, rfl, fun ref => ?_, pairwise_idxOf_eraseDups _ _⟩
          simp [unbound, List.mem_eraseDups] }

end Query

end TeamRouting
