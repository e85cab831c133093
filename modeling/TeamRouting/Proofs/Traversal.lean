import Mathlib.Tactic.Choose
import TeamRouting.Query.Basic

/-!
# Rebuilding trees, rule by rule

Resolution and validation both walk a tree in document order and replace its rules, up to the
first one that is at fault.  What such a walk gives depends on the list of rules alone; the groups
only carry the result.

* `Query.isEmptyQuery_iff` — a tree counts as empty when it lists no rules;
* `Query.traverse_error_iff` — a walk fails with the fault of the **first** rule at fault;
* `Query.traverse_of_ok` — a walk over rules without fault replaces each of them in its place;
* `Query.exists_of_traverse_ok` — conversely, a walk that succeeds met no fault;
* `Query.exists_of_traverse_in_step` — of two walks in step both succeed if one does;
* `Query.traverse_mapRules` — walking over replaced rules is one walk with both steps.
-/

namespace TeamRouting

/-- The fault with which a step fails, if it does. -/
def fault? {ε α : Type} : Except ε α → Option ε
  | .error e => some e
  | .ok _ => none

@[simp] theorem fault?_error {ε α : Type} (e : ε) : fault? (.error e : Except ε α) = some e := rfl

@[simp] theorem fault?_ok {ε α : Type} (a : α) : fault? (.ok a : Except ε α) = none := rfl

theorem fault?_eq_some_iff {ε α : Type} {x : Except ε α} {e : ε} :
    fault? x = some e ↔ x = .error e := by
  cases x <;> simp

theorem fault?_eq_none_iff {ε α : Type} {x : Except ε α} :
    fault? x = none ↔ ∃ a, x = .ok a := by
  cases x <;> simp

theorem fault?_map {ε α β : Type} (f : α → β) (x : Except ε α) : fault? (x.map f) = fault? x := by
  cases x <;> rfl

/-- Of two steps the first one at fault counts. -/
theorem fault?_bind_map {ε α β γ : Type} (f : α → β → γ) (x : Except ε α) (y : Except ε β) :
    fault? (x.bind fun a => y.map (f a)) = (fault? x).or (fault? y) := by
  cases x with
  | error e => rfl
  | ok a => exact (fault?_map (f a) y).trans (Option.none_or).symm

namespace Query

variable {ω ω' ω'' ε ν : Type}

/-! ## The rules of a tree -/

mutual

theorem length_rules : ∀ q : Query ω, q.rules.length = q.ruleCount
  | .group _ qs => by rw [rules, ruleCount, length_rulesOfAll qs]
  | .rule _ => rfl

theorem length_rulesOfAll : ∀ qs : List (Query ω), (rulesOfAll qs).length = ruleCountOfAll qs
  | [] => rfl
  | q :: qs => by
      rw [rulesOfAll, ruleCountOfAll, List.length_append, length_rules q, length_rulesOfAll qs]

end

/-- A tree counts as empty when it lists no rules, however many groups it has. -/
theorem isEmptyQuery_iff {q : Query ω} : q.isEmptyQuery = true ↔ q.rules = [] := by
  rw [isEmptyQuery, beq_iff_eq, ← length_rules, List.length_eq_zero_iff]

mutual

theorem rules_mapRules (g : Rule ω → Rule ω') : ∀ q, (mapRules g q).rules = q.rules.map g
  | .group _ qs => by rw [mapRules, rules, rules, rulesOfAll_mapRulesOfAll g qs]
  | .rule _ => rfl

theorem rulesOfAll_mapRulesOfAll (g : Rule ω → Rule ω') :
    ∀ qs, rulesOfAll (mapRulesOfAll g qs) = (rulesOfAll qs).map g
  | [] => rfl
  | q :: qs => by
      rw [mapRulesOfAll, rulesOfAll, rulesOfAll, List.map_append, rules_mapRules g q,
        rulesOfAll_mapRulesOfAll g qs]

end

mutual

/-- Replacing rules twice is replacing them once by both steps. -/
theorem mapRules_mapRules (g : Rule ω → Rule ω') (h : Rule ω' → Rule ω'') :
    ∀ q, mapRules h (mapRules g q) = mapRules (h ∘ g) q
  | .group _ qs => by rw [mapRules, mapRules, mapRules, mapRulesOfAll_mapRulesOfAll g h qs]
  | .rule _ => rfl

theorem mapRulesOfAll_mapRulesOfAll (g : Rule ω → Rule ω') (h : Rule ω' → Rule ω'') :
    ∀ qs, mapRulesOfAll h (mapRulesOfAll g qs) = mapRulesOfAll (h ∘ g) qs
  | [] => rfl
  | q :: qs => by
      rw [mapRulesOfAll, mapRulesOfAll, mapRulesOfAll, mapRules_mapRules g h q,
        mapRulesOfAll_mapRulesOfAll g h qs]

end

mutual

/-- Only the rules that occur in a tree matter for their replacement. -/
theorem mapRules_congr {g h : Rule ω → Rule ω'} :
    ∀ q, (∀ r ∈ q.rules, g r = h r) → mapRules g q = mapRules h q
  | .group _ qs, same => by rw [mapRules, mapRules, mapRulesOfAll_congr qs same]
  | .rule r, same => by rw [mapRules, mapRules, same r (List.mem_singleton_self r)]

theorem mapRulesOfAll_congr {g h : Rule ω → Rule ω'} :
    ∀ qs, (∀ r ∈ rulesOfAll qs, g r = h r) → mapRulesOfAll g qs = mapRulesOfAll h qs
  | [], _ => rfl
  | q :: qs, same => by
      have hq : mapRules g q = mapRules h q :=
        mapRules_congr q fun r hr => same r (List.mem_append_left _ hr)
      have hqs : mapRulesOfAll g qs = mapRulesOfAll h qs :=
        mapRulesOfAll_congr qs fun r hr => same r (List.mem_append_right _ hr)
      rw [mapRulesOfAll, mapRulesOfAll, hq, hqs]

end

/-! ## Walks that succeed -/

mutual

/-- **A walk without faults** replaces every rule in its place and gathers the notes in document
order. -/
theorem traverse_of_ok {f : Rule ω → Except ε (Rule ω' × List ν)} {g : Rule ω → Rule ω'}
    {notes : Rule ω → List ν} :
    ∀ q, (∀ r ∈ q.rules, f r = .ok (g r, notes r)) →
      traverse f q = .ok (mapRules g q, q.rules.flatMap notes)
  | .group c qs, h => by
      rw [traverse, traverseAll_of_ok qs h]
      rfl
  | .rule r, h => by
      rw [traverse, h r (List.mem_singleton_self r)]
      show Except.ok (Query.rule (g r), notes r) = .ok (.rule (g r), [r].flatMap notes)
      rw [List.flatMap_singleton]

theorem traverseAll_of_ok {f : Rule ω → Except ε (Rule ω' × List ν)} {g : Rule ω → Rule ω'}
    {notes : Rule ω → List ν} :
    ∀ qs, (∀ r ∈ rulesOfAll qs, f r = .ok (g r, notes r)) →
      traverseAll f qs = .ok (mapRulesOfAll g qs, (rulesOfAll qs).flatMap notes)
  | [], _ => rfl
  | q :: qs, h => by
      have hq := traverse_of_ok q fun r hr => h r (List.mem_append_left _ hr)
      have hqs := traverseAll_of_ok qs fun r hr => h r (List.mem_append_right _ hr)
      rw [traverseAll, hq, hqs, rulesOfAll, List.flatMap_append]
      rfl

end

/-! ## Walks that fail -/

mutual

/-- **A walk fails at the first fault.**  The rules in front of it are without fault, and what
stands behind it is not looked at. -/
theorem traverse_error_iff {f : Rule ω → Except ε (Rule ω' × List ν)} {e : ε} :
    ∀ q, traverse f q = .error e ↔ q.rules.findSome? (fun r => fault? (f r)) = some e
  | .group c qs => by
      rw [rules, ← traverseAll_error_iff qs, traverse]
      cases traverseAll f qs with
      | error e' => simp [bind, Except.bind]
      | ok p => simp [bind, Except.bind, pure, Except.pure]
  | .rule r => by
      rw [rules, traverse]
      cases hr : f r with
      | error e' => simp [hr, bind, Except.bind]
      | ok p => simp [hr, bind, Except.bind, pure, Except.pure]

theorem traverseAll_error_iff {f : Rule ω → Except ε (Rule ω' × List ν)} {e : ε} :
    ∀ qs, traverseAll f qs = .error e ↔
      (rulesOfAll qs).findSome? (fun r => fault? (f r)) = some e
  | [] => by simp [traverseAll, rulesOfAll, pure, Except.pure]
  | q :: qs => by
      have hq : ∀ e', traverse f q = .error e' ↔ _ := fun e' => traverse_error_iff q
      have hqs : ∀ e', traverseAll f qs = .error e' ↔ _ := fun e' => traverseAll_error_iff qs
      rw [traverseAll, rulesOfAll, List.findSome?_append]
      cases h : traverse f q with
      | error e' =>
          rw [(hq e').1 h]
          simp [bind, Except.bind]
      | ok p =>
          have hnone : q.rules.findSome? (fun r => fault? (f r)) = none := by
            refine Option.eq_none_iff_forall_ne_some.2 fun e' he' => ?_
            rw [(hq e').2 he'] at h
            cases h
          rw [hnone, Option.none_or, ← hqs e]
          cases traverseAll f qs with
          | error e' => simp [bind, Except.bind]
          | ok p' => simp [bind, Except.bind, pure, Except.pure]

end

theorem fault?_traverse {f : Rule ω → Except ε (Rule ω' × List ν)} {q : Query ω} :
    fault? (traverse f q) = q.rules.findSome? fun r => fault? (f r) := by
  refine Option.ext fun e => ?_
  rw [fault?_eq_some_iff, traverse_error_iff]

/-- A walk that succeeds meets no rule at fault. -/
theorem ok_of_traverse_ok {f : Rule ω → Except ε (Rule ω' × List ν)} {q : Query ω}
    {p : Query ω' × List ν} (h : traverse f q = .ok p) : ∀ r ∈ q.rules, ∃ s, f r = .ok s := by
  have hnone : q.rules.findSome? (fun r => fault? (f r)) = none := by
    rw [← fault?_traverse, h, fault?_ok]
  intro r hr
  exact fault?_eq_none_iff.1 (List.findSome?_eq_none_iff.1 hnone r hr)

/-- **What a successful walk did**: there is one replacement for each rule, and one list of notes,
by which the step answered. -/
theorem exists_of_traverse_ok {f : Rule ω → Except ε (Rule ω' × List ν)} {q : Query ω}
    {p : Query ω' × List ν} (h : traverse f q = .ok p) :
    ∃ (g : Rule ω → Rule ω') (notes : Rule ω → List ν),
      (∀ r ∈ q.rules, f r = .ok (g r, notes r)) ∧ p = (mapRules g q, q.rules.flatMap notes) := by
  have hok := ok_of_traverse_ok h
  have hstep : ∀ r, ∃ s : Rule ω' × List ν, r ∈ q.rules → f r = .ok s := by
    intro r
    by_cases hr : r ∈ q.rules
    · obtain ⟨s, hs⟩ := hok r hr
      exact ⟨s, fun _ => hs⟩
    · exact ⟨(⟨r.attributeId, r.operator, none⟩, []), fun hr' => absurd hr' hr⟩
  choose step hstep using hstep
  refine ⟨fun r => (step r).1, fun r => (step r).2, hstep, ?_⟩
  have hq : traverse f q
      = .ok (mapRules (fun r => (step r).1) q, q.rules.flatMap fun r => (step r).2) :=
    traverse_of_ok q hstep
  exact Except.ok.inj (h.symm.trans hq)

/-! ## Walks in step -/

/-- **Walks in step.**  Suppose that every step with which one walk succeeds is matched by a step of
another one, with the same notes and a related rule.  If the one walk succeeds, so does the other,
with the same notes and related rules in the same places. -/
theorem exists_of_traverse_in_step {R : Rule ω' → Rule ω'' → Prop}
    {f : Rule ω → Except ε (Rule ω' × List ν)} {f' : Rule ω → Except ε (Rule ω'' × List ν)}
    {q : Query ω} {tree' : Query ω''} {notes : List ν}
    (step : ∀ r ∈ q.rules, ∀ s' noted, f' r = .ok (s', noted) →
      ∃ s, f r = .ok (s, noted) ∧ R s s')
    (h : traverse f' q = .ok (tree', notes)) :
    ∃ (g : Rule ω → Rule ω') (g' : Rule ω → Rule ω''), (∀ r ∈ q.rules, R (g r) (g' r)) ∧
      traverse f q = .ok (mapRules g q, notes) ∧ tree' = mapRules g' q := by
  obtain ⟨g', noted, hg', hp⟩ := exists_of_traverse_ok h
  cases hp
  have hstep : ∀ r, ∃ s, r ∈ q.rules → f r = .ok (s, noted r) ∧ R s (g' r) := by
    intro r
    by_cases hr : r ∈ q.rules
    · obtain ⟨s, hs, related⟩ := step r hr (g' r) (noted r) (hg' r hr)
      exact ⟨s, fun _ => ⟨hs, related⟩⟩
    · exact ⟨⟨r.attributeId, r.operator, none⟩, fun hr' => absurd hr' hr⟩
  choose g hg using hstep
  exact ⟨g, g', fun r hr => (hg r hr).2, traverse_of_ok q fun r hr => (hg r hr).1, rfl⟩

/-! ## Walks one after the other -/

mutual

/-- Walking over replaced rules is one walk with both steps. -/
theorem traverse_mapRules (f : Rule ω' → Except ε (Rule ω'' × List ν)) (g : Rule ω → Rule ω') :
    ∀ q, traverse f (mapRules g q) = traverse (f ∘ g) q
  | .group c qs => by rw [mapRules, traverse, traverse, traverseAll_mapRulesOfAll f g qs]
  | .rule _ => rfl

theorem traverseAll_mapRulesOfAll (f : Rule ω' → Except ε (Rule ω'' × List ν))
    (g : Rule ω → Rule ω') :
    ∀ qs, traverseAll f (mapRulesOfAll g qs) = traverseAll (f ∘ g) qs
  | [] => rfl
  | q :: qs => by
      rw [mapRulesOfAll, traverseAll, traverseAll, traverse_mapRules f g q,
        traverseAll_mapRulesOfAll f g qs]

end

mutual

/-- Only the steps at the rules of a tree matter for a walk. -/
theorem traverse_congr {f f' : Rule ω → Except ε (Rule ω' × List ν)} :
    ∀ q, (∀ r ∈ q.rules, f r = f' r) → traverse f q = traverse f' q
  | .group _ qs, same => by rw [traverse, traverse, traverseAll_congr qs same]
  | .rule r, same => by rw [traverse, traverse, same r (List.mem_singleton_self r)]

theorem traverseAll_congr {f f' : Rule ω → Except ε (Rule ω' × List ν)} :
    ∀ qs, (∀ r ∈ rulesOfAll qs, f r = f' r) → traverseAll f qs = traverseAll f' qs
  | [], _ => rfl
  | q :: qs, same => by
      have hq : traverse f q = traverse f' q :=
        traverse_congr q fun r hr => same r (List.mem_append_left _ hr)
      have hqs : traverseAll f qs = traverseAll f' qs :=
        traverseAll_congr qs fun r hr => same r (List.mem_append_right _ hr)
      rw [traverseAll, traverseAll, hq, hqs]

end

end Query

end TeamRouting
