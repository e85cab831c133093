import Mathlib.Logic.Relation
import TeamRouting.Proofs.Interchange
import TeamRouting.Proofs.Preparation

/-!
# Groups taken out of a tree

A group within a group of its kind says no more than its children would in its place, and neither
does a group around a single child.  Taking such groups out gives a tree of another shape with the
same rules in the same order.  Resolution and validation go by the list of the rules alone, and an
evaluation goes from rule to rule just as before, so the two trees have the same faults, the same
warnings, the same results and the same count of rules.

* `Query.Regroups`, `Query.RegroupsTo` — one group taken out of a tree, and any number of them;
* `Query.RegroupsTo.rules_eq`, `Query.RegroupsTo.mapRules` — the rules stay in their order, and
  replacing them does not interfere;
* `Query.evaluate_group_append` — the children of a group are evaluated part by part;
* `Query.RegroupsTo.evaluate_eq` — so a group that is taken out was never noticed;
* `Query.RegroupsTo.traverse` — a walk over a regrouped tree fails with the same fault, or gives a
  regrouped tree and the same notes;
* `Engine.prepare_regrouped` — so regrouped trees are prepared to interchangeable plans;
* `Engine.run_regrouped` — and their runs agree.
-/

namespace TeamRouting

namespace Query

variable {ω ω' : Type}

/-! ## Regrouping -/

/-- **One group taken out**, anywhere in a tree. -/
inductive Regroups : Query ω → Query ω → Prop
  /-- A group gives place to its children if its parent combines them as it does. -/
  | splice (c : Combinator) (before qs after : List (Query ω)) :
      Regroups (group c (before ++ group c qs :: after)) (group c (before ++ (qs ++ after)))
  /-- A group of a single child gives place to it. -/
  | unwrap (c : Combinator) (q : Query ω) : Regroups (group c [q]) q
  /-- A group is taken out of a child. -/
  | child (c : Combinator) (before : List (Query ω)) {q q' : Query ω} (after : List (Query ω))
      (step : Regroups q q') :
      Regroups (group c (before ++ q :: after)) (group c (before ++ q' :: after))

/-- Any number of groups taken out, one after the other. -/
def RegroupsTo : Query ω → Query ω → Prop := Relation.ReflTransGen Regroups

theorem RegroupsTo.refl (q : Query ω) : q.RegroupsTo q := Relation.ReflTransGen.refl

/-! ## The rules -/

theorem rulesOfAll_append (ps qs : List (Query ω)) :
    rulesOfAll (ps ++ qs) = rulesOfAll ps ++ rulesOfAll qs := by
  induction ps with
  | nil => rfl
  | cons p ps ih => rw [List.cons_append, rulesOfAll, rulesOfAll, ih, List.append_assoc]

theorem mapRulesOfAll_append (g : Rule ω → Rule ω') (ps qs : List (Query ω)) :
    mapRulesOfAll g (ps ++ qs) = mapRulesOfAll g ps ++ mapRulesOfAll g qs := by
  induction ps with
  | nil => rfl
  | cons p ps ih => rw [List.cons_append, mapRulesOfAll, mapRulesOfAll, ih, List.cons_append]

variable {q q' : Query ω}

/-- A group that is taken out leaves its rules where they were. -/
theorem Regroups.rules_eq (h : q.Regroups q') : q.rules = q'.rules := by
  induction h with
  | splice c before qs after =>
      simp only [rules, rulesOfAll_append, rulesOfAll]
  | unwrap c q =>
      simp only [rules, rulesOfAll, List.append_nil]
  | child c before after _ ih =>
      simp only [rules, rulesOfAll_append, rulesOfAll, ih]

/-- Groups can be taken out before the rules are replaced or afterwards. -/
theorem Regroups.mapRules (h : q.Regroups q') (g : Rule ω → Rule ω') :
    (q.mapRules g).Regroups (q'.mapRules g) := by
  induction h with
  | splice c before qs after =>
      simp only [Query.mapRules, mapRulesOfAll_append, mapRulesOfAll]
      exact .splice c _ _ _
  | unwrap c q => exact .unwrap c _
  | child c before after _ ih =>
      simp only [Query.mapRules, mapRulesOfAll_append, mapRulesOfAll]
      exact .child c _ _ ih

/-- **The rules stay in their order**, however many groups are taken out. -/
theorem RegroupsTo.rules_eq (h : q.RegroupsTo q') : q.rules = q'.rules := by
  induction h with
  | refl => rfl
  | tail _ step ih => exact ih.trans step.rules_eq

theorem RegroupsTo.mapRules (h : q.RegroupsTo q') (g : Rule ω → Rule ω') :
    RegroupsTo (Query.mapRules g q) (Query.mapRules g q') := by
  induction h with
  | refl => exact .refl _
  | tail _ step ih => exact ih.tail (step.mapRules g)

/-! ## Evaluation -/

end Query

/-- What a child of a group comes to if the group goes on to the next child. -/
def Combinator.further : Combinator → Bool
  | and => true
  | or => false

namespace Query

variable (values : MemberValues) (c : Combinator)

theorem evaluate_group_nil (t : Tally) : evaluate values (group c []) t = (c.further, t) := by
  cases c <;> rfl

/-- A group goes on behind a child, or ends with it. -/
theorem evaluate_group_cons (q : Query ResolvedOperand) (qs : List (Query ResolvedOperand))
    (t : Tally) :
    evaluate values (group c (q :: qs)) t =
      if (evaluate values q t).1 = c.further then
        evaluate values (group c qs) (evaluate values q t).2
      else
        evaluate values q t := by
  cases c with
  | and =>
      rw [evaluate, evaluateAll]
      rcases evaluate values q t with ⟨_ | _, t'⟩ <;> rfl
  | or =>
      rw [evaluate, evaluateAny]
      rcases evaluate values q t with ⟨_ | _, t'⟩ <;> rfl

/-- **The children of a group, part by part.**  The first ones are evaluated as a group of their
own, which goes on to the others or ends. -/
theorem evaluate_group_append (ps qs : List (Query ResolvedOperand)) (t : Tally) :
    evaluate values (group c (ps ++ qs)) t =
      if (evaluate values (group c ps) t).1 = c.further then
        evaluate values (group c qs) (evaluate values (group c ps) t).2
      else
        evaluate values (group c ps) t := by
  induction ps generalizing t with
  | nil => rw [List.nil_append, evaluate_group_nil, if_pos rfl]
  | cons p ps ih =>
      rw [List.cons_append, evaluate_group_cons, evaluate_group_cons]
      by_cases hp : (evaluate values p t).1 = c.further
      · rw [if_pos hp, if_pos hp, ih]
      · rw [if_neg hp, if_neg hp, if_neg hp]

variable {values} {q q' : Query ResolvedOperand}

/-- A group that is taken out is not missed: the same rules are evaluated in the same order. -/
theorem Regroups.evaluate_eq (h : q.Regroups q') (t : Tally) :
    evaluate values q t = evaluate values q' t := by
  induction h generalizing t with
  | splice c before qs after =>
      simp only [evaluate_group_append, evaluate_group_cons]
  | unwrap c q =>
      rw [evaluate_group_cons, evaluate_group_nil]
      by_cases hq : (evaluate values q t).1 = c.further
      · rw [if_pos hq, ← hq]
      · rw [if_neg hq]
  | child c before after _ ih =>
      simp only [evaluate_group_append, evaluate_group_cons, ih]

/-- **Regrouping is not noticed by an evaluation**: neither its result nor its tally changes. -/
theorem RegroupsTo.evaluate_eq (h : q.RegroupsTo q') (t : Tally) :
    evaluate values q t = evaluate values q' t := by
  induction h with
  | refl => rfl
  | tail _ step ih => exact ih.trans (step.evaluate_eq t)

/-! ## Preparation -/

variable {ω ω' ε ν : Type}

/-- Two results of a walk with the same notes, the tree of one regrouped to that of the other. -/
def RegroupsWith (p p' : Query ω × List ν) : Prop := p.1.RegroupsTo p'.1 ∧ p.2 = p'.2

/-- **A walk goes by the rules alone**, so over a regrouped tree it meets the same fault, or it
gives a regrouped tree with the same notes. -/
theorem RegroupsTo.traverse {q q' : Query ω} (h : q.RegroupsTo q')
    (f : Rule ω → Except ε (Rule ω' × List ν)) :
    EndAlike RegroupsWith (q.traverse f) (q'.traverse f) := by
  cases hq : q.traverse f with
  | error e =>
      have hq' : q'.traverse f = .error e := by
        rw [traverse_error_iff, ← h.rules_eq]
        exact (traverse_error_iff q).1 hq
      rw [hq']
      exact .fault e
  | ok p =>
      obtain ⟨g, notes, hg, rfl⟩ := exists_of_traverse_ok hq
      have hq' : q'.traverse f = .ok (q'.mapRules g, q'.rules.flatMap notes) :=
        traverse_of_ok q' fun r hr => hg r (h.rules_eq ▸ hr)
      rw [hq', ← h.rules_eq]
      exact .result ⟨h.mapRules g, rfl⟩

theorem RegroupsTo.resolve {q q' : Query Operand} (h : q.RegroupsTo q') (known : NameSet)
    (bindings : Bindings) :
    EndAlike (fun r r' : Resolution => r.tree.RegroupsTo r'.tree ∧ r.warnings = r'.warnings)
      (q.resolve known bindings) (q'.resolve known bindings) := by
  rw [resolve_eq_map, resolve_eq_map]
  refine (h.traverse _).map fun p p' related => ⟨related.1, ?_⟩
  rw [Resolution.warnings, Resolution.warnings, related.2]

theorem RegroupsTo.validate {q q' : Query ResolvedOperand} (h : q.RegroupsTo q')
    (catalog : Catalog) :
    EndAlike (fun v v' : Validation => v.tree.RegroupsTo v'.tree ∧ v.warnings = v'.warnings)
      (q.validate catalog) (q'.validate catalog) := by
  rw [validate_eq_map, validate_eq_map]
  refine (h.traverse _).map fun p p' related => ⟨related.1, ?_⟩
  rw [Validation.warnings, Validation.warnings, related.2]

end Query

namespace Engine

variable (engine : Engine) (catalog : Catalog)

/-- **Regrouped trees are prepared alike**: to interchangeable plans, or to one fault. -/
theorem prepare_regrouped (bindings : Bindings) {q q' : Query Operand} (h : q.RegroupsTo q') :
    EndAlike Plan.Interchangeable (engine.prepare catalog bindings q)
      (engine.prepare catalog bindings q') := by
  rw [prepare_eq_bind, prepare_eq_bind]
  refine (h.resolve engine.sources bindings).bind fun resolution resolution' resolved => ?_
  refine (resolved.1.validate catalog).map fun validation validation' validated => ?_
  exact {
    warnings := congrArg₂ _ resolved.2 validated.2
    evaluate := fun values t => validated.1.evaluate_eq t }

theorem prepare?_regrouped (bindings : Bindings) {spare spare' : Option (Query Operand)}
    (h : Option.Rel Query.RegroupsTo spare spare') :
    EndAlike (Option.Rel Plan.Interchangeable) (engine.prepare? catalog bindings spare)
      (engine.prepare? catalog bindings spare') := by
  cases h with
  | none => exact .result .none
  | some h => exact (prepare_regrouped engine catalog bindings h).map fun _ _ same => .some same

/-- **Regrouping cannot be observed.**  Take groups out of the primary tree, of the fallback tree or
of both.  Whatever the catalog, the answers, the strategy, the fan-out and the signal are, the run
fails with the same fault, or its outcome has the same members, the same warnings in the same order,
the same case and the same count of rules. -/
theorem run_regrouped (engine : Engine) (catalog : Catalog) {input input' : MatchInput}
    (primary : Option.Rel Query.RegroupsTo input.primary input'.primary)
    (fallback : Option.Rel Query.RegroupsTo input.fallback input'.fallback)
    (bindings : input.bindings = input'.bindings) (explained : input.explain = input'.explain)
    (signal : Signal) :
    EndAlike Outcome.AgreesWith (engine.run catalog input signal)
      (engine.run catalog input' signal) := by
  refine run_endAlike ?_ ?_ explained signal
  · rw [← bindings]
    generalize input.primary = tree, input'.primary = tree' at primary
    cases primary with
    | none => exact .none
    | some h => exact .some ⟨by rw [h.rules_eq], prepare_regrouped engine catalog _ h⟩
  · rw [← bindings]
    exact prepare?_regrouped engine catalog _ fallback

/-- An empty group, a group of one rule and a group within its like: without them, the reference
without an answer is still noticed once and both rules are still counted. -/
theorem run_regrouped_of_three_groups :
    ∃ o o' : Outcome,
      ({} : Engine).run ⟨"team", "org", [⟨"code", "Code", .text, []⟩],
          [⟨"a", ⟨[("code", ["x"])]⟩⟩]⟩
        { primary := some (.group .and [.group .and [],
            .group .or [.rule ⟨"code", .isNotEmpty, none⟩],
            .group .and [.rule ⟨"code", .equals, some (.dynamic ⟨"field", "a"⟩)⟩]]),
          explain := true } .never = .ok o ∧
      ({} : Engine).run ⟨"team", "org", [⟨"code", "Code", .text, []⟩],
          [⟨"a", ⟨[("code", ["x"])]⟩⟩]⟩
        { primary := some (.group .and [.rule ⟨"code", .isNotEmpty, none⟩,
            .rule ⟨"code", .equals, some (.dynamic ⟨"field", "a"⟩)⟩]),
          explain := true } .never = .ok o' ∧
      o.AgreesWith o' ∧ o'.warnings.length = 1 ∧ o'.rulesEvaluated? = some 2 := by
  have primary : (Query.group .and [.group .and [], .group .or [.rule ⟨"code", .isNotEmpty, none⟩],
        .group .and [.rule ⟨"code", .equals, some (.dynamic ⟨"field", "a"⟩)⟩]] :
          Query Operand).RegroupsTo
      (.group .and [.rule ⟨"code", .isNotEmpty, none⟩,
        .rule ⟨"code", .equals, some (.dynamic ⟨"field", "a"⟩)⟩]) :=
    ((Relation.ReflTransGen.single (.splice .and [] [] _)).tail
      (.child .and [] _ (.unwrap .or _))).tail (.splice .and [_] [_] [])
  have agree := @run_regrouped {} ⟨"team", "org", [⟨"code", "Code", .text, []⟩],
    [⟨"a", ⟨[("code", ["x"])]⟩⟩]⟩ ⟨some _, none, {}, true⟩ ⟨some _, none, {}, true⟩ (.some primary)
    .none rfl rfl .never
  cases agree with
  | result same => exact ⟨_, _, rfl, rfl, same, rfl, rfl⟩

end Engine

end TeamRouting
