import TeamRouting.Proofs.Reach
import TeamRouting.Proofs.Traversal

/-!
# Going only as far as needed

An evaluation leaves an AND at the first child that fails and an OR at the first child that holds.
This file lists the rules that it reaches that way, and says that nothing else counts: the result is
what evaluating every rule would give, the count grows by one for each rule on the list, the
warnings are those of the rules on the list, and what stands at any other place of the tree could
as well be something else.

* `Query.fold` — the result of a tree from the results of all its rules;
* `Query.reached` — the rules that are reached, in order, each with its place in the document;
* `Query.reached_sublist` — no rule is reached twice;
* `Query.evaluate_rulesEvaluated` — the count of an evaluation;
* `Query.evaluate_congr_of_reached` — trees that agree where they are reached are evaluated alike;
* `Query.evaluate_short_circuit` — all of it.
-/

namespace TeamRouting

theorem Tally.add_rulesEvaluated (t : Tally) (v : Verdict) :
    (t.add v).rulesEvaluated = t.rulesEvaluated + 1 := by
  unfold add
  cases v.warning <;> rfl

/-- Whether a rule holds of a member with these values. -/
def Rule.holdsFor (values : MemberValues) (r : Rule ResolvedOperand) : Bool :=
  (r.verdict (values.get r.attributeId)).holds

namespace Query

variable {ω : Type} {holds : Rule ω → Bool}

/-! ## All rules -/

mutual

/-- The result of a tree once **every** rule in it is decided: AND and OR combine the results of
all children. -/
def fold (holds : Rule ω → Bool) : Query ω → Bool
  | group .and qs => (foldEach holds qs).all id
  | group .or qs => (foldEach holds qs).any id
  | rule r => holds r
termination_by structural q => q

/-- The results of several trees. -/
def foldEach (holds : Rule ω → Bool) : List (Query ω) → List Bool
  | [] => []
  | q :: qs => fold holds q :: foldEach holds qs
termination_by structural qs => qs

end

mutual

theorem fold_iff_holds : ∀ q : Query ω, q.fold holds = true ↔ q.Holds fun r => holds r = true
  | .group .and qs => by rw [fold, Holds, foldEach_all_iff qs]
  | .group .or qs => by rw [fold, Holds, foldEach_any_iff qs]
  | .rule _ => Iff.rfl

theorem foldEach_all_iff :
    ∀ qs : List (Query ω), (foldEach holds qs).all id = true ↔ HoldsAll (fun r => holds r = true) qs
  | [] => by simp [foldEach, HoldsAll]
  | q :: qs => by
      rw [foldEach, HoldsAll, List.all_cons, Bool.and_eq_true, foldEach_all_iff qs, id,
        fold_iff_holds q]

theorem foldEach_any_iff :
    ∀ qs : List (Query ω), (foldEach holds qs).any id = true ↔ HoldsAny (fun r => holds r = true) qs
  | [] => by simp [foldEach, HoldsAny]
  | q :: qs => by
      rw [foldEach, HoldsAny, List.any_cons, Bool.or_eq_true, foldEach_any_iff qs, id,
        fold_iff_holds q]

end

/-- Evaluating only as far as needed gives the result of evaluating everything. -/
theorem evaluate_eq_fold (values : MemberValues) (q : Query ResolvedOperand) (t : Tally) :
    (evaluate values q t).1 = q.fold (Rule.holdsFor values) := by
  rw [Bool.eq_iff_iff, evaluate_iff_holds, fold_iff_holds]
  rfl

/-! ## The rules that are reached -/

mutual

/-- The rules that are reached from left to right, each with its place among the rules of the
tree.  The first of them has the place `n`. -/
def reachedFrom (holds : Rule ω → Bool) : Query ω → Nat → List (Rule ω × Nat)
  | group .and qs, n => reachedWhile holds true qs n
  | group .or qs, n => reachedWhile holds false qs n
  | rule r, n => [(r, n)]
termination_by structural q => q

/-- The same for the children of a group, which is gone through as long as they come to the given
result: that they hold in an AND, that they fail in an OR. -/
def reachedWhile (holds : Rule ω → Bool) (result : Bool) :
    List (Query ω) → Nat → List (Rule ω × Nat)
  | [], _ => []
  | q :: qs, n =>
    reachedFrom holds q n ++
      if fold holds q = result then reachedWhile holds result qs (n + q.ruleCount) else []
termination_by structural qs => qs

end

/-- **The rules that an evaluation reaches**, where it is known which rules hold: in the order in
which they are reached, each with its place in the document. -/
def reached (holds : Rule ω → Bool) (q : Query ω) : List (Rule ω × Nat) := q.reachedFrom holds 0

theorem zipIdx_rulesOfAll_cons (q : Query ω) (qs : List (Query ω)) (n : Nat) :
    (rulesOfAll (q :: qs)).zipIdx n
      = q.rules.zipIdx n ++ (rulesOfAll qs).zipIdx (n + q.ruleCount) := by
  rw [rulesOfAll, List.zipIdx_append, length_rules]

mutual

theorem reachedFrom_sublist :
    ∀ (q : Query ω) (n : Nat), (q.reachedFrom holds n).Sublist (q.rules.zipIdx n)
  | .group .and qs, n => reachedWhile_sublist true qs n
  | .group .or qs, n => reachedWhile_sublist false qs n
  | .rule _, _ => List.Sublist.refl _

theorem reachedWhile_sublist (result : Bool) : ∀ (qs : List (Query ω)) (n : Nat),
    (reachedWhile holds result qs n).Sublist ((rulesOfAll qs).zipIdx n)
  | [], _ => List.Sublist.refl _
  | q :: qs, n => by
      rw [reachedWhile, zipIdx_rulesOfAll_cons]
      refine (reachedFrom_sublist q n).append ?_
      split
      · exact reachedWhile_sublist result qs _
      · exact List.nil_sublist _

end

/-- **What is reached is part of the tree**, in its order, and nothing is reached twice. -/
theorem reached_sublist (q : Query ω) : (q.reached holds).Sublist q.rules.zipIdx :=
  reachedFrom_sublist q 0

theorem length_reached_le (q : Query ω) : (q.reached holds).length ≤ q.ruleCount := by
  have hlength : (q.reached holds).length ≤ q.rules.zipIdx.length := q.reached_sublist.length_le
  rwa [List.length_zipIdx, length_rules] at hlength

mutual

theorem exists_mem_reachedFrom_iff {s : Rule ω} : ∀ (q : Query ω) (n : Nat),
    (∃ i, (s, i) ∈ q.reachedFrom holds n) ↔ q.Reaches (fun r => holds r = true) s
  | .group .and qs, n => exists_mem_reachedAnd_iff qs n
  | .group .or qs, n => exists_mem_reachedOr_iff qs n
  | .rule r, n => by simp [reachedFrom, reaches_rule_iff]

theorem exists_mem_reachedAnd_iff {s : Rule ω} : ∀ (qs : List (Query ω)) (n : Nat),
    (∃ i, (s, i) ∈ reachedWhile holds true qs n) ↔
      (group .and qs).Reaches (fun r => holds r = true) s
  | [], n => by simp [reachedWhile, not_reaches_nil]
  | q :: qs, n => by
      have hq : (∃ i, (s, i) ∈ q.reachedFrom holds n) ↔ _ := exists_mem_reachedFrom_iff q n
      have hqs : (∃ i, (s, i) ∈ reachedWhile holds true qs (n + q.ruleCount)) ↔ _ :=
        exists_mem_reachedAnd_iff qs _
      rw [reaches_and_cons, ← hq, ← hqs, ← fold_iff_holds, reachedWhile]
      cases q.fold holds <;> simp [exists_or]

theorem exists_mem_reachedOr_iff {s : Rule ω} : ∀ (qs : List (Query ω)) (n : Nat),
    (∃ i, (s, i) ∈ reachedWhile holds false qs n) ↔
      (group .or qs).Reaches (fun r => holds r = true) s
  | [], n => by simp [reachedWhile, not_reaches_nil]
  | q :: qs, n => by
      have hq : (∃ i, (s, i) ∈ q.reachedFrom holds n) ↔ _ := exists_mem_reachedFrom_iff q n
      have hqs : (∃ i, (s, i) ∈ reachedWhile holds false qs (n + q.ruleCount)) ↔ _ :=
        exists_mem_reachedOr_iff qs _
      rw [reaches_or_cons, ← hq, ← hqs, ← fold_iff_holds, reachedWhile]
      cases q.fold holds <;> simp [exists_or]

end

/-! ## The count and the warnings -/

mutual

/-- **Each rule that is reached is counted**, and no other. -/
theorem evaluate_rulesEvaluated (values : MemberValues) :
    ∀ (q : Query ResolvedOperand) (t : Tally) (n : Nat),
      (evaluate values q t).2.rulesEvaluated
        = t.rulesEvaluated + (q.reachedFrom (Rule.holdsFor values) n).length
  | .group .and qs, t, n => evaluateAll_rulesEvaluated values qs t n
  | .group .or qs, t, n => evaluateAny_rulesEvaluated values qs t n
  | .rule r, t, n => by
      rw [evaluate, reachedFrom]
      exact Tally.add_rulesEvaluated t _

theorem evaluateAll_rulesEvaluated (values : MemberValues) :
    ∀ (qs : List (Query ResolvedOperand)) (t : Tally) (n : Nat),
      (evaluateAll values qs t).2.rulesEvaluated
        = t.rulesEvaluated + (reachedWhile (Rule.holdsFor values) true qs n).length
  | [], _, _ => rfl
  | q :: qs, t, n => by
      have hq : (evaluate values q t).2.rulesEvaluated = _ := evaluate_rulesEvaluated values q t n
      have hqs : ∀ t' : Tally, (evaluateAll values qs t').2.rulesEvaluated = _ :=
        fun t' => evaluateAll_rulesEvaluated values qs t' (n + q.ruleCount)
      rw [evaluateAll, reachedWhile, ← evaluate_eq_fold values q t, List.length_append,
        ← Nat.add_assoc, ← hq]
      rcases evaluate values q t with ⟨_ | _, t'⟩
      · simp
      · simp [hqs]

theorem evaluateAny_rulesEvaluated (values : MemberValues) :
    ∀ (qs : List (Query ResolvedOperand)) (t : Tally) (n : Nat),
      (evaluateAny values qs t).2.rulesEvaluated
        = t.rulesEvaluated + (reachedWhile (Rule.holdsFor values) false qs n).length
  | [], _, _ => rfl
  | q :: qs, t, n => by
      have hq : (evaluate values q t).2.rulesEvaluated = _ := evaluate_rulesEvaluated values q t n
      have hqs : ∀ t' : Tally, (evaluateAny values qs t').2.rulesEvaluated = _ :=
        fun t' => evaluateAny_rulesEvaluated values qs t' (n + q.ruleCount)
      rw [evaluateAny, reachedWhile, ← evaluate_eq_fold values q t, List.length_append,
        ← Nat.add_assoc, ← hq]
      rcases evaluate values q t with ⟨_ | _, t'⟩
      · simp [hqs]
      · simp

end

/-- **The warnings of an evaluation** are those of the rules that are reached, besides what was
there. -/
theorem mem_evaluate_warnings_iff_reached {values : MemberValues} {message : String}
    (q : Query ResolvedOperand) (t : Tally) :
    message ∈ (evaluate values q t).2.warnings ↔ message ∈ t.warnings ∨
      ∃ p ∈ q.reached (Rule.holdsFor values),
        (p.1.verdict (values.get p.1.attributeId)).warning = some message := by
  have hreached : ∀ r : Rule ResolvedOperand,
      (∃ i, (r, i) ∈ q.reached (Rule.holdsFor values)) ↔
        q.Reaches (fun r => Rule.holdsFor values r = true) r :=
    fun r => exists_mem_reachedFrom_iff q 0
  rw [mem_evaluate_warnings, WarnsOf]
  refine or_congr_right ?_
  constructor
  · rintro ⟨r, reaches, warns⟩
    obtain ⟨i, hi⟩ := (hreached r).2 reaches
    exact ⟨(r, i), hi, warns⟩
  · rintro ⟨⟨r, i⟩, hi, warns⟩
    exact ⟨r, (hreached r).1 ⟨i, hi⟩, warns⟩

/-! ## The rules that are not reached -/

/-- What is left of a tree when nothing is said about its rules but their places. -/
def shape (q : Query ω) : Query Unit := q.mapRules fun _ => ⟨"", .isEmpty, none⟩

/-- The shapes of several trees. -/
def shapes (qs : List (Query ω)) : List (Query Unit) :=
  mapRulesOfAll (fun _ => ⟨"", .isEmpty, none⟩) qs

theorem ruleCount_eq_of_shape {q q' : Query ω} (h : q'.shape = q.shape) :
    q'.ruleCount = q.ruleCount := by
  have hlength : q'.shape.rules.length = q.shape.rules.length := by rw [h]
  simpa only [shape, rules_mapRules, List.length_map, length_rules] using hlength

theorem eq_group_of_shape {q' : Query ω} {c : Combinator} {qs : List (Query ω)}
    (h : q'.shape = (group c qs).shape) : ∃ qs', q' = group c qs' ∧ shapes qs' = shapes qs := by
  cases q' with
  | group c' qs' =>
      rw [shape, shape, mapRules, mapRules] at h
      injection h with hc hqs
      subst hc
      exact ⟨qs', rfl, hqs⟩
  | rule r => cases h

theorem eq_rule_of_shape {q' : Query ω} {r : Rule ω} (h : q'.shape = (rule r).shape) :
    ∃ r', q' = rule r' := by
  cases q' with
  | group c' qs' => cases h
  | rule r' => exact ⟨r', rfl⟩

theorem eq_nil_of_shapes {qs' : List (Query ω)} (h : shapes qs' = shapes ([] : List (Query ω))) :
    qs' = [] := by
  cases qs' with
  | nil => rfl
  | cons q' qs' => cases h

theorem eq_cons_of_shapes {qs' : List (Query ω)} {q : Query ω} {qs : List (Query ω)}
    (h : shapes qs' = shapes (q :: qs)) :
    ∃ p ps, qs' = p :: ps ∧ p.shape = q.shape ∧ shapes ps = shapes qs := by
  cases qs' with
  | nil => cases h
  | cons p ps =>
      rw [shapes, shapes, mapRulesOfAll, mapRulesOfAll] at h
      injection h with hp hps
      exact ⟨p, ps, rfl, hp, hps⟩

section Agreement

variable {p q : Query ω} {ps qs : List (Query ω)} {n : Nat} {result : Bool}

/-- What is reached in the first of several trees stands in the first tree of the others. -/
theorem agree_first (same : p.shape = q.shape)
    (agree : ∀ x ∈ reachedWhile holds result (q :: qs) n, x ∈ (rulesOfAll (p :: ps)).zipIdx n) :
    ∀ x ∈ q.reachedFrom holds n, x ∈ p.rules.zipIdx n := by
  intro x hx
  have h : x ∈ (rulesOfAll (p :: ps)).zipIdx n := by
    refine agree x ?_
    rw [reachedWhile]
    exact List.mem_append_left _ hx
  rw [zipIdx_rulesOfAll_cons, List.mem_append] at h
  rcases h with hp | hps
  · exact hp
  · -- the places of the trees behind are too late
    have early : x.2 < n + q.rules.length :=
      List.snd_lt_add_of_mem_zipIdx ((reachedFrom_sublist q n).subset hx)
    have late : n + p.ruleCount ≤ x.2 := List.le_snd_of_mem_zipIdx hps
    rw [length_rules, ← ruleCount_eq_of_shape same] at early
    omega

/-- And what is reached behind it stands behind that one. -/
theorem agree_rest (same : p.shape = q.shape) (further : q.fold holds = result)
    (agree : ∀ x ∈ reachedWhile holds result (q :: qs) n, x ∈ (rulesOfAll (p :: ps)).zipIdx n) :
    ∀ x ∈ reachedWhile holds result qs (n + q.ruleCount),
      x ∈ (rulesOfAll ps).zipIdx (n + q.ruleCount) := by
  intro x hx
  have h : x ∈ (rulesOfAll (p :: ps)).zipIdx n := by
    refine agree x ?_
    rw [reachedWhile, if_pos further]
    exact List.mem_append_right _ hx
  rw [zipIdx_rulesOfAll_cons, List.mem_append, ruleCount_eq_of_shape same] at h
  rcases h with hp | hps
  · -- the places of the first tree are too early
    have early : x.2 < n + p.rules.length := List.snd_lt_add_of_mem_zipIdx hp
    have late : n + q.ruleCount ≤ x.2 :=
      List.le_snd_of_mem_zipIdx ((reachedWhile_sublist result qs _).subset hx)
    rw [length_rules, ruleCount_eq_of_shape same] at early
    omega
  · exact hps

end Agreement

mutual

/-- **Trees that agree where they are reached are evaluated alike.**  They have the same shape, and
every rule that one of them reaches stands at the same place of the other. -/
theorem evaluate_congr_of_reached (values : MemberValues) :
    ∀ (q q' : Query ResolvedOperand) (n : Nat) (t : Tally), q'.shape = q.shape →
      (∀ x ∈ q.reachedFrom (Rule.holdsFor values) n, x ∈ q'.rules.zipIdx n) →
      evaluate values q' t = evaluate values q t
  | .group .and qs, q', n, t, same, agree => by
      obtain ⟨qs', rfl, hqs⟩ := eq_group_of_shape same
      exact evaluateAll_congr_of_reached values qs qs' n t hqs agree
  | .group .or qs, q', n, t, same, agree => by
      obtain ⟨qs', rfl, hqs⟩ := eq_group_of_shape same
      exact evaluateAny_congr_of_reached values qs qs' n t hqs agree
  | .rule r, q', n, t, same, agree => by
      obtain ⟨r', rfl⟩ := eq_rule_of_shape same
      have hr : (r, n) ∈ [r'].zipIdx n := agree (r, n) (List.mem_singleton_self _)
      rw [List.zipIdx_singleton, List.mem_singleton] at hr
      cases hr
      rfl

theorem evaluateAll_congr_of_reached (values : MemberValues) :
    ∀ (qs qs' : List (Query ResolvedOperand)) (n : Nat) (t : Tally), shapes qs' = shapes qs →
      (∀ x ∈ reachedWhile (Rule.holdsFor values) true qs n, x ∈ (rulesOfAll qs').zipIdx n) →
      evaluateAll values qs' t = evaluateAll values qs t
  | [], qs', n, t, same, _ => by rw [eq_nil_of_shapes same]
  | q :: qs, qs', n, t, same, agree => by
      obtain ⟨p, ps, rfl, hp, hps⟩ := eq_cons_of_shapes same
      have hfirst : evaluate values p t = evaluate values q t :=
        evaluate_congr_of_reached values q p n t hp (agree_first hp agree)
      have hfold : (evaluate values q t).1 = _ := evaluate_eq_fold values q t
      rw [evaluateAll, evaluateAll, hfirst]
      rcases hq : evaluate values q t with ⟨_ | _, t'⟩
      · rfl
      · rw [hq] at hfold
        exact evaluateAll_congr_of_reached values qs ps _ t' hps (agree_rest hp hfold.symm agree)

theorem evaluateAny_congr_of_reached (values : MemberValues) :
    ∀ (qs qs' : List (Query ResolvedOperand)) (n : Nat) (t : Tally), shapes qs' = shapes qs →
      (∀ x ∈ reachedWhile (Rule.holdsFor values) false qs n, x ∈ (rulesOfAll qs').zipIdx n) →
      evaluateAny values qs' t = evaluateAny values qs t
  | [], qs', n, t, same, _ => by rw [eq_nil_of_shapes same]
  | q :: qs, qs', n, t, same, agree => by
      obtain ⟨p, ps, rfl, hp, hps⟩ := eq_cons_of_shapes same
      have hfirst : evaluate values p t = evaluate values q t :=
        evaluate_congr_of_reached values q p n t hp (agree_first hp agree)
      have hfold : (evaluate values q t).1 = _ := evaluate_eq_fold values q t
      rw [evaluateAny, evaluateAny, hfirst]
      rcases hq : evaluate values q t with ⟨_ | _, t'⟩
      · rw [hq] at hfold
        exact evaluateAny_congr_of_reached values qs ps _ t' hps (agree_rest hp hfold.symm agree)
      · rfl

end

/-! ## The work of an evaluation -/

/-- **Evaluation does exactly the necessary work.**  Take any tree, member and tally, and the list
of the rules that are met from left to right when every AND is left at its first child that fails
and every OR at its first child that holds.  The result is what all rules together give.  The count
grows by the length of the list, which is no more than the rules of the tree.  The warnings that
are added are those of the rules on the list.  And with any other rules at the places that are not
on the list, the evaluation is the same in all of this. -/
theorem evaluate_short_circuit (values : MemberValues) (q : Query ResolvedOperand) (t : Tally) :
    (evaluate values q t).1 = q.fold (Rule.holdsFor values) ∧
      (evaluate values q t).2.rulesEvaluated
        = t.rulesEvaluated + (q.reached (Rule.holdsFor values)).length ∧
      (q.reached (Rule.holdsFor values)).length ≤ q.ruleCount ∧
      (∀ message, message ∈ (evaluate values q t).2.warnings ↔ message ∈ t.warnings ∨
        ∃ p ∈ q.reached (Rule.holdsFor values),
          (p.1.verdict (values.get p.1.attributeId)).warning = some message) ∧
      ∀ q' : Query ResolvedOperand, q'.shape = q.shape →
        (∀ p ∈ q.reached (Rule.holdsFor values), p ∈ q'.rules.zipIdx) →
          evaluate values q' t = evaluate values q t := by
  refine ⟨evaluate_eq_fold values q t, evaluate_rulesEvaluated values q t 0, length_reached_le q,
    fun message => mem_evaluate_warnings_iff_reached q t, fun q' same agree => ?_⟩
  exact evaluate_congr_of_reached values q q' 0 t same agree

/-- The first rule of an AND fails, so only it is counted, and it does not matter that the second
one would hold in one tree and would leave a warning in the other. -/
theorem evaluate_of_rule_behind :
    (evaluate ⟨[("dept", ["sales"])]⟩
        (group .and [.rule ⟨"dept", .equals, some (.static (.single (.text "support")))⟩,
          .rule ⟨"level", .greaterThan, some (.static (.single (.integer 3)))⟩]) {})
      = evaluate ⟨[("dept", ["sales"])]⟩
        (group .and [.rule ⟨"dept", .equals, some (.static (.single (.text "support")))⟩,
          .rule ⟨"level", .isEmpty, none⟩]) {} ∧
    (evaluate ⟨[("dept", ["sales"])]⟩
        (group .and [.rule ⟨"dept", .equals, some (.static (.single (.text "support")))⟩,
          .rule ⟨"level", .isEmpty, none⟩]) {}).2 = ⟨1, ∅⟩ := by
  refine ⟨?_, by decide⟩
  exact (evaluate_short_circuit ⟨[("dept", ["sales"])]⟩
    (group .and [.rule ⟨"dept", .equals, some (.static (.single (.text "support")))⟩,
      .rule ⟨"level", .isEmpty, none⟩]) {}).2.2.2.2 _ rfl (by decide)

end Query

end TeamRouting
