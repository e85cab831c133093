import TeamRouting.Proofs.Meaning

/-!
# The rules that are reached

A tree is evaluated from left to right and only as far as needed.  Which rules that reaches depends
on which rules hold, and the rules that are reached are the only ones that an evaluation can warn
on account of.

* `Query.Reaches` — the rules that are reached, where it is known which rules hold;
* `Query.reaches_and_cons`, `Query.reaches_or_cons` — the groups, child by child;
* `Query.reaches_mapRules` — replacing rules does not change which places are reached;
* `Query.WarnsOf`, `Query.mem_evaluate_warnings` — an evaluation warns on account of the rules that
  it reaches, and of no others.
-/

namespace TeamRouting

/-- Where a list is split into a front part, an element and the rest, the element is the first of
the list or it comes later. -/
theorem exists_split_cons {α : Type} {P Q : α → Prop} {x : α} {xs : List α} :
    (∃ before y after, x :: xs = before ++ y :: after ∧ (∀ p ∈ before, P p) ∧ Q y) ↔
      Q x ∨ P x ∧ ∃ before y after, xs = before ++ y :: after ∧ (∀ p ∈ before, P p) ∧ Q y := by
  constructor
  · rintro ⟨before, y, after, h, hbefore, hy⟩
    cases before with
    | nil =>
        cases h
        exact Or.inl hy
    | cons p before =>
        cases h
        obtain ⟨hp, hbefore⟩ := List.forall_mem_cons.1 hbefore
        exact Or.inr ⟨hp, before, y, after, rfl, hbefore, hy⟩
  · rintro (hx | ⟨hx, before, y, after, rfl, hbefore, hy⟩)
    · exact ⟨[], x, xs, rfl, List.forall_mem_nil _, hx⟩
    · exact ⟨x :: before, y, after, rfl, List.forall_mem_cons.2 ⟨hx, hbefore⟩, hy⟩

namespace Query

variable {ω ω' : Type} {φ : Rule ω → Prop} {r s : Rule ω} {q : Query ω} {qs : List (Query ω)}

/-! ## What is reached -/

/-- **The rules that an evaluation reaches**, where it is known which rules hold.  An AND is gone
through as long as its children hold, an OR as long as they fail. -/
inductive Reaches (φ : Rule ω → Prop) : Query ω → Rule ω → Prop
  | rule (r : Rule ω) : Reaches φ (.rule r) r
  | and {before after : List (Query ω)} {q : Query ω} {r : Rule ω}
      (hold : ∀ p ∈ before, p.Holds φ) (reached : Reaches φ q r) :
      Reaches φ (.group .and (before ++ q :: after)) r
  | or {before after : List (Query ω)} {q : Query ω} {r : Rule ω}
      (fail : ∀ p ∈ before, ¬ p.Holds φ) (reached : Reaches φ q r) :
      Reaches φ (.group .or (before ++ q :: after)) r

theorem reaches_rule_iff : (rule r).Reaches φ s ↔ s = r := by
  constructor
  · rintro ⟨⟩
    rfl
  · rintro rfl
    exact .rule s

theorem reaches_and_iff : (group .and qs).Reaches φ r ↔
    ∃ before q after, qs = before ++ q :: after ∧ (∀ p ∈ before, p.Holds φ) ∧ q.Reaches φ r := by
  constructor
  · rintro ⟨⟩
    exact ⟨_, _, _, rfl, ‹_›, ‹_›⟩
  · rintro ⟨before, q, after, rfl, hold, reached⟩
    exact .and hold reached

theorem reaches_or_iff : (group .or qs).Reaches φ r ↔
    ∃ before q after, qs = before ++ q :: after ∧ (∀ p ∈ before, ¬ p.Holds φ) ∧
      q.Reaches φ r := by
  constructor
  · rintro ⟨⟩
    exact ⟨_, _, _, rfl, ‹_›, ‹_›⟩
  · rintro ⟨before, q, after, rfl, fail, reached⟩
    exact .or fail reached

/-- In a group without children nothing is reached. -/
theorem not_reaches_nil {c : Combinator} : ¬ (group c []).Reaches φ r := by
  cases c with
  | and => simp [reaches_and_iff]
  | or => simp [reaches_or_iff]

/-- **An AND is left at the first child that fails.** -/
theorem reaches_and_cons : (group .and (q :: qs)).Reaches φ r ↔
    q.Reaches φ r ∨ q.Holds φ ∧ (group .and qs).Reaches φ r := by
  rw [reaches_and_iff, reaches_and_iff, exists_split_cons]

/-- **An OR is left at the first child that holds.** -/
theorem reaches_or_cons : (group .or (q :: qs)).Reaches φ r ↔
    q.Reaches φ r ∨ ¬ q.Holds φ ∧ (group .or qs).Reaches φ r := by
  rw [reaches_or_iff, reaches_or_iff, exists_split_cons]

theorem mem_rulesOfAll : r ∈ rulesOfAll qs ↔ ∃ q ∈ qs, r ∈ q.rules := by
  induction qs with
  | nil => simp [rulesOfAll]
  | cons q qs ih => simp [rulesOfAll, ih]

/-- What is reached is a rule of the tree. -/
theorem Reaches.mem_rules (h : q.Reaches φ r) : r ∈ q.rules := by
  induction h with
  | rule r => exact List.mem_singleton_self r
  | and _ _ ih | or _ _ ih => exact mem_rulesOfAll.2 ⟨_, by simp, ih⟩

/-! ## Replaced rules -/

variable {ψ : Rule ω' → Prop} {g : Rule ω → Rule ω'} {s' : Rule ω'}

mutual

/-- **A tree whose rules were replaced** is reached in the same places, if each replacement holds
where the rule before did. -/
theorem reaches_mapRules : ∀ q, (∀ r ∈ q.rules, ψ (g r) ↔ φ r) →
    ((mapRules g q).Reaches ψ s' ↔ ∃ r, q.Reaches φ r ∧ g r = s')
  | .group .and qs, h => reaches_and_mapRulesOfAll qs h
  | .group .or qs, h => reaches_or_mapRulesOfAll qs h
  | .rule r, _ => by
      rw [mapRules, reaches_rule_iff]
      simp [reaches_rule_iff, eq_comm]

theorem reaches_and_mapRulesOfAll : ∀ qs, (∀ r ∈ rulesOfAll qs, ψ (g r) ↔ φ r) →
    ((group .and (mapRulesOfAll g qs)).Reaches ψ s' ↔
      ∃ r, (group .and qs).Reaches φ r ∧ g r = s')
  | [], _ => by simp [mapRulesOfAll, not_reaches_nil]
  | q :: qs, h => by
      have hrules : ∀ r ∈ q.rules, ψ (g r) ↔ φ r := fun r hr => h r (List.mem_append_left _ hr)
      have hq : (mapRules g q).Reaches ψ s' ↔ _ := reaches_mapRules q hrules
      have hqs : (group .and (mapRulesOfAll g qs)).Reaches ψ s' ↔ _ :=
        reaches_and_mapRulesOfAll qs fun r hr => h r (List.mem_append_right _ hr)
      simp only [mapRulesOfAll, reaches_and_cons, holds_mapRules q hrules, hq, hqs, or_and_right,
        exists_or, and_assoc, exists_and_left]

theorem reaches_or_mapRulesOfAll : ∀ qs, (∀ r ∈ rulesOfAll qs, ψ (g r) ↔ φ r) →
    ((group .or (mapRulesOfAll g qs)).Reaches ψ s' ↔
      ∃ r, (group .or qs).Reaches φ r ∧ g r = s')
  | [], _ => by simp [mapRulesOfAll, not_reaches_nil]
  | q :: qs, h => by
      have hrules : ∀ r ∈ q.rules, ψ (g r) ↔ φ r := fun r hr => h r (List.mem_append_left _ hr)
      have hq : (mapRules g q).Reaches ψ s' ↔ _ := reaches_mapRules q hrules
      have hqs : (group .or (mapRulesOfAll g qs)).Reaches ψ s' ↔ _ :=
        reaches_or_mapRulesOfAll qs fun r hr => h r (List.mem_append_right _ hr)
      simp only [mapRulesOfAll, reaches_or_cons, holds_mapRules q hrules, hq, hqs, or_and_right,
        exists_or, and_assoc, exists_and_left]

end

end Query

/-! ## What is warned of -/

theorem Tally.mem_add_warnings {t : Tally} {v : Verdict} {message : String} :
    message ∈ (t.add v).warnings ↔ message ∈ t.warnings ∨ v.warning = some message := by
  unfold add
  cases v.warning with
  | none => simp [count]
  | some text =>
      simp only [count, warn, NameSet.mem_insert, Option.some.injEq]
      rw [or_comm, eq_comm]

namespace Query

/-- Some rule that is reached for a member leaves this warning. -/
def WarnsOf (values : MemberValues) (message : String) (q : Query ResolvedOperand) : Prop :=
  ∃ r, q.Reaches (fun r => (r.verdict (values.get r.attributeId)).holds = true) r ∧
    (r.verdict (values.get r.attributeId)).warning = some message

section WarnsOf

variable {values : MemberValues} {message : String} {q : Query ResolvedOperand}
  {qs : List (Query ResolvedOperand)}

theorem warnsOf_rule_iff {r : Rule ResolvedOperand} : (rule r).WarnsOf values message ↔
    (r.verdict (values.get r.attributeId)).warning = some message := by
  simp [WarnsOf, reaches_rule_iff]

theorem not_warnsOf_nil {c : Combinator} : ¬ (group c []).WarnsOf values message := by
  simp [WarnsOf, not_reaches_nil]

theorem warnsOf_and_cons (t : Tally) : (group .and (q :: qs)).WarnsOf values message ↔
    q.WarnsOf values message ∨
      (evaluate values q t).1 = true ∧ (group .and qs).WarnsOf values message := by
  simp only [WarnsOf, reaches_and_cons, evaluate_iff_holds, or_and_right, exists_or, and_assoc,
    exists_and_left]

theorem warnsOf_or_cons (t : Tally) : (group .or (q :: qs)).WarnsOf values message ↔
    q.WarnsOf values message ∨
      ¬ (evaluate values q t).1 = true ∧ (group .or qs).WarnsOf values message := by
  simp only [WarnsOf, reaches_or_cons, evaluate_iff_holds, or_and_right, exists_or, and_assoc,
    exists_and_left]

end WarnsOf

mutual

/-- **An evaluation warns on account of the rules that it reaches**, and keeps what was there. -/
theorem mem_evaluate_warnings (values : MemberValues) {message : String} :
    ∀ (q : Query ResolvedOperand) (t : Tally), message ∈ (evaluate values q t).2.warnings ↔
      message ∈ t.warnings ∨ q.WarnsOf values message
  | .group .and qs, t => mem_evaluateAll_warnings values qs t
  | .group .or qs, t => mem_evaluateAny_warnings values qs t
  | .rule r, t => by
      rw [evaluate, warnsOf_rule_iff]
      exact Tally.mem_add_warnings

theorem mem_evaluateAll_warnings (values : MemberValues) {message : String} :
    ∀ (qs : List (Query ResolvedOperand)) (t : Tally),
      message ∈ (evaluateAll values qs t).2.warnings ↔
        message ∈ t.warnings ∨ (group .and qs).WarnsOf values message
  | [], t => by simp [evaluateAll, not_warnsOf_nil]
  | q :: qs, t => by
      have hq : message ∈ (evaluate values q t).2.warnings ↔ _ := mem_evaluate_warnings values q t
      have hqs : ∀ t' : Tally, message ∈ (evaluateAll values qs t').2.warnings ↔ _ :=
        mem_evaluateAll_warnings values qs
      rw [evaluateAll, warnsOf_and_cons t, ← or_assoc, ← hq]
      rcases evaluate values q t with ⟨_ | _, t'⟩
      · simp
      · simp [hqs]

theorem mem_evaluateAny_warnings (values : MemberValues) {message : String} :
    ∀ (qs : List (Query ResolvedOperand)) (t : Tally),
      message ∈ (evaluateAny values qs t).2.warnings ↔
        message ∈ t.warnings ∨ (group .or qs).WarnsOf values message
  | [], t => by simp [evaluateAny, not_warnsOf_nil]
  | q :: qs, t => by
      have hq : message ∈ (evaluate values q t).2.warnings ↔ _ := mem_evaluate_warnings values q t
      have hqs : ∀ t' : Tally, message ∈ (evaluateAny values qs t').2.warnings ↔ _ :=
        mem_evaluateAny_warnings values qs
      rw [evaluateAny, warnsOf_or_cons t, ← or_assoc, ← hq]
      rcases evaluate values q t with ⟨_ | _, t'⟩
      · simp [hqs]
      · simp

end

end Query

end TeamRouting
