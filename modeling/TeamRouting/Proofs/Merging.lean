import Mathlib.Algebra.BigOperators.Group.List.Basic
import TeamRouting.Matching.Survey

/-!
# What evaluations add up to

Workers go through their members apart from each other, each with a tally of its own, and what
they found is put together afterwards.  That nothing is lost, counted twice or put in another
order by this rests on two facts.

* Tallies and surveys are **commutative monoids** under `Tally.merge` and `Survey.absorb`, so sums
  over lists of members, and all that is known about such sums, apply to them.
* An evaluation acts on the tally it is given **only by merging** (`Query.evaluate_eq_merge`,
  `Strategy.evaluate_eq_merge`): it reaches the same verdict as with an empty tally, and adds the
  same.

Hence a pass is a sum over the members who are asked before the signal is up, one summand for each
(`Strategy.surveyEach`, `Signal.before`, `Pass.range_eq`), and the sum says who is matched
(`Strategy.mem_surveyEach_matched`).
-/

namespace TeamRouting

/-! ## Unions of names -/

namespace NameSet

@[simp] theorem mem_emptyCollection {x : String} : x ∈ (∅ : NameSet) ↔ False :=
  iff_of_false not_mem_empty not_false

theorem union_comm (s t : NameSet) : s.union t = t.union s := by
  ext x
  rw [mem_union, mem_union, or_comm]

theorem union_assoc (s t u : NameSet) : (s.union t).union u = s.union (t.union u) := by
  ext x
  simp only [mem_union, or_assoc]

@[simp] theorem union_empty (s : NameSet) : s.union ∅ = s := rfl

theorem insert_eq_union (s : NameSet) (a : String) :
    s.insert a = s.union ((∅ : NameSet).insert a) := by
  ext x
  simp only [mem_insert, mem_union, mem_emptyCollection, or_false]
  exact or_comm

theorem isEmpty_iff {s : NameSet} : s.isEmpty = true ↔ ∀ x, x ∉ s := by
  rw [isEmpty, List.isEmpty_iff]
  exact List.eq_nil_iff_forall_not_mem

end NameSet

/-! ## Tallies -/

namespace Tally

theorem merge_comm (t u : Tally) : t.merge u = u.merge t := by
  rw [merge, merge, Nat.add_comm, NameSet.union_comm]

theorem merge_assoc (t u v : Tally) : (t.merge u).merge v = t.merge (u.merge v) := by
  simp only [merge, Nat.add_assoc, NameSet.union_assoc]

@[simp] theorem merge_empty (t : Tally) : t.merge {} = t := rfl

/-- What one rule adds to a tally does not depend on the tally. -/
theorem add_eq_merge (t : Tally) (v : Verdict) : t.add v = t.merge (Tally.add {} v) := by
  cases h : v.warning with
  | none => simp only [add, h, count, merge, NameSet.union_empty, Nat.zero_add]
  | some message =>
      simp only [add, h, count, warn, merge, Nat.zero_add]
      rw [NameSet.insert_eq_union]

end Tally

/-! ## Evaluations -/

namespace Query

mutual

/-- **An evaluation acts on a tally only by merging.**  The verdict does not depend on what was
tallied before, and neither does what is added. -/
theorem evaluate_eq_merge (values : MemberValues) : ∀ (q : Query ResolvedOperand) (t : Tally),
    evaluate values q t = ((evaluate values q {}).1, t.merge (evaluate values q {}).2)
  | .group .and qs, t => by
      rw [evaluate, evaluate]
      exact evaluateAll_eq_merge values qs t
  | .group .or qs, t => by
      rw [evaluate, evaluate]
      exact evaluateAny_eq_merge values qs t
  | .rule r, t => by
      rw [evaluate, evaluate, Tally.add_eq_merge t]

theorem evaluateAll_eq_merge (values : MemberValues) :
    ∀ (qs : List (Query ResolvedOperand)) (t : Tally),
      evaluateAll values qs t = ((evaluateAll values qs {}).1, t.merge (evaluateAll values qs {}).2)
  | [], t => by simp only [evaluateAll, Tally.merge_empty]
  | q :: qs, t => by
      rw [evaluateAll, evaluateAll, evaluate_eq_merge values q t]
      cases h : evaluate values q {} with
      | mk holds u =>
          cases holds with
          | false => rfl
          | true =>
              simp only
              rw [evaluateAll_eq_merge values qs (t.merge u), evaluateAll_eq_merge values qs u,
                Tally.merge_assoc]

theorem evaluateAny_eq_merge (values : MemberValues) :
    ∀ (qs : List (Query ResolvedOperand)) (t : Tally),
      evaluateAny values qs t = ((evaluateAny values qs {}).1, t.merge (evaluateAny values qs {}).2)
  | [], t => by simp only [evaluateAny, Tally.merge_empty]
  | q :: qs, t => by
      rw [evaluateAny, evaluateAny, evaluate_eq_merge values q t]
      cases h : evaluate values q {} with
      | mk holds u =>
          cases holds with
          | true => rfl
          | false =>
              simp only
              rw [evaluateAny_eq_merge values qs (t.merge u), evaluateAny_eq_merge values qs u,
                Tally.merge_assoc]

end

end Query

namespace Strategy

theorem evaluate_eq_merge (strategy : Strategy) (tree : Query ResolvedOperand)
    (values : MemberValues) (t : Tally) :
    strategy.evaluate tree values t
      = ((strategy.evaluate tree values {}).1, t.merge (strategy.evaluate tree values {}).2) := by
  cases strategy with
  | attributeLogic => exact tree.evaluate_eq_merge values t
  | matchAll => rfl

/-- Whether a member satisfies a tree. -/
def satisfies (strategy : Strategy) (tree : Query ResolvedOperand) (m : Member) : Bool :=
  (strategy.evaluate tree m.values {}).1

end Strategy

/-! ## Surveys -/

namespace Survey

theorem absorb_comm (s t : Survey) : s.absorb t = t.absorb s := by
  simp only [absorb, NameSet.union_comm s.matched, Tally.merge_comm s.tally,
    Bool.or_comm s.canceled, Nat.add_comm s.evaluations]

theorem absorb_assoc (s t u : Survey) : (s.absorb t).absorb u = s.absorb (t.absorb u) := by
  simp only [absorb, NameSet.union_assoc, Tally.merge_assoc, Bool.or_assoc, Nat.add_assoc]

theorem absorb_empty (s : Survey) : s.absorb {} = s := by
  simp only [absorb, NameSet.union_empty, Tally.merge_empty, Bool.or_false, Nat.add_zero]

instance : Zero Survey := ⟨{}⟩

instance : Add Survey := ⟨absorb⟩

/-- Surveys add up to what they find together. -/
instance : AddCommMonoid Survey where
  add_assoc := absorb_assoc
  add_comm := absorb_comm
  add_zero := absorb_empty
  zero_add s := (absorb_comm {} s).trans (absorb_empty s)
  nsmul := nsmulRec

theorem absorb_eq_add (s t : Survey) : s.absorb t = s + t := rfl

theorem empty_eq_zero : ({} : Survey) = 0 := rfl

end Survey

/-! ## Members one by one -/

namespace Strategy

variable (strategy : Strategy) (tree : Query ResolvedOperand)

/-- What a pass over one member finds. -/
def surveyOne (m : Member) : Survey :=
  ({} : Survey).add m (strategy.evaluate tree m.values {})

/-- What passes over several members find, one member at a time. -/
def surveyEach (ms : List Member) : Survey := (ms.map (strategy.surveyOne tree)).sum

@[simp] theorem surveyEach_nil : strategy.surveyEach tree [] = 0 := rfl

theorem surveyEach_cons (m : Member) (ms : List Member) :
    strategy.surveyEach tree (m :: ms)
      = strategy.surveyOne tree m + strategy.surveyEach tree ms := by
  rw [surveyEach, List.map_cons, List.sum_cons, surveyEach]

theorem surveyEach_append (ms ms' : List Member) :
    strategy.surveyEach tree (ms ++ ms')
      = strategy.surveyEach tree ms + strategy.surveyEach tree ms' := by
  rw [surveyEach, List.map_append, List.sum_append, surveyEach, surveyEach]

/-- The order of the members does not show. -/
theorem surveyEach_perm {ms ms' : List Member} (h : ms.Perm ms') :
    strategy.surveyEach tree ms = strategy.surveyEach tree ms' :=
  (h.map _).sum_eq

/-- One more member adds to a survey what it adds to an empty one. -/
theorem add_eq_add_surveyOne (s : Survey) (m : Member) :
    s.add m (strategy.evaluate tree m.values s.tally) = s + strategy.surveyOne tree m := by
  rw [← Survey.absorb_eq_add, evaluate_eq_merge]
  simp only [surveyOne, Survey.add, Survey.absorb, Bool.or_false, Nat.zero_add]
  cases (strategy.evaluate tree m.values {}).1 with
  | false => simp only [Bool.false_eq_true, if_false, NameSet.union_empty]
  | true => simp only [if_true]; rw [NameSet.insert_eq_union]

theorem mem_surveyOne_matched {m : Member} {id : String} :
    id ∈ (strategy.surveyOne tree m).matched ↔ m.id = id ∧ strategy.satisfies tree m = true := by
  rw [surveyOne, Survey.add, satisfies]
  cases (strategy.evaluate tree m.values {}).1 with
  | false => simp
  | true => simp [eq_comm]

/-- **Who is matched**: the ids of the members who satisfy the tree.  Of several members with one
id it takes only one who does. -/
theorem mem_surveyEach_matched {ms : List Member} {id : String} :
    id ∈ (strategy.surveyEach tree ms).matched ↔
      ∃ m ∈ ms, m.id = id ∧ strategy.satisfies tree m = true := by
  induction ms with
  | nil => simp [← Survey.empty_eq_zero]
  | cons m rest ih =>
      rw [surveyEach_cons, ← Survey.absorb_eq_add, Survey.absorb, NameSet.mem_union,
        mem_surveyOne_matched, ih]
      simp only [List.exists_mem_cons_iff]

theorem surveyEach_canceled (ms : List Member) :
    (strategy.surveyEach tree ms).canceled = false := by
  induction ms with
  | nil => rfl
  | cons m rest ih =>
      rw [surveyEach_cons, ← Survey.absorb_eq_add, Survey.absorb, ih]
      rfl

end Strategy

/-! ## Members up to a signal -/

namespace Signal

variable {α : Type} {signal : Signal} {k : Nat} {xs : List α}

/-- What there is time for before the signal is up, after so many evaluations. -/
def before (signal : Signal) (earlier : Nat) (xs : List α) : List α :=
  match signal.raisedAfter with
  | none => xs
  | some n => xs.take (n - earlier)

@[simp] theorem before_never : never.before k xs = xs := rfl

theorem before_of_some (n : Nat) : (⟨some n⟩ : Signal).before k xs = xs.take (n - k) := rfl

@[simp] theorem before_nil : signal.before k ([] : List α) = [] := by
  obtain ⟨n | n⟩ := signal
  · rfl
  · rw [before_of_some, List.take_nil]

theorem before_of_raised (h : signal.isRaised k = true) (xs : List α) :
    signal.before k xs = [] := by
  obtain ⟨n | n⟩ := signal
  · cases h
  · have hn : n ≤ k := of_decide_eq_true h
    rw [before_of_some, Nat.sub_eq_zero_of_le hn, List.take_zero]

theorem before_cons (h : signal.isRaised k = false) (x : α) (xs : List α) :
    signal.before k (x :: xs) = x :: signal.before (k + 1) xs := by
  obtain ⟨n | n⟩ := signal
  · rfl
  · have hn : ¬ n ≤ k := of_decide_eq_false h
    have hleft : n - k = n - (k + 1) + 1 := by omega
    rw [before_of_some, before_of_some, hleft, List.take_succ_cons]

/-- If there is time for as many as there are, there is time for all. -/
theorem before_of_length_le (h : xs.length ≤ (signal.before k xs).length) :
    signal.before k xs = xs := by
  obtain ⟨n | n⟩ := signal
  · rfl
  · rw [before_of_some, List.length_take] at h
    rw [before_of_some, List.take_of_length_le (by omega)]

end Signal

namespace Survey

/-- The same survey, called off or not. -/
def ended (s : Survey) (canceled : Bool) : Survey := { s with canceled := canceled }

@[simp] theorem ended_canceled (s : Survey) : s.ended s.canceled = s := rfl

theorem ended_true (s : Survey) : s.ended true = s.cancel := rfl

end Survey

namespace Pass

variable {p : Pass}

/-- **A range asks its members until the signal is up**, and finds what each of these gives alone.
It was called off if that leaves out anybody. -/
theorem rangeFrom_eq (earlier : Nat) : ∀ (ms : List Member) (s : Survey),
    p.rangeFrom earlier ms s =
      (s + p.strategy.surveyEach p.tree (p.signal.before (earlier + s.evaluations) ms)).ended
        (s.canceled ||
          decide ((p.signal.before (earlier + s.evaluations) ms).length < ms.length)) := by
  intro ms
  induction ms with
  | nil =>
      intro s
      rw [rangeFrom, Signal.before_nil, Strategy.surveyEach_nil, add_zero]
      simp
  | cons m rest ih =>
      intro s
      rw [rangeFrom]
      cases hnow : p.signal.isRaised (earlier + s.evaluations) with
      | true =>
          rw [if_pos rfl, Signal.before_of_raised hnow, Strategy.surveyEach_nil, add_zero]
          simp [Survey.ended_true]
      | false =>
          -- the member is asked, and then there is one evaluation more
          have hcount : (s + p.strategy.surveyOne p.tree m).evaluations = s.evaluations + 1 := rfl
          have hcanceled : (s + p.strategy.surveyOne p.tree m).canceled = s.canceled :=
            Bool.or_false _
          rw [if_neg Bool.false_ne_true, Strategy.add_eq_add_surveyOne, ih, hcount, hcanceled,
            Signal.before_cons hnow, Strategy.surveyEach_cons,
            add_assoc s (p.strategy.surveyOne p.tree m), Nat.add_assoc, List.length_cons,
            List.length_cons]
          simp only [Nat.add_lt_add_iff_right]

theorem range_eq (earlier : Nat) (ms : List Member) :
    p.range earlier ms = (p.strategy.surveyEach p.tree (p.signal.before earlier ms)).ended
      (decide ((p.signal.before earlier ms).length < ms.length)) := by
  rw [range, rangeFrom_eq, Bool.false_or, Nat.add_zero, Survey.empty_eq_zero, zero_add]

/-- A range that asks everybody comes to its end. -/
theorem range_of_everybody {earlier : Nat} {ms : List Member}
    (h : p.signal.before earlier ms = ms) :
    p.range earlier ms = p.strategy.surveyEach p.tree ms := by
  have hcanceled : decide (ms.length < ms.length) = (p.strategy.surveyEach p.tree ms).canceled := by
    rw [Strategy.surveyEach_canceled]
    simp
  rw [range_eq, h, hcanceled, Survey.ended_canceled]

end Pass

end TeamRouting
