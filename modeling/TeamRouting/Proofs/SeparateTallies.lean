import Mathlib.Algebra.BigOperators.Group.List.Basic
import TeamRouting.Proofs.Partition

/-!
# Tallies kept apart

Members may be decided about one after the other in one tally, or in pieces, each in a tally of its
own.  Since an evaluation acts on its tally only by merging, the tallies of the pieces merge to the
one tally, in whatever order and however grouped they are merged.

* `Strategy.decideEach` — members decided about one after the other, in one tally;
* `Strategy.decideEach_eq_merge` — a whole pass, too, acts on its tally only by merging;
* `Tally.MergesTo` — all ways of merging tallies, and `Tally.mergesTo_iff_sum` — their one result;
* `Strategy.sum_decideEach` — pieces add up;
* `Engine.survey_tally_eq_decideEach` — the surveys of an engine are such passes;
* `Strategy.tallies_merge` — all of it.
-/

namespace TeamRouting

/-! ## Merging in any order -/

namespace Tally

instance : Zero Tally := ⟨{}⟩

instance : Add Tally := ⟨merge⟩

theorem empty_merge (t : Tally) : merge {} t = t := (merge_comm {} t).trans (merge_empty t)

/-- Tallies add up by merging. -/
instance : AddCommMonoid Tally where
  add_assoc := merge_assoc
  add_comm := merge_comm
  add_zero := merge_empty
  zero_add := empty_merge
  nsmul := nsmulRec

theorem merge_eq_add (t u : Tally) : t.merge u = t + u := rfl

/-- **Tallies are merged to one**: the list is brought into any order, cut anywhere, and the parts
are merged first. -/
inductive MergesTo : List Tally → Tally → Prop
  | nothing : MergesTo [] {}
  | single (t : Tally) : MergesTo [t] t
  | merge {ts us : List Tally} {t u : Tally} (first : MergesTo ts t) (second : MergesTo us u) :
      MergesTo (ts ++ us) (t.merge u)
  | reorder {ts us : List Tally} {t : Tally} (order : ts.Perm us) (h : MergesTo ts t) :
      MergesTo us t

/-- **All ways of merging have one result.** -/
theorem mergesTo_iff_sum {ts : List Tally} {t : Tally} : MergesTo ts t ↔ t = ts.sum := by
  constructor
  · intro h
    induction h with
    | nothing => rfl
    | single t => rw [List.sum_singleton]
    | merge _ _ ihFirst ihSecond => rw [List.sum_append, ← ihFirst, ← ihSecond, merge_eq_add]
    | reorder order _ ih => rw [ih, order.sum_eq]
  · rintro rfl
    induction ts with
    | nil => exact .nothing
    | cons t ts ih => exact .merge (.single t) ih

end Tally

/-! ## Passes -/

namespace Strategy

/-- Decides about members one after the other, in one tally. -/
def decideEach (strategy : Strategy) (tree : Query ResolvedOperand) :
    List MemberValues → Tally → List Bool × Tally
  | [], t => ([], t)
  | values :: rest, t =>
    let first := strategy.evaluate tree values t
    let others := decideEach strategy tree rest first.2
    (first.1 :: others.1, others.2)

variable (strategy : Strategy) (tree : Query ResolvedOperand)

/-- **A pass acts on its tally only by merging**, because each of its evaluations does. -/
theorem decideEach_eq_merge : ∀ (members : List MemberValues) (t : Tally),
    strategy.decideEach tree members t
      = ((strategy.decideEach tree members {}).1,
          t.merge (strategy.decideEach tree members {}).2) := by
  intro members
  induction members with
  | nil => intro t; rfl
  | cons values rest ih =>
      intro t
      simp only [decideEach]
      rw [strategy.evaluate_eq_merge tree values t]
      simp only
      rw [ih (t.merge _), ih (strategy.evaluate tree values {}).2, Tally.merge_assoc]

/-- The first member, and the others in a tally of their own. -/
theorem decideEach_cons (values : MemberValues) (rest : List MemberValues) :
    strategy.decideEach tree (values :: rest) {}
      = ((strategy.evaluate tree values {}).1 :: (strategy.decideEach tree rest {}).1,
          (strategy.evaluate tree values {}).2 + (strategy.decideEach tree rest {}).2) := by
  rw [decideEach, decideEach_eq_merge]
  rfl

/-- Two passes, each in a tally of its own, against one. -/
theorem decideEach_append (members members' : List MemberValues) :
    strategy.decideEach tree (members ++ members') {}
      = ((strategy.decideEach tree members {}).1 ++ (strategy.decideEach tree members' {}).1,
          (strategy.decideEach tree members {}).2 + (strategy.decideEach tree members' {}).2) := by
  induction members with
  | nil => exact Prod.ext rfl (zero_add _).symm
  | cons values rest ih =>
      rw [List.cons_append, decideEach_cons, ih, decideEach_cons, add_assoc, List.cons_append]

/-- **Pieces add up**: their results follow each other, and their tallies have the tally of the
whole as their sum. -/
theorem sum_decideEach (pieces : List (List MemberValues)) :
    strategy.decideEach tree pieces.flatten {}
      = (pieces.flatMap fun piece => (strategy.decideEach tree piece {}).1,
          (pieces.map fun piece => (strategy.decideEach tree piece {}).2).sum) := by
  induction pieces with
  | nil => rfl
  | cons piece rest ih =>
      rw [List.flatten_cons, decideEach_append, ih, List.flatMap_cons, List.map_cons, List.sum_cons]

/-- The sum over single members has the tally of a pass. -/
theorem surveyEach_tally (ms : List Member) : (strategy.surveyEach tree ms).tally
    = (strategy.decideEach tree (ms.map Member.values) {}).2 := by
  induction ms with
  | nil => rfl
  | cons m rest ih =>
      have hadd : (strategy.surveyOne tree m + strategy.surveyEach tree rest).tally
          = (strategy.surveyOne tree m).tally + (strategy.surveyEach tree rest).tally := rfl
      rw [surveyEach_cons, hadd, ih, List.map_cons, decideEach_cons]
      rfl

end Strategy

/-- What an engine finds range by range, each in a tally of its own, is tallied as in one pass. -/
theorem Engine.survey_tally_eq_decideEach (engine : Engine) (earlier : Nat) (catalog : Catalog)
    (plan : Plan) : (engine.survey .never earlier catalog plan).tally
      = (engine.strategy.decideEach plan.tree (catalog.members.map Member.values) {}).2 := by
  rw [survey_of_never, Strategy.surveyEach_tally]

namespace Strategy

/-- **Evaluations act on a tally only by merging.**  An evaluation reaches the verdict that it
reaches with an empty tally, and leaves the tally that it was given merged with the one that it
leaves of an empty one.  Merging is associative and commutative, and the empty tally changes
nothing.  Hence, however a list of members is cut into consecutive pieces, the pieces have the
verdicts of one pass over the list, and their tallies merge to the tally of that pass and, in
whatever order they are merged, to no other; and so the surveys of an engine have that tally,
whatever its fan-out is. -/
theorem tallies_merge :
    (∀ (strategy : Strategy) (tree : Query ResolvedOperand) (values : MemberValues) (t : Tally),
      (strategy.evaluate tree values t).1 = (strategy.evaluate tree values {}).1 ∧
      (strategy.evaluate tree values t).2 = t.merge (strategy.evaluate tree values {}).2) ∧
    (∀ t u v : Tally, (t.merge u).merge v = t.merge (u.merge v)) ∧
    (∀ t u : Tally, t.merge u = u.merge t) ∧
    (∀ t : Tally, t.merge {} = t ∧ Tally.merge {} t = t) ∧
    (∀ (strategy : Strategy) (tree : Query ResolvedOperand) (members : List MemberValues)
        (pieces : List (List MemberValues)), pieces.flatten = members →
      (pieces.flatMap fun piece => (strategy.decideEach tree piece {}).1)
        = (strategy.decideEach tree members {}).1 ∧
      ∀ t : Tally,
        Tally.MergesTo (pieces.map fun piece => (strategy.decideEach tree piece {}).2) t ↔
          t = (strategy.decideEach tree members {}).2) ∧
    ∀ (engine : Engine) (earlier : Nat) (catalog : Catalog) (plan : Plan),
      (engine.survey .never earlier catalog plan).tally
        = (engine.strategy.decideEach plan.tree (catalog.members.map Member.values) {}).2 := by
  refine ⟨fun strategy tree values t => ?_, Tally.merge_assoc, Tally.merge_comm,
    fun t => ⟨t.merge_empty, t.empty_merge⟩, ?_, Engine.survey_tally_eq_decideEach⟩
  · rw [strategy.evaluate_eq_merge tree values t]
    exact ⟨rfl, rfl⟩
  · rintro strategy tree _ pieces rfl
    rw [sum_decideEach]
    exact ⟨rfl, fun t => Tally.mergesTo_iff_sum⟩

/-- The first of three members is decided about alone, and the tallies are merged backwards.  Two
members have no number, and there is one warning of it. -/
theorem tallies_merge_backwards :
    ∃ (tree : Query ResolvedOperand) (a b c : MemberValues),
      tree = .group .or [.rule ⟨"region", .isEmpty, none⟩,
        .rule ⟨"level", .greaterThan, some (.static (.single (.integer 1)))⟩] ∧
      a = ∅ ∧ b = .ofList [("region", ["eu"])] ∧
      c = .ofList [("region", ["us"]), ("level", ["1", "2"])] ∧
      [[a], [b, c]].flatten = [a, b, c] ∧
      (attributeLogic.decideEach tree [b, c] {}).2.merge (attributeLogic.decideEach tree [a] {}).2
        = (attributeLogic.decideEach tree [a, b, c] {}).2 ∧
      attributeLogic.decideEach tree [a, b, c] {}
        = ([true, false, false], ⟨5, .ofList [numberWarning "level" .greaterThan]⟩) := by
  refine ⟨_, _, _, _, rfl, rfl, rfl, rfl, rfl, ?_, by decide⟩
  refine ((tallies_merge.2.2.2.2.1 attributeLogic _ _ [[_], [_, _]] rfl).2 _).1 ?_
  exact .reorder (List.Perm.swap _ _ []) (.merge (.single _) (.single _))

end Strategy

end TeamRouting
