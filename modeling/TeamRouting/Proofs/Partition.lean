import TeamRouting.Matching.Run
import TeamRouting.Proofs.Merging

/-!
# The members among the workers

The ranges of a fan-out cut the members into consecutive pieces, and nothing is left over
(`Fanout.flatten_chunks`).  A pass that no signal stops is therefore the sum over all members,
whatever the limits of the fan-out are and whatever was evaluated before
(`Pass.members_of_never`, `Engine.survey_of_never`).
-/

namespace TeamRouting

/-! ## Ranges -/

namespace Fanout

theorem le_ceilDiv_mul {d : Nat} (n : Nat) (hd : 0 < d) : n ≤ ceilDiv n d * d := by
  have hdiv : d * ((n + d - 1) / d) + (n + d - 1) % d = n + d - 1 := Nat.div_add_mod ..
  have hmod : (n + d - 1) % d < d := Nat.mod_lt _ hd
  rw [ceilDiv, Nat.mul_comm]
  omega

/-- Pieces of one size, taken one after the other, are a front part of the list. -/
theorem flatten_pieces {α : Type} (xs : List α) (size : Nat) :
    ∀ n, ((List.range n).map fun i => (xs.drop (i * size)).take size).flatten
      = xs.take (n * size) := by
  intro n
  induction n with
  | zero => simp
  | succ n ih =>
      rw [List.range_succ, List.map_append, List.flatten_append, ih, Nat.succ_mul, List.take_add]
      simp

/-- The last range may end early, but not before the list does. -/
theorem slice_range {α : Type} (xs : List α) (start size : Nat) :
    slice (start, min (start + size) xs.length) xs = (xs.drop start).take size := by
  rw [slice]
  simp only
  by_cases h : start + size ≤ xs.length
  · rw [Nat.min_eq_left h, Nat.add_sub_cancel_left]
  · have hlen : (xs.drop start).length = xs.length - start := List.length_drop
    rw [Nat.min_eq_right (by omega), List.take_of_length_le (by omega),
      List.take_of_length_le (by omega)]

/-- **The pieces of a fan-out are the whole**, in order: no member is lost and none is taken
twice. -/
theorem flatten_chunks {α : Type} (f : Fanout) (xs : List α) : (f.chunks xs).flatten = xs := by
  rw [chunks, ranges]
  by_cases hone : xs.length ≤ f.chunkSize xs.length
  · rw [if_pos hone]
    simp [slice]
  · rw [if_neg hone, List.map_map]
    have hpieces : ((fun range => slice range xs) ∘ fun i =>
          (i * f.chunkSize xs.length,
            min (i * f.chunkSize xs.length + f.chunkSize xs.length) xs.length))
        = fun i => (xs.drop (i * f.chunkSize xs.length)).take (f.chunkSize xs.length) := by
      funext i
      exact slice_range xs _ _
    rw [hpieces, flatten_pieces,
      List.take_of_length_le (le_ceilDiv_mul _ (f.chunkSize_pos xs.length))]

end Fanout

/-! ## Passes that no signal stops -/

namespace Pass

variable {p : Pass}

theorem range_of_never (hp : p.signal = .never) (earlier : Nat) (ms : List Member) :
    p.range earlier ms = p.strategy.surveyEach p.tree ms :=
  range_of_everybody (by rw [hp, Signal.before_never])

/-- Ranges gone through apart from each other add up. -/
theorem rangesFrom_of_never (hp : p.signal = .never) (earlier : Nat) :
    ∀ (chunks : List (List Member)) (s : Survey),
      p.rangesFrom earlier chunks s = s + p.strategy.surveyEach p.tree chunks.flatten := by
  intro chunks
  induction chunks with
  | nil => intro s; rw [rangesFrom, List.flatten_nil, Strategy.surveyEach_nil, add_zero]
  | cons chunk rest ih =>
      intro s
      have hnow : p.signal.isRaised (earlier + s.evaluations) = false := by
        rw [hp, Signal.isRaised_never]
      rw [rangesFrom, hnow, if_neg Bool.false_ne_true, range_of_never hp, ih,
        Survey.absorb_eq_add, List.flatten_cons, Strategy.surveyEach_append, add_assoc]

/-- **The fan-out leaves no trace in a pass.**  Whether the members are gone through at once or
range by range, the pass finds what they give one by one. -/
theorem members_of_never (hp : p.signal = .never) (earlier : Nat) (ms : List Member) :
    p.members earlier ms = p.strategy.surveyEach p.tree ms := by
  rw [members]
  by_cases hone : ms.length ≤ p.fanout.chunkSize ms.length
  · rw [if_pos hone, range_of_never hp]
  · rw [if_neg hone, rangesFrom_of_never hp, Fanout.flatten_chunks, Survey.empty_eq_zero, zero_add]

end Pass

/-! ## Surveys of an engine -/

namespace Engine

/-- A survey of a catalog depends on the strategy, the tree and the members alone. -/
theorem survey_of_never (engine : Engine) (earlier : Nat) (catalog : Catalog) (plan : Plan) :
    engine.survey .never earlier catalog plan
      = engine.strategy.surveyEach plan.tree catalog.members :=
  Pass.members_of_never rfl earlier catalog.members

end Engine

end TeamRouting
