import TeamRouting.Evaluation
import TeamRouting.Matching.Fanout
import TeamRouting.Matching.Signal

/-!
# Surveys

One pass over the members of a catalog with one tree. The members are divided into ranges; each
range is gone through by itself, in a context of its own, and what they found is put together. The
cancellation signal is looked at before every member and before every range.

* `Survey` — what a pass finds;
* `Pass.range` — a pass over a range;
* `Pass.members` — a pass over all members.
-/

namespace TeamRouting

/-- What a pass over members finds. -/
structure Survey where
  /-- the ids of members who satisfy the tree -/
  matched : NameSet := ∅
  tally : Tally := {}
  /-- the pass was called off -/
  canceled : Bool := false
  /-- the members who were evaluated -/
  evaluations : Nat := 0
deriving DecidableEq, Inhabited

namespace Survey

/-- What two passes find together. -/
def absorb (s t : Survey) : Survey where
  matched := s.matched.union t.matched
  tally := s.tally.merge t.tally
  canceled := s.canceled || t.canceled
  evaluations := s.evaluations + t.evaluations

/-- A survey that ends here because the signal is up. -/
def cancel (s : Survey) : Survey := { s with canceled := true }

/-- One more member, evaluated with this result and this tally. -/
def add (s : Survey) (m : Member) (result : Bool × Tally) : Survey where
  matched := if result.1 then s.matched.insert m.id else s.matched
  tally := result.2
  canceled := s.canceled
  evaluations := s.evaluations + 1

end Survey

/-- What a pass is made with. -/
structure Pass where
  strategy : Strategy
  tree : Query ResolvedOperand
  signal : Signal
  fanout : Fanout

namespace Pass

/-- Goes on with a pass over a range. The members evaluated earlier in the run are counted
apart. -/
def rangeFrom (p : Pass) (earlier : Nat) : List Member → Survey → Survey
  | [], s => s
  | m :: rest, s =>
    if p.signal.isRaised (earlier + s.evaluations) then
      s.cancel
    else
      p.rangeFrom earlier rest (s.add m (p.strategy.evaluate p.tree m.values s.tally))

/-- A pass over a range. -/
def range (p : Pass) (earlier : Nat) (members : List Member) : Survey :=
  p.rangeFrom earlier members {}

/-- Goes on with a pass over several ranges. -/
def rangesFrom (p : Pass) (earlier : Nat) : List (List Member) → Survey → Survey
  | [], s => s
  | chunk :: rest, s =>
    if p.signal.isRaised (earlier + s.evaluations) then
      s.cancel
    else
      p.rangesFrom earlier rest (s.absorb (p.range (earlier + s.evaluations) chunk))

/-- A pass over all members. If one range holds them all, it is gone through directly. -/
def members (p : Pass) (earlier : Nat) (ms : List Member) : Survey :=
  if ms.length ≤ p.fanout.chunkSize ms.length then
    p.range earlier ms
  else
    p.rangesFrom earlier (p.fanout.chunks ms) {}

end Pass

end TeamRouting
