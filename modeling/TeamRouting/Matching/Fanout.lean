/-!
# Fan-out

How the members of a catalog are divided among workers: into consecutive ranges of one size, no
more of them than the setting allows, and none but the last smaller than a worker is worth.

* `Fanout` — the two limits;
* `Fanout.chunkSize` — the size of the ranges;
* `Fanout.ranges` — the ranges of so many members.
-/

namespace TeamRouting

/-- The limits of a division among workers. -/
structure Fanout where
  /-- the greatest number of ranges -/
  workers : Nat
  /-- the least number of members in a range, but for the last -/
  least : Nat
  workers_pos : 0 < workers := by decide
  least_pos : 0 < least := by decide
deriving DecidableEq

namespace Fanout

instance : Inhabited Fanout := ⟨{ workers := 1, least := 1 }⟩

/-- The limits that two settings stand for; zero is taken for one. -/
def ofLimits (workers least : Nat) : Fanout where
  workers := max workers 1
  least := max least 1
  workers_pos := by omega
  least_pos := by omega

/-- The quotient of two numbers, rounded up. -/
def ceilDiv (n d : Nat) : Nat := (n + d - 1) / d

/-- The size of the ranges of so many members. -/
def chunkSize (f : Fanout) (total : Nat) : Nat := max (ceilDiv total f.workers) f.least

/-- Every range but an empty one has a size. -/
theorem chunkSize_pos (f : Fanout) (total : Nat) : 0 < f.chunkSize total :=
  Nat.lt_of_lt_of_le f.least_pos (Nat.le_max_right ..)

/-- The ranges of so many members: from the first index to below the second. A single range is
the whole, even if it is empty. -/
def ranges (f : Fanout) (total : Nat) : List (Nat × Nat) :=
  let size := f.chunkSize total
  if total ≤ size then
    [(0, total)]
  else
    (List.range (ceilDiv total size)).map fun i => (i * size, min (i * size + size) total)

/-- The elements of a list within a range. -/
def slice {α : Type} (range : Nat × Nat) (xs : List α) : List α :=
  (xs.drop range.1).take (range.2 - range.1)

/-- The elements of a list, range by range. -/
def chunks {α : Type} (f : Fanout) (xs : List α) : List (List α) :=
  (f.ranges xs.length).map fun range => slice range xs

end Fanout

end TeamRouting
