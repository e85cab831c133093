import Mathlib.Algebra.Order.Floor.Div
import TeamRouting.Proofs.Partition
import TeamRouting.Settings

/-!
# Ranges in machine words

The ranges of a fan-out are computed with words of 64 bits, where a division may find a zero below
it, a loop may not move on, and a sum may be too large.  None of this happens, as long as there are
fewer than 2^63 members, and the words are the numbers of `Fanout.ranges`.

* `Word.add`, `Word.ceilDiv`, `Word.rangesFrom`, `Word.ranges` — the computation, which stops at a
  `Trap`;
* `Engine.Built` — all ways in which an engine comes by its limits;
* `Word.rangesFrom_eq` — what one round of the loop after the other does;
* `Fanout.length_ranges_le`, `Fanout.least_le_of_mem_dropLast` — how many ranges there are, and how
  large they are;
* `Engine.ranges_in_words` — all of it for an engine.
-/

namespace TeamRouting

/-! ## Computing with words -/

/-- Why a computation with words stops. -/
inductive Trap where
  | divisionByZero
  /-- a loop over every so many numbers that does not move on -/
  | standstill
  | overflow
deriving DecidableEq, Repr

namespace Word

/-- The sum of two words, if it is one. -/
def add (a b : UInt64) : Except Trap UInt64 :=
  if a.toNat + b.toNat < 2 ^ 64 then .ok (a + b) else .error .overflow

/-- The quotient of two words, rounded up. -/
def ceilDiv (n d : UInt64) : Except Trap UInt64 :=
  if d = 0 then .error .divisionByZero
  else if n % d = 0 then .ok (n / d)
  else add (n / d) 1

/-- The size of the ranges of so many members. -/
def chunkSize (workers least total : UInt64) : Except Trap UInt64 := do
  return max (max (← ceilDiv total workers) least) 1

/-- So many rounds of the loop that makes ranges.  Going on to the next round is not looked at: the
start behind the last range may be any word. -/
def rangesFrom (size total : UInt64) : Nat → UInt64 → Except Trap (List (UInt64 × UInt64))
  | 0, _ => .ok []
  | rounds + 1, start => do
    let stop ← add start size
    let rest ← rangesFrom size total rounds (start + size)
    return (start, min stop total) :: rest

/-- The ranges of so many members. -/
def ranges (workers least total : UInt64) : Except Trap (List (UInt64 × UInt64)) := do
  let size ← chunkSize workers least total
  if total ≤ size then
    return [(0, total)]
  else if size = 0 then
    throw .standstill
  else
    let rounds ← ceilDiv total size
    rangesFrom size total rounds.toNat 0

/-- The numbers of a range. -/
def bounds (range : UInt64 × UInt64) : Nat × Nat := (range.1.toNat, range.2.toNat)

end Word

/-! ## The limits of engines -/

/-- **How engines come by their limits**, and the words in which these are kept: an engine has the
usual limits, or those of settings, checked or not, and they may be replaced any number of times.
What is given as zero is kept as one. -/
inductive Engine.Built : Engine → UInt64 → UInt64 → Prop
  | usual (strategy : Strategy) : Built { strategy := strategy } 4 64
  | ofSettings (s : Settings) (workers least : UInt64) (hworkers : s.parallelism = workers.toNat)
      (hleast : s.minMembersPerTask = least.toNat) : Built s.engine (max workers 1) (max least 1)
  | withFanout {engine : Engine} {workers' least' : UInt64} (h : Built engine workers' least')
      (workers least : UInt64) :
      Built (engine.withFanout workers.toNat least.toNat) (max workers 1) (max least 1)

theorem Engine.Built.limits {engine : Engine} {workers least : UInt64}
    (h : engine.Built workers least) :
    engine.fanout.workers = workers.toNat ∧ engine.fanout.least = least.toNat := by
  cases h with
  | usual strategy => exact ⟨rfl, rfl⟩
  | ofSettings s workers least hworkers hleast =>
      rw [UInt64.toNat_max, UInt64.toNat_max, ← hworkers, ← hleast]
      exact ⟨rfl, rfl⟩
  | withFanout h workers least =>
      rw [UInt64.toNat_max, UInt64.toNat_max]
      exact ⟨rfl, rfl⟩

/-! ## Quotients that are rounded up -/

namespace Fanout

variable {n d k : Nat}

theorem ceilDiv_le_iff (hd : 0 < d) : ceilDiv n d ≤ k ↔ n ≤ k * d := by
  rw [Nat.mul_comm]
  exact ceilDiv_le_iff_le_mul hd

/-- With a remainder there is one more than the quotient that is rounded down, without one there is
not. -/
theorem ceilDiv_eq_div (hd : 0 < d) :
    ceilDiv n d = if n % d = 0 then n / d else n / d + 1 := by
  have hdiv : n / d * d + n % d = n := Nat.div_add_mod' n d
  have hlt : n % d < d := Nat.mod_lt n hd
  have hle : n ≤ ceilDiv n d * d := le_ceilDiv_mul n hd
  split
  · next hmod =>
    refine le_antisymm ((ceilDiv_le_iff hd).2 (by omega)) (Nat.le_of_mul_le_mul_right ?_ hd)
    omega
  · next hmod =>
    refine le_antisymm ((ceilDiv_le_iff hd).2 ?_) (Nat.lt_of_mul_lt_mul_right (a := d) ?_)
    · rw [Nat.succ_mul]
      omega
    · omega

/-- The last of the pieces that cover a number begins below it. -/
theorem ceilDiv_mul_lt (hd : 0 < d) : ceilDiv n d * d < n + d := by
  have h : ceilDiv n d * d ≤ n + d - 1 := Nat.div_mul_le_self (n + d - 1) d
  omega

/-! ## How many ranges there are, and how large they are -/

variable (f : Fanout) {total : Nat} {range : Nat × Nat}

/-- Of several ranges each starts below the number of members. -/
theorem mul_chunkSize_lt {i : Nat} (hi : i < ceilDiv total (f.chunkSize total)) :
    i * f.chunkSize total < total := by
  have hlast : ceilDiv total (f.chunkSize total) * f.chunkSize total < total + f.chunkSize total :=
    ceilDiv_mul_lt (f.chunkSize_pos total)
  have hle : (i + 1) * f.chunkSize total
      ≤ ceilDiv total (f.chunkSize total) * f.chunkSize total := Nat.mul_le_mul_right _ hi
  rw [Nat.succ_mul] at hle
  omega

/-- Ranges lie among the members. -/
theorem bounds_of_mem_ranges (h : range ∈ f.ranges total) :
    range.1 ≤ range.2 ∧ range.2 ≤ total := by
  rw [ranges] at h
  split at h
  · rw [List.mem_singleton.1 h]
    exact ⟨Nat.zero_le _, le_refl _⟩
  · obtain ⟨i, hi, rfl⟩ := List.mem_map.1 h
    have hstart := f.mul_chunkSize_lt (List.mem_range.1 hi)
    exact ⟨le_min (Nat.le_add_right _ _) hstart.le, min_le_right _ _⟩

/-- **The ranges are a partition.**  One after the other they go through all members, each of them
once and in order. -/
theorem flatMap_ranges :
    ((f.ranges total).flatMap fun range => List.range' range.1 (range.2 - range.1))
      = List.range total := by
  have hslice : ∀ range ∈ f.ranges total,
      List.range' range.1 (range.2 - range.1) = slice range (List.range total) := by
    intro range h
    obtain ⟨-, hstop⟩ := f.bounds_of_mem_ranges h
    rw [slice, List.range_eq_range', List.drop_range', List.take_range'_of_length_ge (by omega),
      Nat.zero_add, Nat.mul_one]
  have hchunks := f.flatten_chunks (List.range total)
  rw [chunks, List.length_range] at hchunks
  rw [List.flatMap_def, List.map_congr_left hslice, hchunks]

/-- **There are no more ranges than workers**, since a range is no smaller than an equal share. -/
theorem length_ranges_le : (f.ranges total).length ≤ f.workers := by
  rw [ranges]
  split
  · exact f.workers_pos
  · have hshare : total ≤ ceilDiv total f.workers * f.workers := le_ceilDiv_mul total f.workers_pos
    have hsize : ceilDiv total f.workers ≤ f.chunkSize total := Nat.le_max_left _ _
    rw [List.length_map, List.length_range, ceilDiv_le_iff (f.chunkSize_pos total), Nat.mul_comm]
    exact le_trans hshare (Nat.mul_le_mul_right _ hsize)

/-- **Every range but the last is worth a worker.** -/
theorem least_le_of_mem_dropLast (h : range ∈ (f.ranges total).dropLast) :
    f.least ≤ range.2 - range.1 := by
  rw [ranges] at h
  split at h
  · cases h
  · next hmany =>
    -- the ranges in front of the last one
    obtain ⟨n, hn⟩ : ∃ n, ceilDiv total (f.chunkSize total) = n + 1 := by
      refine Nat.exists_eq_succ_of_ne_zero fun hnone => ?_
      have := le_ceilDiv_mul total (f.chunkSize_pos total)
      rw [hnone, Nat.zero_mul] at this
      omega
    rw [hn, List.range_succ, List.map_append, List.map_singleton, List.dropLast_concat] at h
    obtain ⟨i, hi, rfl⟩ := List.mem_map.1 h
    -- a range follows, and starts where this one ends
    have hnext : (i + 1) * f.chunkSize total < total :=
      f.mul_chunkSize_lt (by rw [hn]; exact Nat.succ_lt_succ (List.mem_range.1 hi))
    rw [Nat.succ_mul] at hnext
    have hleast : f.least ≤ f.chunkSize total := Nat.le_max_right _ _
    simp only [Nat.min_eq_left hnext.le, Nat.add_sub_cancel_left]
    exact hleast

end Fanout

/-! ## What comes of the computation -/

namespace Word

theorem add_eq_ok {a b : UInt64} (h : a.toNat + b.toNat < 2 ^ 64) : add a b = .ok (a + b) :=
  if_pos h

theorem toNat_add {a b : UInt64} (h : a.toNat + b.toNat < 2 ^ 64) :
    (a + b).toNat = a.toNat + b.toNat := by
  rw [UInt64.toNat_add, Nat.mod_eq_of_lt h]

/-- **A division by another number than zero** has the rounded quotient as its result.  One can be
added to a quotient with a remainder, since the divisor is not one then. -/
theorem ceilDiv_eq_ok {n d : UInt64} (hd : 0 < d.toNat) :
    ∃ q, ceilDiv n d = .ok q ∧ q.toNat = Fanout.ceilDiv n.toNat d.toNat := by
  have hzero : d ≠ 0 := by
    rintro rfl
    exact absurd hd (lt_irrefl 0)
  have hmod : n % d = 0 ↔ n.toNat % d.toNat = 0 := by
    rw [← UInt64.toNat_mod, ← UInt64.toNat_inj]
    rfl
  rw [ceilDiv, if_neg hzero, Fanout.ceilDiv_eq_div hd]
  by_cases hrem : n.toNat % d.toNat = 0
  · exact ⟨n / d, if_pos (hmod.2 hrem), by rw [UInt64.toNat_div, if_pos hrem]⟩
  · have hone : d.toNat ≠ 1 := by
      intro h
      rw [h, Nat.mod_one] at hrem
      exact hrem rfl
    have hhalf : n.toNat / d.toNat ≤ n.toNat / 2 := Nat.div_le_div_left (by omega) two_pos
    have hn : n.toNat < 2 ^ 64 := n.toNat_lt
    have hfits : (n / d).toNat + (1 : UInt64).toNat < 2 ^ 64 := by
      rw [UInt64.toNat_div, UInt64.toNat_one]
      omega
    refine ⟨n / d + 1, by rw [if_neg (mt hmod.1 hrem), add_eq_ok hfits], ?_⟩
    rw [toNat_add hfits, UInt64.toNat_div, UInt64.toNat_one, if_neg hrem]

/-- The size of the ranges is that of numbers, and not zero. -/
theorem chunkSize_eq_ok {f : Fanout} {workers least : UInt64} (hworkers : f.workers = workers.toNat)
    (hleast : f.least = least.toNat) (total : UInt64) :
    ∃ size, chunkSize workers least total = .ok size ∧ size.toNat = f.chunkSize total.toNat := by
  obtain ⟨q, hq, hnat⟩ := @ceilDiv_eq_ok total workers (hworkers ▸ f.workers_pos)
  have hleast_pos : 1 ≤ least.toNat := hleast ▸ f.least_pos
  refine ⟨max (max q least) 1, by rw [chunkSize, hq]; rfl, ?_⟩
  rw [UInt64.toNat_max, UInt64.toNat_max, hnat, UInt64.toNat_one, Fanout.chunkSize, hworkers,
    hleast]
  exact Nat.max_eq_left (le_trans hleast_pos (Nat.le_max_right _ _))

/-- **One round after the other.**  While a round is left its start lies below the number of
members, so its end is at most twice as large as that; and the range that it adds is that of
numbers. -/
theorem rangesFrom_eq_ok {size total : UInt64} (hsize : size.toNat ≤ total.toNat)
    (htotal : total.toNat < 2 ^ 63) :
    ∀ (rounds : Nat) (start : UInt64),
      start.toNat + rounds * size.toNat < total.toNat + size.toNat →
      ∃ words, rangesFrom size total rounds start = .ok words ∧
        words.map bounds = (List.range rounds).map fun i =>
          (start.toNat + i * size.toNat,
            min (start.toNat + i * size.toNat + size.toNat) total.toNat) := by
  intro rounds
  induction rounds with
  | zero => exact fun start _ => ⟨[], rfl, rfl⟩
  | succ rounds ih =>
      intro start hleft
      rw [Nat.succ_mul] at hleft
      have hfits : start.toNat + size.toNat < 2 ^ 64 := by omega
      obtain ⟨rest, hrest, hbounds⟩ := ih (start + size) (by rw [toNat_add hfits]; omega)
      refine ⟨(start, min (start + size) total) :: rest, ?_, ?_⟩
      · rw [rangesFrom, add_eq_ok hfits, hrest]
        rfl
      · rw [List.map_cons, hbounds, bounds, UInt64.toNat_min, toNat_add hfits,
          List.range_succ_eq_map, List.map_cons, List.map_map, Nat.zero_mul, Nat.add_zero]
        refine congrArg _ (List.map_congr_left fun i _ => ?_)
        have hstart : start.toNat + size.toNat + i * size.toNat
            = start.toNat + (i + 1) * size.toNat := by
          rw [Nat.succ_mul]
          omega
        rw [hstart]
        rfl

/-- **The computation does not stop, and its words are the numbers.** -/
theorem ranges_eq_ok {f : Fanout} {workers least : UInt64} (hworkers : f.workers = workers.toNat)
    (hleast : f.least = least.toNat) {total : UInt64} (htotal : total.toNat < 2 ^ 63) :
    ∃ words, ranges workers least total = .ok words ∧ words.map bounds = f.ranges total.toNat := by
  obtain ⟨size, hsize, hnat⟩ := chunkSize_eq_ok hworkers hleast total
  have hpos : 0 < size.toNat := hnat ▸ f.chunkSize_pos total.toNat
  rw [ranges, hsize, Fanout.ranges, ← hnat]
  by_cases hone : total.toNat ≤ size.toNat
  · rw [if_pos hone]
    exact ⟨[(0, total)], if_pos (UInt64.le_iff_toNat_le.2 hone), rfl⟩
  · have hmany : ¬ total ≤ size := mt UInt64.le_iff_toNat_le.1 hone
    have hzero : size ≠ 0 := by
      rintro rfl
      exact absurd hpos (lt_irrefl 0)
    obtain ⟨rounds, hrounds, hcount⟩ := @ceilDiv_eq_ok total size hpos
    have hleft : (0 : UInt64).toNat + rounds.toNat * size.toNat < total.toNat + size.toNat := by
      rw [hcount, UInt64.toNat_zero, Nat.zero_add]
      exact Fanout.ceilDiv_mul_lt hpos
    obtain ⟨words, hwords, hbounds⟩ :=
      rangesFrom_eq_ok (Nat.le_of_not_le hone) htotal rounds.toNat 0 hleft
    refine ⟨words, ?_, ?_⟩
    · show (if total ≤ size then _ else _) = _
      rw [if_neg hmany, if_neg hzero, hrounds]
      exact hwords
    · rw [if_neg hone, hbounds, hcount]
      simp only [UInt64.toNat_zero, Nat.zero_add]

end Word

/-! ## Engines -/

namespace Engine

/-- **Dividing members among workers is safe and fair.**  However an engine came by its limits,
zeros included, and for all numbers of members that a list in memory can have, the computation with
words finds a size of at least one and comes to its end: nothing is divided by zero, no loop stands
still and no sum is too large.  The ranges are those of the engine.  They lie among the members, go
through all of them once and in order, are no more than its workers, and each but the last has at
least as many members as are worth a worker. -/
theorem ranges_in_words {engine : Engine} {workers least total : UInt64}
    (built : engine.Built workers least) (htotal : total.toNat < 2 ^ 63) :
    ∃ size words, Word.chunkSize workers least total = .ok size ∧ 1 ≤ size.toNat ∧
      Word.ranges workers least total = .ok words ∧
      words.map Word.bounds = engine.fanout.ranges total.toNat ∧
      (∀ word ∈ words, word.1 ≤ word.2 ∧ word.2 ≤ total) ∧
      (words.flatMap fun word => List.range' word.1.toNat (word.2.toNat - word.1.toNat))
        = List.range total.toNat ∧
      words.length ≤ workers.toNat ∧
      ∀ word ∈ words.dropLast, least.toNat ≤ word.2.toNat - word.1.toNat := by
  obtain ⟨hworkers, hleast⟩ := built.limits
  obtain ⟨size, hsize, hnat⟩ := Word.chunkSize_eq_ok hworkers hleast total
  obtain ⟨words, hwords, hbounds⟩ := Word.ranges_eq_ok hworkers hleast htotal
  refine ⟨size, words, hsize, ?_, hwords, hbounds, fun word h => ?_, ?_, ?_, fun word h => ?_⟩
  · rw [hnat]
    exact engine.fanout.chunkSize_pos total.toNat
  · have hmem : Word.bounds word ∈ engine.fanout.ranges total.toNat :=
      hbounds ▸ List.mem_map_of_mem h
    obtain ⟨hstart, hstop⟩ := engine.fanout.bounds_of_mem_ranges hmem
    exact ⟨UInt64.le_iff_toNat_le.2 hstart, UInt64.le_iff_toNat_le.2 hstop⟩
  · rw [← engine.fanout.flatMap_ranges, ← hbounds, List.flatMap_map]
    rfl
  · have hlength : (words.map Word.bounds).length = words.length := List.length_map _
    rw [← hworkers, ← hlength, hbounds]
    exact engine.fanout.length_ranges_le
  · have hmem : Word.bounds word ∈ (engine.fanout.ranges total.toNat).dropLast := by
      rw [← hbounds, ← List.map_dropLast]
      exact List.mem_map_of_mem h
    rw [← hleast]
    exact engine.fanout.least_le_of_mem_dropLast hmem

/-- With more members than that, the end of the second range would be too large. -/
example : Word.ranges 2 0x8000000000000000 0xFFFFFFFFFFFFFFFF = .error .overflow := by
  decide +kernel

/-- Settings of zeros, and then three workers for at least two members each: ten members make two
ranges of four and one of two. -/
theorem ranges_in_words_of_ten :
    Built (Settings.engine { parallelism := 0, minMembersPerTask := 0 } |>.withFanout 3 2) 3 2 ∧
      (10 : UInt64).toNat < 2 ^ 63 ∧
      Word.ranges 3 2 10 = .ok [(0, 4), (4, 8), (8, 10)] ∧
      ∀ word ∈ [((0 : UInt64), (4 : UInt64)), (4, 8)], 2 ≤ word.2.toNat - word.1.toNat := by
  have built :
      Built (Settings.engine { parallelism := 0, minMembersPerTask := 0 } |>.withFanout 3 2) 3 2 :=
    .withFanout (.ofSettings _ 0 0 rfl rfl) 3 2
  have hwords : Word.ranges 3 2 10 = .ok [(0, 4), (4, 8), (8, 10)] := by decide
  have hten : (10 : UInt64).toNat < 2 ^ 63 := by decide
  obtain ⟨_, words, -, -, hok, -, -, -, -, hleast⟩ := ranges_in_words built hten
  rw [hwords] at hok
  cases hok
  exact ⟨built, hten, hwords, hleast⟩

end Engine

end TeamRouting
