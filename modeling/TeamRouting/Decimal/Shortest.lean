/-!
# Shortest decimals

The decimal with the fewest digits that still identifies a floating-point number. A finite
magnitude stands for an interval of reals, those that round to it. The digits are chosen by exact
arithmetic on naturals: for one, two, … digits the magnitude lies between two neighbours on the
grid of decimals with so many digits, and the first grid with a neighbour inside the interval wins.

* `Interval.ofBits` — the reals that round to a magnitude;
* `Interval.shortest` — the digits and the scale of the shortest decimal inside.
-/

namespace TeamRouting.Decimal

/-! ## The interval of a float -/

/-- The reals that round to one finite magnitude, over a common denominator. -/
structure Interval where
  /-- the lower end -/
  low : Nat
  /-- the magnitude itself -/
  value : Nat
  /-- the upper end -/
  high : Nat
  denominator : Nat
  /-- the ends themselves round to the magnitude -/
  closed : Bool

/-- The interval of `mantissa · 2 ^ exponent`. Its ends lie half-way to the neighbours, and the
neighbour below a power of two is only half as far away as the one above. A tie at an end rounds
to the even mantissa. -/
def Interval.ofMagnitude (mantissa : Nat) (exponent : Int) (powerOfTwo : Bool) : Interval :=
  let up := Nat.pow 2 (exponent - 2).toNat
  { low := (4 * mantissa - if powerOfTwo then 1 else 2) * up
    value := 4 * mantissa * up
    high := (4 * mantissa + 2) * up
    denominator := Nat.pow 2 (2 - exponent).toNat
    closed := mantissa % 2 == 0 }

/-- The interval of the finite float with these bits; the sign does not matter. -/
def Interval.ofBits (bits : UInt64) : Interval :=
  let field : Nat := (bits.toNat / Nat.pow 2 52) % Nat.pow 2 11
  let fraction : Nat := bits.toNat % Nat.pow 2 52
  if field = 0 then
    Interval.ofMagnitude fraction (-1074) false
  else
    Interval.ofMagnitude (Nat.pow 2 52 + fraction) (field - 1075) (fraction == 0 && field != 1)

/-! ## Decimals on a grid -/

/-- The decimal `digits · 10 ^ scale`. -/
structure Digits where
  digits : Nat
  scale : Int
deriving DecidableEq, Repr

/-- The numerator of a decimal's digits against the interval's ends, for a given scale. -/
def Interval.unit (i : Interval) (scale : Int) : Nat := i.denominator * Nat.pow 10 scale.toNat

/-- The factor that the interval's ends take on a grid finer than one. -/
def Interval.refine (scale : Int) : Nat := Nat.pow 10 (-scale).toNat

/-- Whether a decimal lies inside the interval. -/
def Interval.contains (i : Interval) (d : Digits) : Bool :=
  let x := d.digits * i.unit d.scale
  let f := Interval.refine d.scale
  if i.closed then i.low * f ≤ x && x ≤ i.high * f else i.low * f < x && x < i.high * f

/-- Which of two decimals at the same distance is taken. -/
inductive Tie where
  | even
  | up
deriving DecidableEq, Repr

/-- The decimal of the grid inside the interval that is nearest to the magnitude. Only the two
neighbours of the magnitude come into question. -/
def Interval.onGrid? (i : Interval) (tie : Tie) (scale : Int) : Option Digits :=
  let x := i.value * Interval.refine scale
  let u := i.unit scale
  let below : Digits := ⟨x / u, scale⟩
  let above : Digits := ⟨x / u + 1, scale⟩
  match i.contains below, i.contains above with
  | true, true =>
    match compare (2 * (x % u)) u, tie with
    | .lt, _ => some below
    | .gt, _ => some above
    | .eq, .up => some above
    | .eq, .even => some (if below.digits % 2 = 0 then below else above)
  | true, false => some below
  | false, true => some above
  | false, false => none

/-! ## The choice -/

/-- The least `k` with the magnitude below `10 ^ k`. -/
def Interval.leading (i : Interval) : Int :=
  if i.denominator ≤ i.value then
    (Nat.toDigits 10 (i.value / i.denominator)).length
  else
    match (List.range 400).find? fun k => i.denominator ≤ i.value * Nat.pow 10 (k + 1) with
    | some k => -(k : Int)
    | none => 0

/-- A decimal without zeros at the end of its digits. -/
def Digits.strip (d : Digits) : Digits :=
  go d.digits d.digits d.scale
where
  /-- Drops at most as many zeros as the first argument says. -/
  go : Nat → Nat → Int → Digits
    | 0, n, s => ⟨n, s⟩
    | fuel + 1, n, s =>
      if n % 10 = 0 && n != 0 then go fuel (n / 10) (s + 1) else ⟨n, s⟩

/-- The magnitude itself as a decimal, however long. -/
def Interval.exact (i : Interval) : Digits :=
  ⟨i.value * Nat.pow 5 i.denominator.log2, -(i.denominator.log2 : Int)⟩

/-- The decimal with the fewest digits inside the interval; seventeen are always enough. -/
def Interval.shortest (i : Interval) (tie : Tie) : Digits :=
  let found := (List.range 17).findSome? fun (n : Nat) => i.onGrid? tie (i.leading - (n + 1))
  (found.getD i.exact).strip

end TeamRouting.Decimal
