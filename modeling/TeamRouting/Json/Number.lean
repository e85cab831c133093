import TeamRouting.Decimal.Reading
import TeamRouting.Json.Basic

/-!
# JSON numbers

From the letters of a number to its value. Whole numbers that fit 64 bits, with or without a sign,
are exact. Any other number is read by scaling: the leading digits that fit 64 bits are counted,
the count becomes a float, and one multiplication or division by a power of ten sets the point. A
number beyond the largest float has no value.

* `Numeral.ofChars?` — the grammar;
* `Numeral.value` — the value.
-/

namespace TeamRouting.Json

open TeamRouting.Text

/-! ## Grammar -/

/-- The parts of a number. A number without point and exponent has no `tail`. -/
structure Numeral where
  negative : Bool
  whole : List Char
  /-- the digits behind the point and the exponent -/
  tail : Option (List Char × Int)

/-- The digits behind a point, of which there is at least one, and the text that follows. -/
def fraction? : List Char → Option (List Char × List Char)
  | '.' :: cs =>
    let part := cs.takeWhile Char.isDigit
    if part.isEmpty then none else some (part, cs.dropWhile Char.isDigit)
  | cs => some ([], cs)

/-- A number without its sign. Its whole part has no superfluous zero in front. -/
def Numeral.ofUnsigned? (negative : Bool) (cs : List Char) : Option Numeral :=
  let whole := cs.takeWhile Char.isDigit
  let rest := cs.dropWhile Char.isDigit
  if whole.isEmpty || (whole.head? == some '0' && whole.length != 1) then none
  else if rest.isEmpty then some ⟨negative, whole, none⟩
  else do
    let (part, behind) ← fraction? rest
    let exponent ← Decimal.exponent? behind
    return ⟨negative, whole, some (part, exponent)⟩

/-- The letters of a number, taken apart. -/
def Numeral.ofChars? : List Char → Option Numeral
  | '-' :: cs => ofUnsigned? true cs
  | cs => ofUnsigned? false cs

/-! ## Scaling -/

/-- Appends digits to a count as long as it stays below `2 ^ 64`; also tells how many were taken. -/
def absorb (count : Nat) : List Char → Nat × Nat
  | [] => (count, 0)
  | c :: cs =>
    let next := 10 * count + (c.toNat - '0'.toNat)
    if next < Nat.pow 2 64 then
      let (total, taken) := absorb next cs
      (total, taken + 1)
    else
      (count, 0)

/-- Divides by a power of ten, in steps of `10 ^ 308` at most. -/
def scaleDown (x : Float) (places : Nat) : Float :=
  if places ≤ 308 then x / Decimal.toFloat 1 places
  else if x == 0 then x
  else scaleDown (x / Decimal.toFloat 1 308) (places - 308)
termination_by places

/-- Multiplies by a power of ten. There is no result beyond the largest float. -/
def scaleUp? (x : Float) (places : Nat) : Option Float :=
  if places ≤ 308 then
    let y := x * Decimal.toFloat 1 places
    if y.isInf then none else some y
  else if x == 0 then some x
  else none

/-- A count of digits at its place. -/
def scale? (count : Nat) (exponent : Int) : Option Float :=
  let x := Decimal.toFloat count 0
  if exponent < 0 then some (scaleDown x exponent.natAbs) else scaleUp? x exponent.natAbs

/-- The float of a number, read by scaling. -/
def Numeral.float? (n : Numeral) : Option Float :=
  let (part, exponent) := n.tail.getD ([], 0)
  let (head, taken) := absorb 0 n.whole
  let (count, places) := absorb head part
  let size := scale? count (exponent + (n.whole.length - taken : Nat) - places)
  size.map fun x => if n.negative then -x else x

/-! ## Values -/

/-- The value of a number. A negative zero is a float, since whole numbers have no such zero. -/
def Numeral.value (n : Numeral) : Json :=
  let size := digitsValue n.whole
  if n.tail.isNone && !n.negative && size < Nat.pow 2 64 then int size
  else if n.tail.isNone && n.negative && size != 0 && size ≤ Nat.pow 2 63 then int (-size)
  else (n.float?.map float).getD illegible

end TeamRouting.Json
