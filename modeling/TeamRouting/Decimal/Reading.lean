import TeamRouting.Text.Blank
import TeamRouting.Text.Numeral

/-!
# Reading decimals

From a decimal numeral to the nearest floating-point number. A numeral is an optional sign before
digits with at most one point among them and at least one digit in all, then an optional exponent;
or one of the words `inf`, `infinity` and `nan` in any case. Reading rounds once, to nearest with
ties to even.

* `toFloat` — the float nearest to `m · 10 ^ e`;
* `ofInt` — the float nearest to a whole number;
* `read?` — the float that a numeral stands for;
* `readTrimmed?` — the same for a text that may have blanks around the numeral.
-/

namespace TeamRouting.Decimal

open TeamRouting.Text

/-! ## From digits and a scale -/

/-- Positive infinity. -/
def infinity : Float := Float.ofBits 0x7FF0000000000000

/-- The float that is not a number. -/
def notANumber : Float := Float.ofBits 0x7FF8000000000000

/-- The float nearest to `m · 10 ^ e`. Scales far outside the range of floats are settled by the
number of binary digits alone, so that no power of ten grows beyond need. -/
def toFloat (m : Nat) (e : Int) : Float :=
  if m = 0 then 0
  else if 400 < e then infinity
  else if e + m.log2 < -400 then 0
  else Float.ofScientific m (e < 0) e.natAbs

/-- The float nearest to a whole number. -/
def ofInt (n : Int) : Float :=
  if n < 0 then -toFloat n.natAbs 0 else toFloat n.natAbs 0

/-! ## Numerals -/

/-- The exponent behind the digits: absent, or a mark and a whole number. -/
def exponent? : List Char → Option Int
  | [] => some 0
  | c :: cs => if c = 'e' || c = 'E' then signed? cs else none

/-- The digits of a fraction behind a point, and the text that follows them. -/
def fraction : List Char → List Char × List Char
  | '.' :: cs => (cs.takeWhile Char.isDigit, cs.dropWhile Char.isDigit)
  | cs => ([], cs)

/-- Digits with at most one point, and an optional exponent. -/
def digitsNumeral? (cs : List Char) : Option Float :=
  let whole := cs.takeWhile Char.isDigit
  let (part, rest) := fraction (cs.dropWhile Char.isDigit)
  if (whole ++ part).isEmpty then
    none
  else
    (exponent? rest).map fun e => toFloat (digitsValue (whole ++ part)) (e - part.length)

/-- The words that stand for numbers. -/
def word? (cs : List Char) : Option Float :=
  let w := String.ofList (cs.map Char.toLower)
  if w = "inf" || w = "infinity" then some infinity
  else if w = "nan" then some notANumber
  else none

/-- A numeral without a sign. -/
def magnitude? (cs : List Char) : Option Float := (word? cs).or (digitsNumeral? cs)

/-- The float that a numeral stands for. -/
def read? : List Char → Option Float
  | '-' :: cs => (magnitude? cs).map fun x => -x
  | '+' :: cs => magnitude? cs
  | cs => magnitude? cs

/-- The float that a text stands for when the blanks around it are taken off. -/
def readTrimmed? (s : String) : Option Float := read? (trimChars s.toList)

end TeamRouting.Decimal
