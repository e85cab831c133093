import TeamRouting.Decimal.Layout
import TeamRouting.Decimal.Reading
import TeamRouting.Json.Basic

/-!
# Scalars

A single value in a rule: a whole number, a number with a fraction, or a text. Whole numbers are
kept apart from the others so that `3` is written back as `3` and `3.0` as `3.0`. Every scalar has
a text, by which it is compared with the values of members, and some texts read as numbers.

* `Scalar.asText` — the text of a scalar;
* `Scalar.asNumber` — the number that a scalar reads as;
* `Scalar.intoNumeric` — numeric text turned into the number;
* `Scalar.ofJson?`, `Scalar.toJson` — the JSON form.
-/

namespace TeamRouting

/-- A single value. -/
inductive Scalar where
  | integer (value : Int64)
  | number (value : Float)
  | text (value : String)
deriving DecidableEq, Inhabited

namespace Scalar

/-! ## Texts and numbers -/

/-- In a comparison of texts a number never has an exponent, nor a point without need. -/
def textLayout : Decimal.Layout where
  tie := .up
  pointZero := false
  window := none

/-- The text of a scalar. -/
def asText : Scalar → String
  | integer n => toString n.toInt
  | number x => textLayout.render x
  | text s => s

/-- The number that a scalar reads as. -/
def asNumber : Scalar → Option Float
  | integer n => some (Decimal.ofInt n.toInt)
  | number x => some x
  | text s => Decimal.readTrimmed? s

/-- The number that a text stands for: a whole number if it is one of 64 bits, else a finite
float. -/
def numeric? (s : String) : Option Scalar :=
  let cs := Text.trimChars s.toList
  ((Text.int64? cs).map integer).or (((Decimal.read? cs).filter Float.isFinite).map number)

/-- Numeric text becomes the number; anything else stays as it is. -/
def intoNumeric : Scalar → Scalar
  | text s => (numeric? s).getD (text s)
  | scalar => scalar

/-- Whether a scalar is a text of blanks, which counts as no answer. -/
def isBlank : Scalar → Bool
  | text s => Text.isBlankText s
  | _ => false

/-! ## The JSON form -/

/-- Reads a scalar. A whole number outside the 64-bit range becomes a float. -/
def ofJson? : Json → Option Scalar
  | .int n => some (if Text.fitsInt64 n then integer (Int64.ofInt n) else number (Decimal.ofInt n))
  | .float x => some (number x)
  | .text s => some (text s)
  | _ => none

/-- Writes a scalar. -/
def toJson : Scalar → Json
  | integer n => .int n.toInt
  | number x => .float x
  | text s => .text s

end Scalar

end TeamRouting
