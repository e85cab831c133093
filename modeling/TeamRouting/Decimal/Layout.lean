import TeamRouting.Decimal.Shortest

/-!
# Layout of decimals

How the digits of a floating-point number are set down in text: where the point stands, when an
exponent is written, and what stands for the numbers without digits.

* `Layout` — the decisions of one format;
* `Layout.render` — a float in that format.
-/

namespace TeamRouting.Decimal

/-- The decisions of one format for floats. -/
structure Layout where
  /-- Which of two equally near decimals is written. -/
  tie : Tie
  /-- Whole numbers carry a point and a zero. -/
  pointZero : Bool
  /-- The powers of ten of the leading digit from the first to below the second are written
  without an exponent; with no such window, all are. -/
  window : Option (Int × Int)

/-! ## Digits and a point -/

/-- Zeros, as many as asked for. -/
def zeros (n : Nat) : String := String.ofList (List.replicate n '0')

/-- A decimal without an exponent. -/
def Digits.plain (d : Digits) (pointZero : Bool) : String :=
  let ds := Nat.toDigits 10 d.digits
  if 0 ≤ d.scale then
    String.ofList ds ++ zeros d.scale.toNat ++ (if pointZero then ".0" else "")
  else
    let places := d.scale.natAbs
    if places < ds.length then
      String.ofList (ds.take (ds.length - places)) ++ "." ++
        String.ofList (ds.drop (ds.length - places))
    else
      "0." ++ zeros (places - ds.length) ++ String.ofList ds

/-- A decimal with one digit before the point and a signed exponent behind. -/
def Digits.scientific (d : Digits) : String :=
  let ds := Nat.toDigits 10 d.digits
  let e := d.scale + ds.length - 1
  let sign := if e < 0 then "-" else "+"
  let point := if ds.length ≤ 1 then "" else "."
  String.ofList (ds.take 1) ++ point ++ String.ofList (ds.drop 1) ++ "e" ++ sign ++
    toString e.natAbs

/-- The power of ten of the leading digit. -/
def Digits.magnitude (d : Digits) : Int := d.scale + (Nat.toDigits 10 d.digits).length - 1

/-! ## Floats -/

/-- Whether the sign bit is set. -/
def isNegative (x : Float) : Bool := Nat.pow 2 63 ≤ x.toBits.toNat

/-- A positive decimal in the format. -/
def Layout.digits (layout : Layout) (d : Digits) : String :=
  match layout.window with
  | none => d.plain layout.pointZero
  | some (first, bound) =>
    if first ≤ d.magnitude && d.magnitude < bound then d.plain layout.pointZero else d.scientific

/-- The size of a finite float in the format. -/
def Layout.size (layout : Layout) (x : Float) : String :=
  let i := Interval.ofBits x.toBits
  if i.value = 0 then
    if layout.pointZero then "0.0" else "0"
  else
    layout.digits (i.shortest layout.tie)

/-- A float in the format. The signs of zero and of the infinities are kept. -/
def Layout.render (layout : Layout) (x : Float) : String :=
  let sign := if isNegative x then "-" else ""
  if x.isNaN then "NaN"
  else if x.isInf then sign ++ "inf"
  else sign ++ layout.size x

end TeamRouting.Decimal
