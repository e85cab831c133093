/-!
# Whole numbers in text

The texts that stand for whole numbers: a non-empty run of the digits 0 to 9, behind an optional
sign. Nothing else is accepted, neither blanks nor separators.

* `digits?` — a run of digits;
* `hexDigit?`, `digitsOfBase?` — digits of other bases;
* `unsigned?`, `signed?` — with the signs that each of them admits;
* `int64?` — a number of 64 bits.
-/

namespace TeamRouting.Text

/-! ## Digits -/

/-- The number that a run of decimal digits stands for. -/
def digitsValue (cs : List Char) : Nat :=
  cs.foldl (fun n c => 10 * n + (c.toNat - '0'.toNat)) 0

/-- A non-empty run of digits, read as a number. -/
def digits? (cs : List Char) : Option Nat :=
  if cs.isEmpty || !cs.all Char.isDigit then none else some (digitsValue cs)

/-- The value of a hexadecimal digit. -/
def hexDigit? (c : Char) : Option Nat :=
  if c.isDigit then some (c.toNat - '0'.toNat)
  else if 'a' ≤ c && c ≤ 'f' then some (c.toNat - 'a'.toNat + 10)
  else if 'A' ≤ c && c ≤ 'F' then some (c.toNat - 'A'.toNat + 10)
  else none

/-- A non-empty run of digits of a base of at most sixteen, read as a number. -/
def digitsOfBase? (base : Nat) (cs : List Char) : Option Nat :=
  if cs.isEmpty then
    none
  else
    cs.foldlM (fun n c => ((hexDigit? c).filter (· < base)).map (base * n + ·)) 0

/-! ## Signs -/

/-- Digits behind an optional plus sign. -/
def unsigned? : List Char → Option Nat
  | '+' :: cs => digits? cs
  | cs => digits? cs

/-- Digits behind an optional sign. -/
def signed? : List Char → Option Int
  | '-' :: cs => (digits? cs).map fun n => -(n : Int)
  | cs => (unsigned? cs).map fun n => (n : Int)

/-! ## Numbers of a width -/

/-- Whether a number lies in the range of 64-bit integers. -/
def fitsInt64 (n : Int) : Bool := -(Nat.pow 2 63 : Int) ≤ n && n < (Nat.pow 2 63 : Int)

/-- A text that stands for a 64-bit integer. -/
def int64? (cs : List Char) : Option Int64 :=
  ((signed? cs).filter fitsInt64).map Int64.ofInt

/-- A text that stands for a number below `2 ^ 64`. -/
def uint64? (cs : List Char) : Option Nat := (unsigned? cs).filter (· < Nat.pow 2 64)

end TeamRouting.Text
