/-!
# Cancellation signals

A caller may call a run off while it goes on. All that a run can see of this is whether the signal
is up at the moments when it looks, and time passes for it by the members it has evaluated. So a
signal is described by the number of evaluations after which it is up.

* `Signal.isRaised` — whether the signal is up after so many evaluations.
-/

namespace TeamRouting

/-- A cancellation signal. -/
structure Signal where
  /-- the signal is up from the end of this many evaluations on; without a number it never is -/
  raisedAfter : Option Nat := none
deriving DecidableEq, Repr, Inhabited

namespace Signal

/-- A signal that is never raised. -/
def never : Signal := ⟨none⟩

/-- A signal that is up from the beginning. -/
def raised : Signal := ⟨some 0⟩

/-- Whether the signal is up after so many evaluations. -/
def isRaised (signal : Signal) (evaluations : Nat) : Bool :=
  match signal.raisedAfter with
  | none => false
  | some n => n ≤ evaluations

/-- A signal that is never raised is never up. -/
@[simp] theorem isRaised_never (n : Nat) : never.isRaised n = false := rfl

/-- A signal that is up from the beginning is always up. -/
@[simp] theorem isRaised_raised (n : Nat) : raised.isRaised n = true := by
  simp [isRaised, raised]

end Signal

end TeamRouting
