import StagedTransfer.Number.Binary64

/-!
# Spans of time

A span is a number of nanoseconds below 2⁶⁴ seconds. Scaling it by a factor goes through
double-precision seconds and back to the nearest nanosecond; a result that is no span is refused.
-/

namespace StagedTransfer

/-- A length of time in nanoseconds. -/
structure Span where
  nanos : Nat
  deriving DecidableEq, Repr, Inhabited

namespace Span

def nanosPerSecond : Nat := 1000000000

def nanosPerMilli : Nat := 1000000

/-- The seconds that a span can have are below this number. -/
def secondsLimit : Nat := Nat.pow 2 64

def ofMillis (ms : Nat) : Span :=
  ⟨ms * nanosPerMilli⟩

instance : LE Span := ⟨fun a b => a.nanos ≤ b.nanos⟩

instance (a b : Span) : Decidable (a ≤ b) := inferInstanceAs (Decidable (a.nanos ≤ b.nanos))

protected def min (a b : Span) : Span :=
  ⟨Nat.min a.nanos b.nanos⟩

protected def max (a b : Span) : Span :=
  ⟨Nat.max a.nanos b.nanos⟩

/-- The span in seconds: the whole seconds and the fraction are rounded apart and then added. -/
def toSeconds (a : Span) : Binary64 :=
  (Binary64.ofNat (a.nanos / nanosPerSecond)).add
    ((Binary64.ofNat (a.nanos % nanosPerSecond)).div (Binary64.ofNat nanosPerSecond))

/-- The span of a number of seconds, to the nearest nanosecond and of two to the even one. There is
none for a negative number, one that is too large or one that is no number. -/
def ofSeconds? : Binary64 → Option Span
  | .finite negative m e =>
    -- a zero is a span with either sign
    if m = 0 then some ⟨0⟩
    else if negative then none
    else
      let (num, den) := if 0 ≤ e then (m * Nat.pow 2 e.toNat, 1) else (m, Nat.pow 2 (-e).toNat)
      if num < secondsLimit * den then some ⟨Binary64.roundDiv (num * nanosPerSecond) den⟩ else none
  | _ => none

/-- The span times a factor, if that is a span. -/
def scale? (a : Span) (factor : Binary64) : Option Span :=
  ofSeconds? (factor.mul a.toSeconds)

/-- The ticks of one millisecond that a wait of this length takes: a started one counts. -/
def ticks (a : Span) : Nat :=
  (a.nanos + (nanosPerMilli - 1)) / nanosPerMilli

end Span

end StagedTransfer
