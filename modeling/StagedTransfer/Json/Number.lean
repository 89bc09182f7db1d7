import StagedTransfer.Number.Shortest

/-!
# Numbers of a JSON text

A number without a fraction or an exponent is an integer, as long as it fits sixty-four bits. All
others are double-precision numbers, found by scaling the digits that fit sixty-four bits.
-/

namespace StagedTransfer.Json

inductive Number
  | integer (n : Int)
  | real (x : Binary64)
  deriving DecidableEq, Repr

/-- The digits of a number as they stand in the text. -/
structure NumberText where
  negative : Bool
  whole    : List Nat
  fraction : List Nat
  /-- Whether the exponent is negative, and its digits. -/
  exponent : Option (Bool × List Nat)

namespace Number

/-- The greatest number whose digits are kept. -/
def greatestKept : Nat := Nat.pow 2 64 - 1

/-- The number with as many further digits as it can take, and the digits left. -/
def absorb : (kept : Nat) → List Nat → Nat × List Nat
  | kept, []      => (kept, [])
  | kept, d :: ds =>
    if kept * 10 + d ≤ greatestKept then absorb (kept * 10 + d) ds else (kept, d :: ds)

def ofDigits (ds : List Nat) : Nat :=
  ds.foldl (fun n d => n * 10 + d) 0

/-- The greatest power of ten that is a double-precision number. -/
def greatestPower : Nat := 308

def power (k : Nat) : Binary64 :=
  .ofNat (Nat.pow 10 k)

def isZero : Binary64 → Bool
  | .finite _ m _ => m = 0
  | _             => false

/-- `x * 10 ^ e`, rounded after each step; there is none past the greatest number. Far below the
least number a few divisions give zero. -/
def scale : (fuel : Nat) → (x : Binary64) → (e : Int) → Option Binary64
  | 0,     x, _ => some x
  | n + 1, x, e =>
    if e.natAbs ≤ greatestPower then
      if 0 ≤ e then
        match x.mul (power e.natAbs) with
        | .infinite _ => none
        | y           => some y
      else some (x.div (power e.natAbs))
    else if isZero x then some x
    else if 0 ≤ e then none
    else scale n (x.div (power greatestPower)) (e + greatestPower)

/-- The double-precision number `± kept * 10 ^ e`. -/
def ofParts (negative : Bool) (kept : Nat) (e : Int) : Option Binary64 :=
  (scale 4 (.ofNat kept) e).map fun x => if negative then x.neg else x

/-- Exponents above this one are not added up. -/
def greatestExponent : Nat := Nat.pow 2 31 - 1

/-- The double-precision number of a text, if it is not too large. -/
def realOf (t : NumberText) : Option Binary64 :=
  let (whole, dropped) := absorb 0 t.whole
  let (kept, ignored) := absorb whole t.fraction
  let shift : Int := dropped.length - (t.fraction.length - ignored.length : Nat)
  match t.exponent with
  | none              => ofParts t.negative kept shift
  | some (below, ds)  =>
    let e := ofDigits ds
    if greatestExponent < e then
      if kept ≠ 0 ∧ ¬below then none
      else some (.finite t.negative 0 Binary64.leastExponent)
    else ofParts t.negative kept (if below then shift - e else shift + e)

/-- The number of a text, if it is not too large. A negative zero is no integer. -/
def ofText (t : NumberText) : Option Number :=
  let n := ofDigits t.whole
  if t.fraction = [] ∧ t.exponent = none ∧ n ≤ greatestKept then
    if ¬t.negative then some (.integer n)
    else if n = 0 ∨ Nat.pow 2 63 < n then some (.real (Binary64.ofNat n).neg)
    else some (.integer (-n))
  else (realOf t).map .real

end Number

end StagedTransfer.Json
