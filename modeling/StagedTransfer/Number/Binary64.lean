/-!
# Double-precision numbers

Numbers with fifty-three significant bits and their arithmetic in exact integers: the exact result
is formed first and then rounded once, to the nearest number and to the even one of two.
The configured back-off factor and the numbers of a text are of this kind.
-/

namespace StagedTransfer

/-- A double-precision number. A finite one stands for `mantissa * 2 ^ exponent`. -/
inductive Binary64
  | nan (negative : Bool)
  | infinite (negative : Bool)
  | finite (negative : Bool) (mantissa : Nat) (exponent : Int)
  deriving DecidableEq, Repr

namespace Binary64

/-! ### Rounding -/

/-- The quotient rounded to the nearest natural number, a half to the even neighbour. -/
def roundDiv (num den : Nat) : Nat :=
  let q := num / den
  let r := num % den
  if 2 * r < den then q
  else if den < 2 * r then q + 1
  else if q % 2 = 0 then q else q + 1

def leastExponent : Int := -1074

def greatestExponent : Int := 971

/-- The two natural numbers whose quotient is `num / den` in units of `2 ^ e`. -/
def inUnits (num den : Nat) (e : Int) : Nat × Nat :=
  if 0 ≤ e then (num, den * Nat.pow 2 e.toNat) else (num * Nat.pow 2 (-e).toNat, den)

/-- The exponent at which `num / den` has fifty-three bits, or the least one if it is too small. -/
def exponentOf (num den : Nat) : Int :=
  -- the lengths of the two numbers tell the exponent up to one
  let guess : Int := (num.log2 : Int) - (den.log2 : Int) - 52
  let (n, d) := inUnits num den guess
  max leastExponent (if n < d * Nat.pow 2 52 then guess - 1 else guess)

/-- The number nearest to `num / den`; past the greatest number it is infinite. -/
def ofRatio (negative : Bool) (num den : Nat) : Binary64 :=
  if num = 0 || den = 0 then .finite negative 0 leastExponent
  else
    let e := exponentOf num den
    let (n, d) := inUnits num den e
    let m := roundDiv n d
    -- rounding up may take one bit more
    let (m, e) := if m = Nat.pow 2 53 then (Nat.pow 2 52, e + 1) else (m, e)
    if greatestExponent < e then .infinite negative else .finite negative m e

/-- The number nearest to `m * 2 ^ e`. -/
def ofScaled (negative : Bool) (m : Nat) (e : Int) : Binary64 :=
  if 0 ≤ e then ofRatio negative (m * Nat.pow 2 e.toNat) 1
  else ofRatio negative m (Nat.pow 2 (-e).toNat)

def ofNat (n : Nat) : Binary64 :=
  ofRatio false n 1

/-- The number nearest to `m * 10 ^ e`. -/
def ofDecimal (negative : Bool) (m : Nat) (e : Int) : Binary64 :=
  if 0 ≤ e then ofRatio negative (m * Nat.pow 10 e.toNat) 1
  else ofRatio negative m (Nat.pow 10 (-e).toNat)

def zero : Binary64 := .finite false 0 leastExponent

def one : Binary64 := .finite false (Nat.pow 2 52) (-52)

/-! ### Arithmetic -/

def neg : Binary64 → Binary64
  | .nan s        => .nan !s
  | .infinite s   => .infinite !s
  | .finite s m e => .finite (!s) m e

def mul : Binary64 → Binary64 → Binary64
  | .nan s, _ => .nan s
  | _, .nan s => .nan s
  | .infinite s, .infinite t => .infinite (s != t)
  | .infinite s, .finite t m _ => if m = 0 then .nan false else .infinite (s != t)
  | .finite s m _, .infinite t => if m = 0 then .nan false else .infinite (s != t)
  | .finite s m e, .finite t n f => ofScaled (s != t) (m * n) (e + f)

def div : Binary64 → Binary64 → Binary64
  | .nan s, _ => .nan s
  | _, .nan s => .nan s
  | .infinite _, .infinite _ => .nan false
  | .infinite s, .finite t _ _ => .infinite (s != t)
  | .finite s _ _, .infinite t => .finite (s != t) 0 leastExponent
  | .finite s m e, .finite t n f =>
    if n = 0 then (if m = 0 then .nan false else .infinite (s != t))
    else
      let d := e - f
      if 0 ≤ d then ofRatio (s != t) (m * Nat.pow 2 d.toNat) n
      else ofRatio (s != t) m (n * Nat.pow 2 (-d).toNat)

/-- The integer that a signed mantissa stands for in units of `2 ^ f`, for `f ≤ e`. -/
def toUnits (negative : Bool) (m : Nat) (e f : Int) : Int :=
  let n : Int := m * Int.pow 2 (e - f).toNat
  if negative then -n else n

def add : Binary64 → Binary64 → Binary64
  | .nan s, _ => .nan s
  | _, .nan s => .nan s
  | .infinite s, .infinite t => if s = t then .infinite s else .nan false
  | .infinite s, .finite _ _ _ => .infinite s
  | .finite _ _ _, .infinite t => .infinite t
  | .finite s m e, .finite t n f =>
    let g := min e f
    let sum := toUnits s m e g + toUnits t n f g
    if sum = 0 then .finite (s && t) 0 leastExponent
    else ofScaled (sum < 0) sum.natAbs g

/-- The order of the numbers; a number that is none is not in it. -/
def le : Binary64 → Binary64 → Bool
  | .nan _, _ => false
  | _, .nan _ => false
  | .infinite s, .infinite t => s || !t
  | .infinite s, .finite _ _ _ => s
  | .finite _ _ _, .infinite t => !t
  | .finite s m e, .finite t n f =>
    let g := min e f
    toUnits s m e g ≤ toUnits t n f g

/-! ### Interchange form -/

/-- The sixty-four bits: sign, eleven bits of exponent, fifty-two of mantissa. -/
def toBits : Binary64 → Nat
  | .nan s        => (if s then Nat.pow 2 63 else 0) + 0x7ff8000000000000
  | .infinite s   => (if s then Nat.pow 2 63 else 0) + 0x7ff0000000000000
  | .finite s m e =>
    (if s then Nat.pow 2 63 else 0)
      + if m < Nat.pow 2 52 then m else (e + 1075).toNat * Nat.pow 2 52 + (m - Nat.pow 2 52)

end Binary64

end StagedTransfer
