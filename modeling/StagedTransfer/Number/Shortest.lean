import StagedTransfer.Number.Binary64

/-!
# Shortest decimal text

The fewest decimal digits that name one double-precision number and no other, and of those with
that many digits the ones nearest to it. A text is positional as long as it stays short, and
scientific beyond.
-/

namespace StagedTransfer.Binary64

structure Ratio where
  num : Nat
  den : Nat

def Ratio.ofScaled (m : Nat) (e : Int) : Ratio :=
  if 0 ≤ e then ⟨m * Nat.pow 2 e.toNat, 1⟩ else ⟨m, Nat.pow 2 (-e).toNat⟩

/-- The ratio in units of `10 ^ k`. -/
def Ratio.inTens (r : Ratio) (k : Int) : Ratio :=
  if 0 ≤ k then ⟨r.num, r.den * Nat.pow 10 k.toNat⟩
  else ⟨r.num * Nat.pow 10 (-k).toNat, r.den⟩

def Ratio.lt (r s : Ratio) : Bool :=
  r.num * s.den < s.num * r.den

/-- The numbers that are rounded to a given one: those between the ends, and the ends themselves
if its mantissa is even. -/
structure Interval where
  low    : Ratio
  high   : Ratio
  closed : Bool

/-- The numbers that are rounded to `m * 2 ^ e`. Below a power of two the neighbours stand twice as
close. -/
def intervalOf (m : Nat) (e : Int) : Interval :=
  let low := if m = Nat.pow 2 52 && leastExponent < e then 4 * m - 1 else 4 * m - 2
  ⟨.ofScaled low (e - 2), .ofScaled (4 * m + 2) (e - 2), m % 2 = 0⟩

def Interval.contains (i : Interval) (r : Ratio) : Bool :=
  if i.closed then !r.lt i.low && !i.high.lt r else i.low.lt r && r.lt i.high

/-- The exponent of the first decimal digit, searched upwards from `k` for at most `fuel` steps. -/
def leadingFrom (r : Ratio) : (fuel : Nat) → Int → Int
  | 0,     k => k
  | n + 1, k => if (r.inTens (k + 1)).num < (r.inTens (k + 1)).den then k else leadingFrom r n (k + 1)

/-- The exponent of the first decimal digit of a double-precision number. -/
def leading (r : Ratio) : Int :=
  leadingFrom r 700 (-330)

/-- The decimal `digits * 10 ^ exponent`. -/
structure Decimal where
  digits   : Nat
  exponent : Int
  deriving DecidableEq, Repr

def Decimal.toRatio (d : Decimal) : Ratio :=
  if 0 ≤ d.exponent then ⟨d.digits * Nat.pow 10 d.exponent.toNat, 1⟩
  else ⟨d.digits, Nat.pow 10 (-d.exponent).toNat⟩

/-- The decimal in units of `10 ^ k` that is rounded to the number and nearest to it, if any. -/
def onGrid? (value : Ratio) (interval : Interval) (k : Int) : Option Decimal :=
  let scaled := value.inTens k
  let below : Decimal := ⟨scaled.num / scaled.den, k⟩
  let above : Decimal := ⟨scaled.num / scaled.den + 1, k⟩
  let rest := scaled.num % scaled.den
  match interval.contains below.toRatio, interval.contains above.toRatio with
  | false, false => none
  | true,  false => some below
  | false, true  => some above
  | true,  true  =>
    -- the nearer one, and of two the one that ends even
    if 2 * rest < scaled.den || (2 * rest = scaled.den && below.digits % 2 = 0) then some below
    else some above

/-- The first grid with a hit, from the coarsest of those that remain. -/
def shortestFrom (value : Ratio) (interval : Interval) : (fuel : Nat) → Int → Decimal
  | 0,     k => ⟨(value.inTens k).num / (value.inTens k).den, k⟩
  | n + 1, k => (onGrid? value interval k).getD (shortestFrom value interval n (k - 1))

/-- The same decimal without zeros at the end of its digits, at most `fuel` of them. -/
def Decimal.strip : (fuel : Nat) → Decimal → Decimal
  | 0,     d => d
  | n + 1, d => if d.digits ≠ 0 ∧ d.digits % 10 = 0 then strip n ⟨d.digits / 10, d.exponent + 1⟩ else d

/-- The shortest decimal of the number `m * 2 ^ e`, for a positive `m`. Seventeen digits always
suffice. -/
def shortest (m : Nat) (e : Int) : Decimal :=
  let value := Ratio.ofScaled m e
  (shortestFrom value (intervalOf m e) 17 (leading value)).strip 20

/-! ### Text -/

/-- An exponent is never without its sign. -/
def exponentText (e : Int) : String :=
  (if 0 ≤ e then "+" else "-") ++ toString e.natAbs

/-- The text of a decimal: positional from 10⁻⁵ to below 10¹⁶ and then with at least one digit
after the point, scientific otherwise and then with a point only between digits. -/
def Decimal.text (d : Decimal) : String :=
  let digits := toString d.digits
  let size : Int := digits.length
  let point := size + d.exponent
  let cs := digits.toList
  if 0 ≤ d.exponent ∧ point ≤ 16 then
    digits ++ String.ofList (List.replicate d.exponent.toNat '0') ++ ".0"
  else if 0 < point ∧ point ≤ 16 then
    String.ofList (cs.take point.toNat) ++ "." ++ String.ofList (cs.drop point.toNat)
  else if -5 < point ∧ point ≤ 0 then
    "0." ++ String.ofList (List.replicate (-point).toNat '0') ++ digits
  else
    let exponent := exponentText (point - 1)
    match cs with
    | [c]    => String.ofList [c] ++ "e" ++ exponent
    | c :: r => String.ofList [c] ++ "." ++ String.ofList r ++ "e" ++ exponent
    | []     => ""

def text : Binary64 → String
  | .nan _        => "NaN"
  | .infinite s   => if s then "-inf" else "inf"
  | .finite s m e =>
    (if s then "-" else "") ++ if m = 0 then "0.0" else (shortest m e).text

end StagedTransfer.Binary64
