import StagedTransfer.Time.Span

/-!
# Instants

An instant is a number of nanoseconds after the start of 1970, or before it. Only instants of the
years from -262143 to 262142 can be told by a calendar.
-/

namespace StagedTransfer

structure Instant where
  nanos : Int
  deriving DecidableEq, Repr, Inhabited

namespace Instant

def ofSeconds (n : Int) : Instant :=
  ⟨n * Span.nanosPerSecond⟩

/-- The whole seconds, rounded to the past. -/
def seconds (t : Instant) : Int :=
  t.nanos.fdiv Span.nanosPerSecond

instance : LE Instant := ⟨fun a b => a.nanos ≤ b.nanos⟩

instance (a b : Instant) : Decidable (a ≤ b) := inferInstanceAs (Decidable (a.nanos ≤ b.nanos))

/-- The first second that a calendar tells. -/
def leastSecond : Int := -8334601228800

def greatestSecond : Int := 8210266876799

def isDated (second : Int) : Bool :=
  leastSecond ≤ second && second ≤ greatestSecond

def ofSeconds? (second : Int) : Option Instant :=
  if isDated second then some (ofSeconds second) else none

/-- The most seconds that can be added to an instant. -/
def greatestShift : Int := 9223372036854775

/-- The instant some seconds later, if it can be told. -/
def after? (t : Instant) (seconds : Int) : Option Instant :=
  let later : Instant := ⟨t.nanos + seconds * Span.nanosPerSecond⟩
  if seconds.natAbs ≤ greatestShift ∧ isDated later.seconds then some later else none

def plus (t : Instant) (a : Span) : Instant :=
  ⟨t.nanos + a.nanos⟩

/-! ### Calendar -/

structure Day where
  year  : Int
  month : Nat
  day   : Nat
  deriving DecidableEq, Repr

/-- The day that is `n` days after the start of 1970. Years are counted from March, so that the leap
day is the last; four hundred of them have 146097 days. -/
def dayOf (n : Int) : Day :=
  -- days from the first of March of the year zero
  let z := n + 719468
  let era := z.fdiv 146097
  let dayOfEra := (z - era * 146097).toNat
  let yearOfEra := (dayOfEra - dayOfEra / 1460 + dayOfEra / 36524 - dayOfEra / 146096) / 365
  let dayOfYear := dayOfEra - (365 * yearOfEra + yearOfEra / 4 - yearOfEra / 100)
  let fromMarch := (5 * dayOfYear + 2) / 153
  let month := if fromMarch < 10 then fromMarch + 3 else fromMarch - 9
  let year := yearOfEra + era * 400 + (if month ≤ 2 then 1 else 0)
  ⟨year, month, dayOfYear - (153 * fromMarch + 2) / 5 + 1⟩

/-- A number with at least `width` digits. -/
def padded (width n : Nat) : String :=
  let digits := toString n
  String.ofList (List.replicate (width - digits.length) '0') ++ digits

/-- A year has at least four digits, and a sign if it is negative or has more. -/
def yearText (year : Int) : String :=
  (if year < 0 then "-" else if 9999 < year then "+" else "") ++ padded 4 year.natAbs

def text (t : Instant) : String :=
  let s := t.seconds
  let d := dayOf (s.fdiv 86400)
  let r := (s.fmod 86400).toNat
  yearText d.year ++ "-" ++ padded 2 d.month ++ "-" ++ padded 2 d.day ++ " "
    ++ padded 2 (r / 3600) ++ ":" ++ padded 2 (r / 60 % 60) ++ ":" ++ padded 2 (r % 60) ++ " UTC"

end Instant

end StagedTransfer
