import StagedTransfer.Text.Utf8

/-!
# Hexadecimal text

Bytes as pairs of lower-case digits, the form in which digests are compared and reported.
-/

namespace StagedTransfer.Hex

def digit (n : Nat) : Char :=
  if n < 10 then Char.ofNat ('0'.toNat + n) else Char.ofNat ('a'.toNat + (n - 10))

/-- The upper-case digit of a number below sixteen. -/
def upperDigit (n : Nat) : Char :=
  if n < 10 then Char.ofNat ('0'.toNat + n) else Char.ofNat ('A'.toNat + (n - 10))

def digitValue? (c : Char) : Option Nat :=
  if '0' ≤ c ∧ c ≤ '9' then some (c.toNat - '0'.toNat)
  else if 'a' ≤ c ∧ c ≤ 'f' then some (c.toNat - 'a'.toNat + 10)
  else if 'A' ≤ c ∧ c ≤ 'F' then some (c.toNat - 'A'.toNat + 10)
  else none

def ofByte (b : UInt8) : List Char :=
  [digit (b.toNat / 16), digit (b.toNat % 16)]

def ofBytes (bytes : Bytes) : String :=
  String.ofList (bytes.flatMap ofByte)

/-- The last `width` digits of a number. -/
def ofNat (width n : Nat) : String :=
  String.ofList ((List.range width).map fun i => digit (n / Nat.pow 16 (width - 1 - i) % 16))

def parse? : List Char → Option Bytes
  | []          => some []
  | a :: b :: s => do
    let high ← digitValue? a
    let low ← digitValue? b
    return UInt8.ofNat (high * 16 + low) :: (← parse? s)
  | _           => none

end StagedTransfer.Hex
