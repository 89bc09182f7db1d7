import StagedTransfer.Text.Hex

/-!
# Percent-encoding

A character that has no place in a part of an address is spelled by its bytes, each as a percent sign
and two digits. Which characters stay as they are depends on the part.
-/

namespace StagedTransfer.Percent

/-- The three characters that spell a byte. -/
def escape (b : UInt8) : List Char :=
  ['%', Hex.upperDigit (b.toNat / 16), Hex.upperDigit (b.toNat % 16)]

/-- A character, or what spells it. -/
def encodeChar (keep : Char → Bool) (c : Char) : List Char :=
  if keep c then [c] else (Utf8.encodeChar c).flatMap escape

/-- A text in which only the characters of a class stay as they are. -/
def encode (keep : Char → Bool) (cs : List Char) : List Char :=
  cs.flatMap (encodeChar keep)

/-- The bytes that a text spells. A percent sign without two digits after it stands for itself. -/
def decode : List Char → Bytes
  | []                  => []
  | '%' :: a :: b :: cs =>
    match Hex.digitValue? a, Hex.digitValue? b with
    | some m, some n => UInt8.ofNat (m * 16 + n) :: decode cs
    | _,      _      => Utf8.encodeChar '%' ++ decode (a :: b :: cs)
  | c :: cs             => Utf8.encodeChar c ++ decode cs

/-- The characters that stay as they are in the name of a cluster: of the unreserved ones all but
the tilde. -/
def isPlain (c : Char) : Bool :=
  c.isAlphanum || c == '-' || c == '_' || c == '.'

end StagedTransfer.Percent
