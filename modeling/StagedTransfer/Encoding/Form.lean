import StagedTransfer.Encoding.Percent
import StagedTransfer.Text.Pieces

/-!
# Forms

The names and values of a form as one text: pairs with an ampersand between them and an equals sign
within each. A space is a plus sign, and whatever could be taken for one of these is
percent-encoded.
-/

namespace StagedTransfer.Form

/-- The characters that stay as they are. -/
def isPlain (c : Char) : Bool :=
  c.isAlphanum || c == '*' || c == '-' || c == '.' || c == '_'

def encodeChar (c : Char) : List Char :=
  if c = ' ' then ['+'] else Percent.encodeChar isPlain c

def encodeText (s : String) : List Char :=
  s.toList.flatMap encodeChar

def encodePair (p : String × String) : List Char :=
  encodeText p.1 ++ '=' :: encodeText p.2

def encode (pairs : List (String × String)) : List Char :=
  ['&'].intercalate (pairs.map encodePair)

/-! ### Reading -/

def decodeText (cs : List Char) : String :=
  Utf8.decodeLossy (Percent.decode (cs.map fun c => if c = '+' then ' ' else c))

def decodePair (cs : List Char) : String × String :=
  (decodeText (cs.takeWhile (· ≠ '=')), decodeText ((cs.dropWhile (· ≠ '=')).drop 1))

/-- The pairs of a form, in order; empty pieces are skipped. -/
def decode (cs : List Char) : List (String × String) :=
  ((Text.pieces '&' cs).filter (· ≠ [])).map decodePair

end StagedTransfer.Form
