import Mathlib.Tactic.Lemma
import StagedTransfer.Json.Reading

/-!
# JSON texts

The grammar of JSON. A text spells a reading, that is a word, a number, a string, an array or an
object, with blanks wherever they may stand. Nothing is said here about how a text is read.
-/

namespace StagedTransfer.Json

/-- The four characters that may stand between the parts of a text. -/
def blanks : List Char := [' ', '\n', '\t', '\r']

/-- Nothing but blanks. -/
def Blank (cs : List Char) : Prop :=
  ∀ c ∈ cs, c ∈ blanks

instance (cs : List Char) : Decidable (Blank cs) :=
  List.decidableBAll (· ∈ blanks) cs

/-! ### Strings -/

/-- What a piece of a string names: a character, or one of the one or two sixteen-bit units of a
character. -/
inductive Sign
  | char (c : Char)
  | unit (n : Nat)
  deriving DecidableEq

/-- The letters after a backslash and the characters that they name. -/
def shortEscapes : List (Char × Char) :=
  [('"', '"'), ('\\', '\\'), ('/', '/'), ('b', '\x08'), ('f', '\x0c'), ('n', '\n'), ('r', '\r'),
    ('t', '\t')]

/-- The text between the quotes of a string. -/
inductive SpellsSigns : List Char → List Sign → Prop
  | nil : SpellsSigns [] []
  | plain {c : Char} {cs : List Char} {s : List Sign} (visible : 0x20 ≤ c.toNat) (quote : c ≠ '"')
    (backslash : c ≠ '\\') (rest : SpellsSigns cs s) : SpellsSigns (c :: cs) (.char c :: s)
  | short {e c : Char} {cs : List Char} {s : List Sign} (escape : (e, c) ∈ shortEscapes)
    (rest : SpellsSigns cs s) : SpellsSigns ('\\' :: e :: cs) (.char c :: s)
  | unit {w x y z : Char} {a b c d : Nat} {cs : List Char} {s : List Sign}
    (hw : Hex.digitValue? w = some a) (hx : Hex.digitValue? x = some b)
    (hy : Hex.digitValue? y = some c) (hz : Hex.digitValue? z = some d) (rest : SpellsSigns cs s) :
    SpellsSigns ('\\' :: 'u' :: w :: x :: y :: z :: cs)
      (.unit (((a * 16 + b) * 16 + c) * 16 + d) :: s)

/-- The character of two units. -/
def pairChar (high low : Nat) : Char :=
  Char.ofNat (0x10000 + (high - 0xD800) * 0x400 + (low - 0xDC00))

/-- The characters that signs name. Half a character is none. -/
def charsOf? : List Sign → Option (List Char)
  | []           => some []
  | .char c :: s => (charsOf? s).map (c :: ·)
  | .unit n :: s =>
    if Draft.isHigh n then
      match s with
      | .unit m :: s => if Draft.isLow m then (charsOf? s).map (pairChar n m :: ·) else none
      | _            => none
    else if Draft.isLow n then none
    else (charsOf? s).map (Char.ofNat n :: ·)

/-- The string that signs name, if they name one. -/
def stringOf? (s : List Sign) : Option String :=
  (charsOf? s).map String.ofList

/-- A string with its quotes. -/
def SpellsString (text : List Char) (s : Option String) : Prop :=
  ∃ cs signs, SpellsSigns cs signs ∧ stringOf? signs = s ∧ text = '"' :: (cs ++ ['"'])

/-! ### Numbers -/

def IsDigit (c : Char) : Prop :=
  '0' ≤ c ∧ c ≤ '9'

instance (c : Char) : Decidable (IsDigit c) :=
  inferInstanceAs (Decidable ('0' ≤ c ∧ c ≤ '9'))

/-- The values of digits. -/
def digitsOf (cs : List Char) : List Nat :=
  cs.map fun c => c.toNat - '0'.toNat

/-- At least one digit. -/
def Digits (cs : List Char) : Prop :=
  cs ≠ [] ∧ ∀ c ∈ cs, IsDigit c

/-- The whole part of a number; only a zero that stands alone comes first. -/
def Whole (cs : List Char) : Prop :=
  Digits cs ∧ (cs.head? = some '0' → cs = ['0'])

inductive SpellsFraction : List Char → List Nat → Prop
  | absent : SpellsFraction [] []
  | present {cs : List Char} (digits : Digits cs) : SpellsFraction ('.' :: cs) (digitsOf cs)

/-- The sign of an exponent, and whether it is negative. -/
inductive SpellsSign : List Char → Bool → Prop
  | absent : SpellsSign [] false
  | plus : SpellsSign ['+'] false
  | minus : SpellsSign ['-'] true

inductive SpellsExponent : List Char → Option (Bool × List Nat) → Prop
  | absent : SpellsExponent [] none
  | present {e : Char} {sign cs : List Char} {below : Bool} (mark : e = 'e' ∨ e = 'E')
    (signed : SpellsSign sign below) (digits : Digits cs) :
    SpellsExponent (e :: (sign ++ cs)) (some (below, digitsOf cs))

/-- A number after its sign. -/
inductive SpellsNumber (negative : Bool) : List Char → NumberText → Prop
  | intro {whole fraction exponent : List Char} {f : List Nat} {e : Option (Bool × List Nat)}
    (whole' : Whole whole) (fraction' : SpellsFraction fraction f)
    (exponent' : SpellsExponent exponent e) :
    SpellsNumber negative (whole ++ (fraction ++ exponent)) ⟨negative, digitsOf whole, f, e⟩

/-! ### Values -/

/-- The key of a member with blanks around it. -/
inductive SpellsKey : List Char → Option String → Prop
  | intro {before text after : List Char} {k : Option String} (blank : Blank before)
    (string : SpellsString text k) (blank' : Blank after) : SpellsKey (before ++ (text ++ after)) k

mutual

/-- The text is that of a value, from its first character to its last. -/
inductive Spells : List Char → Reading → Prop
  | null : Spells ['n', 'u', 'l', 'l'] .null
  | bool (b : Bool) : Spells (boolChars b) (.bool b)
  | positive {cs : List Char} {t : NumberText} (number : SpellsNumber false cs t) :
    Spells cs (numberRead t)
  | negative {cs : List Char} {t : NumberText} (number : SpellsNumber true cs t) :
    Spells ('-' :: cs) (numberRead t)
  | string {text : List Char} {s : String} (string : SpellsString text (some s)) :
    Spells text (.string s)
  /-- A string that names half a character. -/
  | refused {text : List Char} (string : SpellsString text none) : Spells text .refused
  | emptyArray {inner : List Char} (blank : Blank inner) :
    Spells ('[' :: (inner ++ [']'])) (.array [] none)
  | array {cs : List Char} {items : List Reading} (list : SpellsItems cs items) :
    Spells ('[' :: (cs ++ [']'])) (.array items none)
  | emptyObject {inner : List Char} (blank : Blank inner) :
    Spells ('\x7b' :: (inner ++ ['\x7d'])) (.object [] none)
  | object {cs : List Char} {members : List (Option String × Reading)}
    (list : SpellsMembers cs members) : Spells ('\x7b' :: (cs ++ ['\x7d'])) (.object members none)

/-- The text is that of a value with blanks around it. -/
inductive SpellsText : List Char → Reading → Prop
  | intro {before text after : List Char} {r : Reading} (blank : Blank before)
    (value : Spells text r) (blank' : Blank after) : SpellsText (before ++ (text ++ after)) r

/-- The text is that of at least one item, with commas between items. -/
inductive SpellsItems : List Char → List Reading → Prop
  | last {cs : List Char} {r : Reading} (value : SpellsText cs r) : SpellsItems cs [r]
  | more {cs rest : List Char} {r : Reading} {items : List Reading} (value : SpellsText cs r)
    (others : SpellsItems rest items) : SpellsItems (cs ++ ',' :: rest) (r :: items)

/-- The text is that of at least one member, with commas between members. -/
inductive SpellsMembers : List Char → List (Option String × Reading) → Prop
  | last {key cs : List Char} {k : Option String} {r : Reading} (key' : SpellsKey key k)
    (value : SpellsText cs r) : SpellsMembers (key ++ ':' :: cs) [(k, r)]
  | more {key cs rest : List Char} {k : Option String} {r : Reading}
    {members : List (Option String × Reading)} (key' : SpellsKey key k) (value : SpellsText cs r)
    (others : SpellsMembers rest members) :
    SpellsMembers (key ++ ':' :: (cs ++ ',' :: rest)) ((k, r) :: members)

end

end StagedTransfer.Json
