import StagedTransfer.Json.Number
import StagedTransfer.Text.Hex

/-!
# JSON values

The values that a JSON text stands for and the compact text of each: no blanks, members in the
order given, and in a string only quotes, backslashes and control characters escaped.
-/

namespace StagedTransfer.Json

inductive Value
  | null
  | bool (b : Bool)
  | number (n : Number)
  | string (s : String)
  | array (items : List Value)
  /-- Members in text order. A key may stand more than once. -/
  | object (members : List (String × Value))

/-! ### Strings -/

/-- The four digits that name a control character. -/
def controlDigits (c : Char) : List Char :=
  (Hex.ofNat 4 c.toNat).toList

def escapeChar (c : Char) : List Char :=
  if c = '"' then ['\\', '"']
  else if c = '\\' then ['\\', '\\']
  else if c = '\x08' then ['\\', 'b']
  else if c = '\t' then ['\\', 't']
  else if c = '\n' then ['\\', 'n']
  else if c = '\x0c' then ['\\', 'f']
  else if c = '\r' then ['\\', 'r']
  else if c.toNat < 0x20 then '\\' :: 'u' :: controlDigits c
  else [c]

def quoteChars (cs : List Char) : List Char :=
  '"' :: cs.flatMap escapeChar ++ ['"']

def quote (s : String) : List Char :=
  quoteChars s.toList

/-! ### Numbers -/

/-- The decimal digits of an integer, after a minus sign if it is negative. -/
def integerChars (n : Int) : List Char :=
  if 0 ≤ n then Nat.toDigits 10 n.toNat else '-' :: Nat.toDigits 10 (-n).toNat

/-- A number that no text stands for is written as `null`. -/
def Number.chars : Number → List Char
  | .integer n            => integerChars n
  | .real (.finite s m e) => (Binary64.text (.finite s m e)).toList
  | .real _               => ['n', 'u', 'l', 'l']

/-! ### Values -/

def boolChars (b : Bool) : List Char :=
  if b then ['t', 'r', 'u', 'e'] else ['f', 'a', 'l', 's', 'e']

mutual

def Value.chars : Value → List Char
  | .null           => ['n', 'u', 'l', 'l']
  | .bool b         => boolChars b
  | .number n       => n.chars
  | .string s       => quote s
  | .array items    => '[' :: itemsChars true items ++ [']']
  | .object members => '\x7b' :: membersChars true members ++ ['\x7d']
termination_by structural v => v

/-- The items of an array; all but the first follow a comma. -/
def itemsChars : (first : Bool) → List Value → List Char
  | _,     []         => []
  | first, v :: items => (if first then [] else [',']) ++ v.chars ++ itemsChars false items
termination_by structural _ items => items

/-- The members of an object; all but the first follow a comma. -/
def membersChars : (first : Bool) → List (String × Value) → List Char
  | _,     []               => []
  | first, (k, v) :: members =>
    (if first then [] else [',']) ++ quote k ++ ':' :: v.chars ++ membersChars false members
termination_by structural _ members => members

end

def Value.render (v : Value) : String :=
  String.ofList v.chars

end StagedTransfer.Json
