import StagedTransfer.Json.Value

/-!
# Readings of a JSON text

A reading says what a text holds up to the place where it goes wrong. Whoever looks for something
in a text meets the first thing wrong in text order, be it that the text breaks off or that a value
is not of the kind looked for, so a reading keeps what stands before the fault.

A value that nobody looks for is only skipped. Skipping is less strict than reading: it does not
ask which character an escape names, nor how large a number is.
-/

namespace StagedTransfer.Json

open Utf8 (Glyph)

/-- What is wrong with a text at some place. -/
inductive Fault
  | malformed
  | unfinished
  deriving DecidableEq, Repr

/-- A fault as met by a reader that needs what stands there, and by one that skips it. -/
structure Breach where
  needed  : Fault
  skipped : Fault
  deriving DecidableEq, Repr

def Breach.same (f : Fault) : Breach :=
  ⟨f, f⟩

inductive Reading
  | null
  | bool (b : Bool)
  | number (n : Number)
  | string (s : String)
  /-- A string or a number that can be skipped and stands for no value. -/
  | refused
  /-- The items up to the end of the array, or up to the fault after the last of them. -/
  | array (items : List Reading) (ending : Option Fault)
  /-- The members up to the end of the object, or up to the fault after the last of them. A key
  that stands for no string is left out. -/
  | object (members : List (Option String × Reading)) (ending : Option Breach)
  | broken (breach : Breach)

/-! ### Blanks and words -/

/-- The four characters that may stand between the parts of a text. -/
def isBlank : Glyph → Bool
  | .char c  => c = ' ' || c = '\n' || c = '\t' || c = '\r'
  | .stray _ => false

def skipBlanks (s : List Glyph) : List Glyph :=
  s.dropWhile isBlank

/-- What follows the rest of a word. -/
def readWord : (word : List Char) → List Glyph → Except Fault (List Glyph)
  | [],     s           => .ok s
  | _,      []          => .error .unfinished
  | c :: w, g :: s => if g = .char c then readWord w s else .error .malformed

/-! ### Strings -/

/-- The part of a string that has been read. -/
structure Draft where
  /-- Its characters, the last first. -/
  chars   : List Char
  /-- The first half of a character that is spelled as two escapes. -/
  high    : Option Nat
  /-- No byte so far stands outside a character. -/
  clean   : Bool
  /-- An escape has named half a character. -/
  refused : Bool

namespace Draft

def empty : Draft := ⟨[], none, true, false⟩

/-- A first half must be followed by a second. -/
def settle (d : Draft) : Draft :=
  if d.high.isSome then { d with high := none, refused := true } else d

def push (d : Draft) (c : Char) : Draft :=
  let d := d.settle
  { d with chars := c :: d.chars }

/-- The draft after a byte that belongs to no character. -/
def spoil (d : Draft) : Draft :=
  { d.settle with clean := false }

def isHigh (n : Nat) : Bool := 0xD800 ≤ n && n < 0xDC00

def isLow (n : Nat) : Bool := 0xDC00 ≤ n && n < 0xE000

/-- The draft after an escape that names the sixteen-bit unit `n`. -/
def unit (d : Draft) (n : Nat) : Draft :=
  match d.high with
  | some h =>
    if isLow n then
      { d with
        chars := Char.ofNat (0x10000 + (h - 0xD800) * 0x400 + (n - 0xDC00)) :: d.chars
        high  := none }
    else { d with high := none, refused := true }
  | none =>
    if isHigh n then { d with high := some n }
    else if isLow n then { d with refused := true }
    else d.push (Char.ofNat n)

/-- The fault of a string that goes wrong here: a reader that needs it has stopped before at an
escape that names half a character. -/
def breach (d : Draft) (f : Fault) : Breach :=
  ⟨if d.refused then .malformed else f, f⟩

def finish (d : Draft) : Option String :=
  let d := d.settle
  if d.refused || !d.clean then none else some (String.ofList d.chars.reverse)

end Draft

/-- What stands after an opening quote. -/
inductive Quoted
  /-- A string, if it is one, and what follows the closing quote. -/
  | closed (s : Option String) (rest : List Glyph)
  | broken (breach : Breach)

def escaped? (c : Char) : Option Char :=
  if c = '"' ∨ c = '\\' ∨ c = '/' then some c
  else if c = 'b' then some '\x08'
  else if c = 'f' then some '\x0c'
  else if c = 'n' then some '\n'
  else if c = 'r' then some '\r'
  else if c = 't' then some '\t'
  else none

def unitOf? : (a b c d : Glyph) → Option Nat
  | .char a, .char b, .char c, .char d => do
    let a ← Hex.digitValue? a
    let b ← Hex.digitValue? b
    let c ← Hex.digitValue? c
    let d ← Hex.digitValue? d
    return ((a * 16 + b) * 16 + c) * 16 + d
  | _, _, _, _ => none

def byteCount (s : List Glyph) : Nat :=
  (s.map fun | .char c => c.utf8Size | .stray _ => 1).foldl (· + ·) 0

def readString (d : Draft) : List Glyph → Quoted
  | []            => .broken (d.breach .unfinished)
  | .stray _ :: s => readString d.spoil s
  | .char c :: s  =>
    if c = '"' then .closed d.finish s
    else if c = '\\' then
      match s with
      | []            => .broken (d.breach .unfinished)
      | .stray _ :: _ => .broken (d.breach .malformed)
      | .char e :: s  =>
        if e = 'u' then
          match s with
          | x :: y :: z :: w :: s =>
            match unitOf? x y z w with
            | some n => readString (d.unit n) s
            | none   => .broken (d.breach .malformed)
          -- four bytes are taken before the digits are looked at
          | s => .broken (d.breach (if byteCount s < 4 then .unfinished else .malformed))
        else
          match escaped? e with
          | some c => readString (d.push c) s
          | none   => .broken (d.breach .malformed)
    else if c.toNat < 0x20 then .broken (d.breach .malformed)
    else readString (d.push c) s

/-! ### Numbers -/

def digit? : Glyph → Option Nat
  | .char c  => if '0' ≤ c ∧ c ≤ '9' then some (c.toNat - '0'.toNat) else none
  | .stray _ => none

/-- The digits that a text begins with, and what follows them. -/
def readDigits : List Glyph → List Nat × List Glyph
  | []     => ([], [])
  | g :: s =>
    match digit? g with
    | some d => let (ds, rest) := readDigits s; (d :: ds, rest)
    | none   => ([], g :: s)

/-- A number that lacks a digit: whoever skips it does not care that the text ends there. -/
def lacksDigit (s : List Glyph) : Reading × Option (List Glyph) :=
  (.broken ⟨if s.isEmpty then .unfinished else .malformed, .malformed⟩, none)

def numberRead (t : NumberText) : Reading :=
  match Number.ofText t with
  | some n => .number n
  | none   => .refused

/-- What follows the whole part and the fraction of a number. -/
def readExponent (negative : Bool) (whole fraction : List Nat) :
    List Glyph → Reading × Option (List Glyph)
  | []     => (numberRead ⟨negative, whole, fraction, none⟩, some [])
  | g :: s =>
    if g = .char 'e' ∨ g = .char 'E' then
      let (below, s) := match s with
        | .char '-' :: s => (true, s)
        | .char '+' :: s => (false, s)
        | s              => (false, s)
      let (ds, rest) := readDigits s
      if ds = [] then lacksDigit rest
      else (numberRead ⟨negative, whole, fraction, some (below, ds)⟩, some rest)
    else (numberRead ⟨negative, whole, fraction, none⟩, some (g :: s))

def readNumber (negative : Bool) (s : List Glyph) : Reading × Option (List Glyph) :=
  let (whole, s) := readDigits s
  if whole = [] then lacksDigit s
  -- a zero at the start stands alone
  else if whole.head? = some 0 ∧ 1 < whole.length then (.broken (.same .malformed), none)
  else match s with
    | .char '.' :: s =>
      let (fraction, s) := readDigits s
      if fraction = [] then lacksDigit s else readExponent negative whole fraction s
    | s => readExponent negative whole [] s

/-! ### Values -/

def stopped (f : Fault) : Reading × Option (List Glyph) :=
  (.broken (.same f), none)

/-- A value spelled by a word of which the first letter has been read. -/
def readNamed (v : Reading) (word : List Char) (s : List Glyph) : Reading × Option (List Glyph) :=
  match readWord word s with
  | .ok rest => (v, some rest)
  | .error f => stopped f

mutual

/-- One value and what follows it; nothing follows a fault. -/
def readValue : (fuel : Nat) → List Glyph → Reading × Option (List Glyph)
  | 0,     _ => stopped .malformed
  | n + 1, s =>
    match skipBlanks s with
    | []            => stopped .unfinished
    | .stray _ :: _ => stopped .malformed
    | .char c :: s  =>
      if c = '"' then
        match readString .empty s with
        | .closed (some t) rest => (.string t, some rest)
        | .closed none rest     => (.refused, some rest)
        | .broken b             => (.broken b, none)
      else if c = '[' then
        match skipBlanks s with
        | []     => (.array [] (some .unfinished), none)
        | g :: s =>
          if g = .char ']' then (.array [] none, some s)
          else
            let (items, ending, rest) := readItems n (g :: s)
            (.array items ending, rest)
      else if c = '\x7b' then
        match skipBlanks s with
        | []     => (.object [] (some (.same .unfinished)), none)
        | g :: s =>
          if g = .char '\x7d' then (.object [] none, some s)
          else
            let (members, ending, rest) := readMembers n (g :: s)
            (.object members ending, rest)
      else if c = 'n' then readNamed .null ['u', 'l', 'l'] s
      else if c = 't' then readNamed (.bool true) ['r', 'u', 'e'] s
      else if c = 'f' then readNamed (.bool false) ['a', 'l', 's', 'e'] s
      else if c = '-' then readNumber true s
      else if '0' ≤ c ∧ c ≤ '9' then readNumber false (.char c :: s)
      else stopped .malformed

/-- The items of an array from the one that is due, the fault after the last of them, and what
follows the array. -/
def readItems : (fuel : Nat) → List Glyph → List Reading × Option Fault × Option (List Glyph)
  | 0,     _ => ([], some .malformed, none)
  | n + 1, s =>
    match readValue n s with
    | (v, none)   => ([v], none, none)
    | (v, some s) =>
      match skipBlanks s with
      | []     => ([v], some .unfinished, none)
      | g :: s =>
        if g = .char ',' then
          let (items, ending, rest) := readItems n s
          (v :: items, ending, rest)
        else if g = .char ']' then ([v], none, some s)
        else ([v], some .malformed, none)

/-- The members of an object from the one that is due, the fault after the last of them, and what
follows the object. -/
def readMembers : (fuel : Nat) → List Glyph →
    List (Option String × Reading) × Option Breach × Option (List Glyph)
  | 0,     _ => ([], some (.same .malformed), none)
  | n + 1, s =>
    match skipBlanks s with
    | []     => ([], some (.same .unfinished), none)
    | g :: s =>
      if g = .char '"' then
        match readString .empty s with
        | .broken b     => ([], some b, none)
        | .closed key s =>
          match skipBlanks s with
          | []     => ([(key, .broken (.same .unfinished))], none, none)
          | g :: s =>
            if g = .char ':' then
              match readValue n s with
              | (v, none)   => ([(key, v)], none, none)
              | (v, some s) =>
                match skipBlanks s with
                | []     => ([(key, v)], some (.same .unfinished), none)
                | g :: s =>
                  if g = .char ',' then
                    let (members, ending, rest) := readMembers n s
                    ((key, v) :: members, ending, rest)
                  else if g = .char '\x7d' then ([(key, v)], none, some s)
                  else ([(key, v)], some (.same .malformed), none)
            else ([(key, .broken (.same .malformed))], none, none)
      else ([], some (.same .malformed), none)

end

structure Document where
  root     : Reading
  /-- More than blanks follows the value. -/
  trailing : Bool

/-- The reading of a text. Each value takes at least one item, which bounds the depth. -/
def read (s : List Glyph) : Document :=
  match readValue (2 * s.length + 2) s with
  | (v, none)      => ⟨v, false⟩
  | (v, some rest) => ⟨v, !(skipBlanks rest).isEmpty⟩

end StagedTransfer.Json
