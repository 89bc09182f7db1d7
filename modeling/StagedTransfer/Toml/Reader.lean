import StagedTransfer.Text.Utf8
import StagedTransfer.Text.Hex
import StagedTransfer.Toml.Node

/-!
# Reading TOML

Readers take what they know from the start of a text and leave the rest, or refuse it. Values and
keys may not be nested more than seventy-nine deep.
-/

namespace StagedTransfer.Toml

/-! ### Blanks, comments and line ends -/

def isBlank (c : Char) : Bool :=
  c = ' ' || c = '\t'

def skipBlanks (s : List Char) : List Char :=
  s.dropWhile isBlank

/-- What follows a line end. -/
def afterNewline? : List Char → Option (List Char)
  | '\n' :: s         => some s
  | '\r' :: '\n' :: s => some s
  | _                 => none

/-- A character that may stand in a comment and in most strings. -/
def isPrintable (c : Char) : Bool :=
  c = '\t' || (0x20 ≤ c.toNat && c.toNat ≠ 0x7F)

def skipComment (s : List Char) : List Char :=
  match s with
  | '#' :: s => s.dropWhile isPrintable
  | s        => s

/-- What follows the end of a line that holds no more than a comment. -/
def afterLine? (s : List Char) : Option (List Char) :=
  match skipComment (skipBlanks s) with
  | [] => some []
  | s  => afterNewline? s

/-- At most `fuel` blanks, comments and line ends are skipped. -/
def skipLines : (fuel : Nat) → List Char → List Char
  | 0,     s => s
  | n + 1, s =>
    let s := skipComment (skipBlanks s)
    match afterNewline? s with
    | some rest => skipLines n rest
    | none      => s

def skipAll (s : List Char) : List Char :=
  skipLines (s.length + 1) s

/-! ### Strings -/

def escaped? (c : Char) : Option Char :=
  if c = 'b' then some '\x08'
  else if c = 't' then some '\t'
  else if c = 'n' then some '\n'
  else if c = 'f' then some '\x0c'
  else if c = 'r' then some '\r'
  else if c = '"' then some '"'
  else if c = '\\' then some '\\'
  else none

/-- The number that `count` digits spell, after the value of those before. -/
def readHex : (count value : Nat) → List Char → Option (Nat × List Char)
  | 0,     v, s      => some (v, s)
  | _ + 1, _, []     => none
  | n + 1, v, c :: s => do readHex n (v * 16 + (← Hex.digitValue? c)) s

/-- The character that an escape names, after its backslash. -/
def readEscape : List Char → Option (Char × List Char)
  | []     => none
  | c :: s =>
    let digits := if c = 'u' then 4 else if c = 'U' then 8 else 0
    if digits = 0 then (escaped? c).map (·, s)
    else do
      let (n, s) ← readHex digits 0 s
      return (← Utf8.charFrom? 0 n, s)

/-- The rest of a string between quotation marks, of at most `fuel` characters. -/
def readBasic : (fuel : Nat) → List Char → Option (List Char × List Char)
  | 0,     _      => none
  | _,     []     => none
  | n + 1, c :: s =>
    if c = '"' then some ([], s)
    else if c = '\\' then do
      let (d, s) ← readEscape s
      let (cs, s) ← readBasic n s
      return (d :: cs, s)
    else if isPrintable c then do
      let (cs, s) ← readBasic n s
      return (c :: cs, s)
    else none

def readLiteral : List Char → Option (List Char × List Char)
  | []     => none
  | c :: s =>
    if c = '\'' then some ([], s)
    else if isPrintable c then do
      let (cs, s) ← readLiteral s
      return (c :: cs, s)
    else none

/-- The marks that a text begins with. -/
def countMarks (mark : Char) (s : List Char) : Nat :=
  (s.takeWhile (· = mark)).length

/-- At most `fuel` blanks and line ends are skipped. -/
def skipFolded : (fuel : Nat) → List Char → List Char
  | 0,     s => s
  | n + 1, s =>
    let s := skipBlanks s
    match afterNewline? s with
    | some rest => skipFolded n rest
    | none      => s

/-- The rest of a string of several lines, of at most `fuel` steps. Three marks end it, and one or
two more before them belong to it. -/
def readLong (mark : Char) (escapes : Bool) :
    (fuel : Nat) → List Char → Option (List Char × List Char)
  | 0,     _      => none
  | _,     []     => none
  | n + 1, c :: s =>
    if c = mark then
      let marks := countMarks mark (c :: s)
      if 5 < marks then none
      else if 3 ≤ marks then some (List.replicate (marks - 3) mark, (c :: s).drop marks)
      else do
        let (cs, s) ← readLong mark escapes n s
        return (c :: cs, s)
    else if c = '\\' ∧ escapes then
      match afterNewline? (skipBlanks s) with
      | some rest => readLong mark escapes n (skipFolded rest.length rest)
      | none      => do
        let (d, s) ← readEscape s
        let (cs, s) ← readLong mark escapes n s
        return (d :: cs, s)
    else
      match afterNewline? (c :: s) with
      | some rest => do
        let (cs, s) ← readLong mark escapes n rest
        return ('\n' :: cs, s)
      | none =>
        if isPrintable c then do
          let (cs, s) ← readLong mark escapes n s
          return (c :: cs, s)
        else none

/-- A string of one line, of which the first character tells the kind. -/
def readLineString : List Char → Option (String × List Char)
  | '"' :: s  => (readBasic (s.length + 1) s).map fun (cs, s) => (String.ofList cs, s)
  | '\'' :: s => (readLiteral s).map fun (cs, s) => (String.ofList cs, s)
  | _         => none

/-- A string of any kind. A line end right after the opening marks does not belong to it. -/
def readString (s : List Char) : Option (String × List Char) :=
  match s with
  | c :: rest =>
    if 3 ≤ countMarks c s ∧ (c = '"' ∨ c = '\'') then
      let body := rest.drop 2
      let body := (afterNewline? body).getD body
      (readLong c (c = '"') (body.length + 1) body).map fun (cs, s) => (String.ofList cs, s)
    else readLineString s
  | [] => none

/-! ### Keys -/

def isKeyChar (c : Char) : Bool :=
  c.isAlphanum || c = '-' || c = '_'

def readSimpleKey (s : List Char) : Option (String × List Char) :=
  match s with
  | []     => none
  | c :: _ =>
    if c = '"' ∨ c = '\'' then readLineString s
    else
      let key := s.takeWhile isKeyChar
      if key.isEmpty then none else some (String.ofList key, s.dropWhile isKeyChar)

def depthLimit : Nat := 79

/-- At most `fuel` simple keys with dots between them, and the blanks around each. -/
def readKeys : (fuel : Nat) → List Char → Option (List String × List Char)
  | 0,     _ => none
  | n + 1, s => do
    let (key, s) ← readSimpleKey (skipBlanks s)
    match skipBlanks s with
    | '.' :: s => do
      let (keys, s) ← readKeys n s
      return (key :: keys, s)
    | s        => some ([key], s)

/-- A key as the path to a table and a name in it. -/
def readKey (s : List Char) : Option ((List String × String) × List Char) := do
  let (keys, s) ← readKeys depthLimit s
  return ((keys.dropLast, ← keys.getLast?), s)

/-! ### Numbers -/

/-- Digits with single underscores between them, after a digit. -/
def readMoreDigits (isDigit : Char → Bool) : List Char → Option (List Char × List Char)
  | []          => some ([], [])
  | '_' :: c :: s =>
    if isDigit c then do
      let (cs, s) ← readMoreDigits isDigit s
      return (c :: cs, s)
    else none
  | c :: s      =>
    if c = '_' then none
    else if isDigit c then do
      let (cs, s) ← readMoreDigits isDigit s
      return (c :: cs, s)
    else some ([], c :: s)

/-- Digits with single underscores between them, at least one. -/
def readDigits (isDigit : Char → Bool) : List Char → Option (List Char × List Char)
  | []     => none
  | c :: s =>
    if isDigit c then do
      let (cs, s) ← readMoreDigits isDigit s
      return (c :: cs, s)
    else none

def valueOf (base : Nat) (cs : List Char) : Nat :=
  cs.foldl (fun n c => n * base + (Hex.digitValue? c).getD 0) 0

def readSign : List Char → Bool × List Char
  | '-' :: s => (true, s)
  | '+' :: s => (false, s)
  | s        => (false, s)

def integer? (n : Int) : Option Node :=
  if -Int.pow 2 63 ≤ n ∧ n < Int.pow 2 63 then some (.integer n) else none

/-- An integer to another base than ten, after the mark of the base. -/
def readBased (base : Nat) (isDigit : Char → Bool) (s : List Char) : Option (Node × List Char) := do
  let (cs, s) ← readDigits isDigit s
  return (← integer? (valueOf base cs), s)

/-- The whole part of a number: a zero or digits that do not begin with one. -/
def readWhole : List Char → Option (List Char × List Char)
  | '0' :: s => some (['0'], s)
  | s        => readDigits Char.isDigit s

def readFraction : List Char → Option (List Char × List Char)
  | '.' :: s => readDigits Char.isDigit s
  | s        => some ([], s)

def readExponent (s : List Char) : Option (Option Int × List Char) :=
  match s with
  | c :: s =>
    if c = 'e' ∨ c = 'E' then do
      let (negative, s) := readSign s
      let (cs, s) ← readDigits Char.isDigit s
      let e : Int := valueOf 10 cs
      return (some (if negative then -e else e), s)
    else some (none, c :: s)
  | [] => some (none, [])

/-- The greatest power of ten that is multiplied out; beyond it all numbers are zero or infinite. -/
def powerLimit : Nat := 400

/-- The number with the digits `whole.fraction` times a power of ten. -/
def floatOf (negative : Bool) (whole fraction : List Char) (e : Int) : Binary64 :=
  let digits := valueOf 10 (whole ++ fraction)
  let e := e - fraction.length
  let size : Int := (toString digits).length
  -- the power is not multiplied out where the result is known
  if digits = 0 ∨ e + size < -(powerLimit : Int) then .finite negative 0 Binary64.leastExponent
  else if (powerLimit : Int) < e + size then .infinite negative
  else .ofDecimal negative digits e

/-- A number that is none or infinite, after its sign. -/
def readSpecial (negative : Bool) : List Char → Option (Node × List Char)
  | 'i' :: 'n' :: 'f' :: s => some (.float (.infinite negative), s)
  | 'n' :: 'a' :: 'n' :: s => some (.float (.nan negative), s)
  | _                      => none

/-- A number to the base ten. One that is too large is refused. -/
def readDecimal (s : List Char) : Option (Node × List Char) := do
  let (negative, s) := readSign s
  match s with
  | 'i' :: _ => readSpecial negative s
  | 'n' :: _ => readSpecial negative s
  | _        =>
    let (whole, s) ← readWhole s
    let (fraction, s) ← readFraction s
    let (e, s) ← readExponent s
    if fraction.isEmpty ∧ e.isNone then
      let n : Int := valueOf 10 whole
      return (← integer? (if negative then -n else n), s)
    else
      match floatOf negative whole fraction (e.getD 0) with
      -- a negative number is not refused for its size
      | .infinite false => none
      | x               => some (.float x, s)

/-! ### Dates and times -/

/-- A number of exactly `count` digits. -/
def readFixed (count : Nat) (s : List Char) : Option (Nat × List Char) :=
  let cs := s.take count
  if cs.length = count ∧ cs.all Char.isDigit then some (valueOf 10 cs, s.drop count) else none

/-- What follows a character that has to stand at the start. -/
def after? (c : Char) : List Char → Option (List Char)
  | d :: s => if c = d then some s else none
  | []     => none

def daysIn (year month : Nat) : Nat :=
  if month = 2 then
    if year % 4 = 0 ∧ (year % 100 ≠ 0 ∨ year % 400 = 0) then 29 else 28
  else if month = 4 ∨ month = 6 ∨ month = 9 ∨ month = 11 then 30
  else 31

def afterDate? (s : List Char) : Option (List Char) := do
  let (year, s) ← readFixed 4 s
  let (month, s) ← readFixed 2 (← after? '-' s)
  let (day, s) ← readFixed 2 (← after? '-' s)
  if 1 ≤ month ∧ month ≤ 12 ∧ 1 ≤ day ∧ day ≤ daysIn year month then some s else none

def afterMinute? (s : List Char) : Option (List Char) := do
  let (hour, s) ← readFixed 2 s
  let (minute, s) ← readFixed 2 (← after? ':' s)
  if hour ≤ 23 ∧ minute ≤ 59 then some s else none

def afterTime? (s : List Char) : Option (List Char) := do
  let (second, s) ← readFixed 2 (← after? ':' (← afterMinute? s))
  if 60 < second then none
  else match s with
    | '.' :: s => if s.head?.any Char.isDigit then some (s.dropWhile Char.isDigit) else none
    | s        => some s

/-- What follows the distance from universal time, if there is one. -/
def afterOffset? : List Char → Option (List Char)
  | []     => some []
  | c :: s =>
    if c = 'Z' ∨ c = 'z' then some s
    else if c = '+' ∨ c = '-' then afterMinute? s
    else some (c :: s)

def beginsWithHour (s : List Char) : Bool :=
  match readFixed 2 s with
  | some (hour, ':' :: _) => hour ≤ 23
  | _                     => false

/-- What follows a date and, if there is one, its time. -/
def afterMoment? (s : List Char) : Option (List Char) := do
  let s ← afterDate? s
  match s with
  | c :: rest =>
    -- a blank ends the date unless a time comes after it
    if (c = 'T' ∨ c = 't' ∨ c = ' ') ∧ beginsWithHour rest then
      afterOffset? (← afterTime? rest)
    else some s
  | [] => some []

def beginsWithYear (s : List Char) : Bool :=
  match readFixed 4 s with
  | some (_, '-' :: _) => true
  | _                  => false

/-! ### Values -/

/-- A value that begins with a digit or a sign. -/
def readNumber (s : List Char) : Option (Node × List Char) :=
  -- dates and times begin with digits as well
  if beginsWithYear s then (afterMoment? s).map (.moment, ·)
  else if beginsWithHour s then (afterTime? s).map (.moment, ·)
  else match s with
    | '0' :: 'x' :: s => readBased 16 (fun c => (Hex.digitValue? c).isSome) s
    | '0' :: 'o' :: s => readBased 8 (fun c => '0' ≤ c && c ≤ '7') s
    | '0' :: 'b' :: s => readBased 2 (fun c => c = '0' || c = '1') s
    | s               => readDecimal s

/-- At most `fuel` items of an array and its end. -/
def readItems (item : List Char → Option (Node × List Char)) :
    (fuel : Nat) → List Char → Option (List Node × List Char)
  | 0,     _ => none
  | n + 1, s =>
    match skipAll s with
    | ']' :: s => some ([], s)
    | s        => do
      let (v, s) ← item s
      match skipAll s with
      | ',' :: s => do
        let (vs, s) ← readItems item n s
        return (v :: vs, s)
      | ']' :: s => some ([v], s)
      | _        => none

def readPair (item : List Char → Option (Node × List Char)) (s : List Char) :
    Option ((List String × String × Node) × List Char) := do
  let ((path, key), s) ← readKey s
  let (v, s) ← item (skipBlanks (← after? '=' s))
  return ((path, key, v), s)

/-- At most `fuel` pairs of a table between braces, and its end. -/
def readPairs (item : List Char → Option (Node × List Char)) :
    (fuel : Nat) → List Char → Option ((List (List String × String × Node)) × List Char)
  | 0,     _ => none
  | n + 1, s => do
    let (p, s) ← readPair item s
    match skipBlanks s with
    | c :: s =>
      if c = ',' then do
        let (ps, s) ← readPairs item n s
        return (p :: ps, s)
      else if c = '\x7d' then some ([p], s)
      else none
    | [] => none

/-- What follows a word that has to stand at the start. -/
def afterWord? : (word : List Char) → List Char → Option (List Char)
  | [],     s      => some s
  | _,      []     => none
  | c :: w, d :: s => if c = d then afterWord? w s else none

/-- A value with at most `depth` arrays and tables inside each other. -/
def readValue : (depth : Nat) → List Char → Option (Node × List Char)
  | _,     []     => none
  | depth, c :: s =>
    if c = '"' ∨ c = '\'' then (readString (c :: s)).map fun (t, s) => (.string t, s)
    else if c = '[' then
      match depth with
      | 0     => none
      | d + 1 => (readItems (readValue d) (s.length + 1) s).map fun (vs, s) => (.array vs, s)
    else if c = '\x7b' then
      match depth with
      | 0     => none
      | d + 1 =>
        match skipBlanks s with
        | []      => none
        | e :: s  =>
          if e = '\x7d' then some (.table .inline [], s)
          else do
            let (ps, s) ← readPairs (readValue d) (s.length + 1) (e :: s)
            return (← inlineTable ps, s)
    else if c = 't' then (afterWord? ['r', 'u', 'e'] s).map (.bool true, ·)
    else if c = 'f' then (afterWord? ['a', 'l', 's', 'e'] s).map (.bool false, ·)
    else if c = 'i' ∨ c = 'n' then readSpecial false (c :: s)
    else if c = '+' ∨ c = '-' ∨ c.isDigit then readNumber (c :: s)
    else none

/-! ### Documents -/

/-- A document as far as it has been read: its root and the path of the last header. -/
structure Draft where
  root   : Entries
  header : List String

/-- The document after a header, of which the first bracket has been read. -/
def readHeader (d : Draft) (s : List Char) : Option (Draft × List Char) :=
  match s with
  | '[' :: s => do
    let ((path, key), s) ← readKey s
    let s ← afterLine? (← after? ']' (← after? ']' s))
    return (⟨← d.root.openElement path key, path ++ [key]⟩, s)
  | s        => do
    let ((path, key), s) ← readKey s
    let s ← afterLine? (← after? ']' s)
    return (⟨← d.root.openTable path key, path ++ [key]⟩, s)

/-- At most `fuel` headers and pairs. -/
def readLines : (fuel : Nat) → Draft → List Char → Option Entries
  | 0,     _, _ => none
  | n + 1, d, s =>
    match skipAll s with
    | []       => some d.root
    | '[' :: s => do
      let (d, s) ← readHeader d s
      readLines n d s
    | s        => do
      let ((path, key, v), s) ← readPair (readValue depthLimit) s
      let s ← afterLine? s
      readLines n { d with root := ← d.root.insertBelow d.header path key v } s

/-- The root table of a text, which may begin with a byte order mark. -/
def parse? (text : String) : Option Entries :=
  let s := match text.toList with
    | '\uFEFF' :: s => s
    | s             => s
  readLines (s.length + 1) ⟨[], []⟩ s

end StagedTransfer.Toml
