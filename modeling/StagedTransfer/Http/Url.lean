import StagedTransfer.Encoding.Form

/-!
# Addresses

An address of the web is read leniently: blank characters around it and line breaks within it are
dropped, slashes may lean either way, and characters that have no place in an address are
percent-encoded. The segments `.` and `..` are resolved, however their dots are spelled. What follows
a number sign is not part of a request and is dropped, and so is a user that is named before the host.
-/

namespace StagedTransfer.Http

inductive Scheme
  | http
  | https
  deriving DecidableEq, Repr

/-- The socket that is meant when none is named. -/
def Scheme.socket : Scheme → Nat
  | http  => 80
  | https => 443

structure Url where
  scheme : Scheme
  host   : List Char
  socket : Nat
  /-- The segments of the path, as they are sent. -/
  path   : List (List Char)
  query  : Option (List Char)
  deriving DecidableEq, Repr

namespace Url

/-! ### Characters -/

/-- The characters that spell themselves in no part of an address. -/
def isForeign (c : Char) : Bool :=
  c.toNat ≤ 0x20 || 0x7F ≤ c.toNat || c == '"' || c == '<' || c == '>' || c == '#'

def isPathChar (c : Char) : Bool :=
  !(isForeign c || c == '?' || c == '\x60' || c == '\x7b' || c == '\x7d')

def isQueryChar (c : Char) : Bool :=
  !(isForeign c || c == '\'')

/-- The characters that no host name has. -/
def isForbidden (c : Char) : Bool :=
  isForeign c && c.toNat < 0x80 || "/:?@[\\]^|%".toList.contains c

/-- The characters that a numeric host has between its brackets. -/
def isBracketed (c : Char) : Bool :=
  c.isDigit || ('a' ≤ c && c ≤ 'f') || c == ':' || c == '.'

def isSlash (c : Char) : Bool :=
  c == '/' || c == '\\'

/-! ### Paths -/

/-- A segment with the dots that it spells by their numbers. -/
def plainDots : List Char → List Char
  | '%' :: '2' :: 'e' :: cs => '.' :: plainDots cs
  | '%' :: '2' :: 'E' :: cs => '.' :: plainDots cs
  | c :: cs                 => c :: plainDots cs
  | []                      => []

/-- The segment means the place where it stands. -/
def isHere (segment : List Char) : Bool :=
  plainDots segment = ['.']

/-- The segment means the place above. -/
def isAbove (segment : List Char) : Bool :=
  plainDots segment = ['.', '.']

/-- The segments of a path with `.` and `..` resolved; `before` are the resolved ones. -/
def resolve (before : List (List Char)) : List (List Char) → List (List Char)
  | []      => before
  | [s]     =>
    if isAbove s then before.dropLast ++ [[]]
    else if isHere s then before ++ [[]]
    else before ++ [s]
  | s :: ss =>
    if isAbove s then resolve before.dropLast ss
    else if isHere s then resolve before ss
    else resolve (before ++ [s]) ss

/-- The segments of a written path, the slash at its start apart. -/
def pathOf (cs : List Char) : List (List Char) :=
  resolve [] ((Text.pieces '/' (cs.map fun c => if c = '\\' then '/' else c)).map
    (Percent.encode isPathChar))

/-! ### Reading -/

/-- A text without control characters and spaces at its ends and without line breaks and tabs. -/
def tidy (cs : List Char) : List Char :=
  let blank (c : Char) := c.toNat ≤ 0x20
  ((cs.dropWhile blank).reverse.dropWhile blank).reverse.filter fun c =>
    c ≠ '\t' ∧ c ≠ '\n' ∧ c ≠ '\r'

def schemeOf? (cs : List Char) : Option Scheme :=
  match String.ofList (cs.map Char.toLower) with
  | "http"  => some .http
  | "https" => some .https
  | _       => none

def socketOf? (s : Scheme) (cs : List Char) : Option Nat :=
  if cs = [] then some s.socket
  else if cs.all Char.isDigit then
    let n := cs.foldl (fun n c => 10 * n + (c.toNat - '0'.toNat)) 0
    if n < Nat.pow 2 16 then some n else none
  else none

def authority? (s : Scheme) (cs : List Char) : Option (List Char × Nat) := do
  -- a user stands before the last at sign
  let cs := (cs.reverse.takeWhile (· ≠ '@')).reverse.map Char.toLower
  match cs with
  | '[' :: cs =>
    let host := cs.takeWhile (· ≠ ']')
    if host = [] ∨ !host.all isBracketed then none
    else match cs.dropWhile (· ≠ ']') with
      | [']']            => return ('[' :: host ++ [']'], s.socket)
      | ']' :: ':' :: cs => return ('[' :: host ++ [']'], ← socketOf? s cs)
      | _                => none
  | _         =>
    let host := cs.takeWhile (· ≠ ':')
    if host = [] ∨ host.any isForbidden then none
    else return (host, ← socketOf? s ((cs.dropWhile (· ≠ ':')).drop 1))

def parse? (s : String) : Option Url := do
  let cs := tidy s.toList
  let scheme ← schemeOf? (cs.takeWhile (· ≠ ':'))
  let cs := ((cs.dropWhile (· ≠ ':')).drop 1).dropWhile isSlash
  let ends (c : Char) := isSlash c || c == '?' || c == '#'
  let (host, socket) ← authority? scheme (cs.takeWhile (!ends ·))
  let cs := (cs.dropWhile (!ends ·)).takeWhile (· ≠ '#')
  let query := match cs.dropWhile (· ≠ '?') with
    | []     => none
    | _ :: q => some (Percent.encode isQueryChar q)
  return ⟨scheme, host, socket, pathOf ((cs.takeWhile (· ≠ '?')).drop 1), query⟩

/-! ### Writing -/

def pathText (u : Url) : List Char :=
  u.path.flatMap fun s => '/' :: s

/-- What the request line names. -/
def target (u : Url) : String :=
  String.ofList (u.pathText ++ match u.query with
    | some q => '?' :: q
    | none   => [])

/-- The address with the pairs of a form added to its query. An empty query is left out. -/
def withPairs (u : Url) (pairs : List (String × String)) : Url :=
  let added := Form.encode pairs
  let query := match u.query with
    | some q => if q ≠ [] ∧ added ≠ [] then q ++ '&' :: added else q ++ added
    | none   => added
  { u with query := if query = [] then none else some query }

end Url

end StagedTransfer.Http
