import StagedTransfer.Http.Message

/-!
# Requests and responses as bytes

What goes over a connection that serves one request and is closed after its response. A body comes to
its end where the header says so, in pieces or at once, or else where the connection ends.
-/

namespace StagedTransfer.Http

def lineEnd : Bytes := [0x0D, 0x0A]

def textLine (s : String) : Bytes :=
  Utf8.encode s ++ lineEnd

def fieldLine (f : String × String) : Bytes :=
  textLine (f.1 ++ ": " ++ f.2)

/-! ### Requests -/

/-- A file as the only part of a form. The boundary must not occur in it. -/
def FilePart.bytes (p : FilePart) (boundary : String) : Bytes :=
  textLine ("--" ++ boundary) ++ p.headers.flatMap fieldLine ++ lineEnd ++ p.content ++ lineEnd
    ++ textLine ("--" ++ boundary ++ "--")

def Body.bytes (boundary : String) : Body → Bytes
  | empty       => []
  | content _ b => b
  | file p      => p.bytes boundary

/-- The host, and the socket if it is not the one that is meant anyway. -/
def Url.authority (u : Url) : String :=
  String.ofList u.host ++ if u.socket = u.scheme.socket then "" else ":" ++ toString u.socket

/-- The length is told unless there is no body at all. -/
def Body.lengthFields (boundary : String) (b : Body) : List (String × String) :=
  if b = .empty then [] else [("content-length", toString (b.bytes boundary).length)]

/-- The kind of a form with a file names the boundary. -/
def Body.withBoundary (boundary : String) (b : Body) (f : String × String) : String × String :=
  match b with
  | file _ => if f.1 = "content-type" then (f.1, f.2 ++ "; boundary=" ++ boundary) else f
  | _      => f

def Request.bytes (r : Request) (boundary : String) : Bytes :=
  textLine (r.method.name ++ " " ++ r.url.target ++ " HTTP/1.1")
    ++ (("host", r.url.authority) :: ("connection", "close")
      :: r.headers.map (r.body.withBoundary boundary)
      ++ r.body.lengthFields boundary).flatMap fieldLine
    ++ lineEnd ++ r.body.bytes boundary

/-! ### Responses -/

/-- The lines up to an empty one, and what follows it. -/
def headLines (current : Bytes) : Bytes → Option (List Bytes × Bytes)
  | 0x0D :: 0x0A :: s =>
    if current = [] then some ([], s)
    else (headLines [] s).map fun (lines, rest) => (current.reverse :: lines, rest)
  | b :: s            => headLines (b :: current) s
  | []                => none

def isBlankByte (b : UInt8) : Bool :=
  b = 0x20 || b = 0x09

def trimBytes (b : Bytes) : Bytes :=
  ((b.dropWhile isBlankByte).reverse.dropWhile isBlankByte).reverse

/-- The bytes as characters of the same numbers, letters in lower case. -/
def lowerText (b : Bytes) : String :=
  String.ofList (b.map fun b => (Char.ofNat b.toNat).toLower)

def fieldOf? (l : Bytes) : Option (String × Bytes) :=
  match l.dropWhile (· ≠ 0x3A) with
  | []     => none
  | _ :: v => some (lowerText (l.takeWhile (· ≠ 0x3A)), trimBytes v)

def decimal? (b : Bytes) : Option Nat :=
  if b ≠ [] ∧ b.all (fun b => 0x30 ≤ b && b ≤ 0x39) then
    some (b.foldl (fun n b => 10 * n + (b.toNat - 0x30)) 0)
  else none

def statusOf? (l : Bytes) : Option Nat :=
  if (lowerText l).startsWith "http/1." then
    decimal? (((l.dropWhile (· ≠ 0x20)).drop 1).takeWhile (· ≠ 0x20))
  else none

def sizeOf? (l : Bytes) : Option Nat :=
  let digits := (l.takeWhile fun b => b ≠ 0x3B ∧ !isBlankByte b).map fun b => Char.ofNat b.toNat
  match digits.mapM Hex.digitValue? with
  | some []      => none
  | some (v :: vs) => some ((v :: vs).foldl (fun n v => 16 * n + v) 0)
  | none         => none

/-- A body that comes in pieces, and whether its last piece has come. Each piece takes a byte at least,
which bounds their number. -/
def pieces : (fuel : Nat) → Bytes → Bytes × Bool
  | 0,     _ => ([], false)
  | n + 1, s =>
    match sizeOf? (s.takeWhile (· ≠ 0x0D)), s.dropWhile (· ≠ 0x0D) with
    | some 0,    _ :: _ :: _ => ([], true)
    | some size, _ :: _ :: s =>
      if s.length < size then (s, false)
      else
        let (rest, whole) := pieces n ((s.drop size).drop 2)
        (s.take size ++ rest, whole)
    | _,         _           => ([], false)

/-- As much of a body as has come, and whether it has come to its end. -/
def bodyOf (status : Nat) (headers : List (String × Bytes)) (s : Bytes) : Bytes × Bool :=
  if status = 204 ∨ status = 304 then ([], true)
  else if (headers.lookup "transfer-encoding").map lowerText = some "chunked" then
    pieces s.length s
  else match (headers.lookup "content-length").bind decimal? with
    | some n => (s.take n, n ≤ s.length)
    | none   => (s, true)

/-- The response in all that has come over a connection. Responses that only inform are skipped; each
takes a byte at least, which bounds their number. -/
def Response.ofBytesUpTo : (fuel : Nat) → Bytes → Option Response
  | 0,     _ => none
  | n + 1, s =>
    match headLines [] s with
    | some (first :: fields, rest) => do
      let status ← statusOf? first
      if status < 200 then ofBytesUpTo n rest
      else
        let headers ← fields.mapM fieldOf?
        let (body, whole) := bodyOf status headers rest
        return ⟨status, headers, body, whole⟩
    | _ => none

def Response.ofBytes? (s : Bytes) : Option Response :=
  ofBytesUpTo s.length s

end StagedTransfer.Http
