import StagedTransfer.Http.Url

/-!
# Requests and responses
-/

namespace StagedTransfer.Http

inductive Method
  | get
  | post
  | put
  | delete
  deriving DecidableEq, Repr

def Method.name : Method → String
  | get    => "GET"
  | post   => "POST"
  | put    => "PUT"
  | delete => "DELETE"

/-! ### Requests -/

/-- A file that is sent as the only part of a form. -/
structure FilePart where
  field   : String
  name    : String
  content : Bytes
  deriving DecidableEq, Repr

inductive Body
  | empty
  /-- Bytes of a kind, which may be left open. -/
  | content (kind : Option String) (bytes : Bytes)
  | file (part : FilePart)
  deriving DecidableEq, Repr

structure Request where
  method        : Method
  url           : Url
  authorization : Option String
  body          : Body
  deriving DecidableEq, Repr

namespace FilePart

/-- A character of a file name between quotes. -/
def quoteChar (c : Char) : List Char :=
  if c = '"' ∨ c = '\\' ∨ c = '\r' ∨ c = '\n' then ['\\', c] else [c]

def headers (p : FilePart) : List (String × String) :=
  [("Content-Disposition", "form-data; name=\"" ++ p.field ++ "\"; filename=\""
      ++ String.ofList (p.name.toList.flatMap quoteChar) ++ "\""),
    ("Content-Type", "application/octet-stream")]

end FilePart

def Body.kind? : Body → Option String
  | empty         => none
  | content k _   => k
  | file _        => some "multipart/form-data"

namespace Request

def headers (r : Request) : List (String × String) :=
  ("accept", "*/*")
    :: (r.authorization.map fun a => ("authorization", a)).toList
    ++ (r.body.kind?.map fun k => ("content-type", k)).toList

/-- A byte may stand in the value of a header field. -/
def isFieldByte (b : UInt8) : Bool :=
  b = 0x09 || (0x20 ≤ b && b ≠ 0x7F)

def isFieldValue (s : String) : Bool :=
  (Utf8.encode s).all isFieldByte

end Request

/-! ### Responses -/

structure Response where
  status  : Nat
  /-- The header fields; their names are in lower case. -/
  headers : List (String × Bytes)
  /-- As much of the body as has come. -/
  body    : Bytes
  /-- The body has come to its end. -/
  whole   : Bool
  deriving DecidableEq, Repr

inductive Outcome
  | answered (r : Response)
  | lost (reason : String)
  deriving DecidableEq, Repr

namespace Response

def isSuccess (r : Response) : Bool :=
  200 ≤ r.status && r.status < 300

/-- What is said of a body that has not come to its end. -/
def brokenOff : String := "error decoding response body"

def bytes (r : Response) : Except String Bytes :=
  if r.whole then .ok r.body else .error brokenOff

/-- The text of a body that reports an error. One that has broken off reports nothing. -/
def report (r : Response) : String :=
  if r.whole then Utf8.decodeLossy r.body else ""

/-- The text of a header field, provided that it is visible. -/
def header? (r : Response) (name : String) : Option String := do
  let value ← r.headers.lookup name
  if value.all fun b => b = 0x09 || (0x20 ≤ b && b < 0x7F) then
    return String.ofList (value.map fun b => Char.ofNat b.toNat)
  else none

end Response

end StagedTransfer.Http
