import StagedTransfer.Data.OrderedMap
import StagedTransfer.Parts.Error
import StagedTransfer.Reply

/-!
# Completion manifests

A manifest lists the parts of an object in order, each with the tag that the store gave to it. It
is sent as an XML document, in which tags stand as they came but for the three characters that would
be taken for markup. The store reads the document back.
-/

namespace StagedTransfer

structure Manifest where
  parts : List (Nat × String)
  deriving DecidableEq, Repr

namespace Manifest

/-- The manifest of the parts from one to `count`; the first part without a tag is missing. -/
def ofEtags (etags : OrderedMap Nat String) (count : Nat) : Except ChunkError Manifest :=
  (go 1 count).map Manifest.mk
where
  /-- The `left` parts from `number` on. -/
  go (number : Nat) : (left : Nat) → Except ChunkError (List (Nat × String))
    | 0        => .ok []
    | left + 1 =>
      match etags.find? number with
      | none     => .error (.missingPart number)
      | some tag => (go (number + 1) left).map ((number, tag) :: ·)

/-- The most parts that a list has room for: each takes thirty-two bytes, and all of them together
less than half of what can be addressed. -/
def mostParts : Nat := Nat.pow 2 58 - 1

/-- The manifest of the parts from one to `count`. Room for all of them is made before any tag is
looked at. -/
def assemble (etags : OrderedMap Nat String) (count : Nat) : Reply ChunkError Manifest :=
  if mostParts < count then .overrun .parts else .answered (ofEtags etags count)

/-! ### Writing -/

def formatName : String := "http://s3.amazonaws.com/doc/2006-03-01/"

def escapeChar (c : Char) : List Char :=
  if c = '&' then ['&', 'a', 'm', 'p', ';']
  else if c = '<' then ['&', 'l', 't', ';']
  else if c = '>' then ['&', 'g', 't', ';']
  else [c]

def escape (cs : List Char) : List Char :=
  cs.flatMap escapeChar

def rootOpening : List Char :=
  ("<CompleteMultipartUpload xmlns=\"" ++ formatName ++ "\">").toList

def rootClosing : List Char :=
  "</CompleteMultipartUpload>".toList

def partOpening : List Char := "<Part><PartNumber>".toList

def tagOpening : List Char := "</PartNumber><ETag>".toList

def partClosing : List Char := "</ETag></Part>".toList

def partChars (part : Nat × String) : List Char :=
  partOpening ++ Nat.toDigits 10 part.1 ++ tagOpening ++ escape part.2.toList ++ partClosing

def chars (m : Manifest) : List Char :=
  rootOpening ++ m.parts.flatMap partChars ++ rootClosing

/-- The document of a manifest. -/
def toXml (m : Manifest) : String :=
  String.ofList m.chars

/-! ### Reading -/

/-- What follows a text that has to stand at the start. -/
def afterPrefix? : (expected s : List Char) → Option (List Char)
  | [],     s      => some s
  | _,      []     => none
  | c :: e, d :: s => if c = d then afterPrefix? e s else none

/-- What stands before the first occurrence of a mark and what follows it. -/
def cutAt? (mark : List Char) : List Char → Option (List Char × List Char)
  | []     => (afterPrefix? mark []).map ([], ·)
  | c :: s =>
    match afterPrefix? mark (c :: s) with
    | some rest => some ([], rest)
    | none      => (cutAt? mark s).map fun (before, rest) => (c :: before, rest)

/-- The text in which escapes are undone; a lone ampersand is refused. -/
def unescape? : List Char → Option (List Char)
  | []                                     => some []
  | '&' :: 'a' :: 'm' :: 'p' :: ';' :: s   => (unescape? s).map ('&' :: ·)
  | '&' :: 'l' :: 't' :: ';' :: s          => (unescape? s).map ('<' :: ·)
  | '&' :: 'g' :: 't' :: ';' :: s          => (unescape? s).map ('>' :: ·)
  | c :: s                                 => if c = '&' then none else (unescape? s).map (c :: ·)

def numberOf? (ds : List Char) : Option Nat :=
  if ds.isEmpty then none
  else ds.foldlM (fun n c => if c.isDigit then some (n * 10 + (c.toNat - '0'.toNat)) else none) 0

/-- At most `fuel` parts and the end of the document. -/
def readParts? : (fuel : Nat) → List Char → Option (List (Nat × String))
  | 0,     _ => none
  | n + 1, s =>
    match afterPrefix? rootClosing s with
    | some rest => if rest.isEmpty then some [] else none
    | none      => do
      let s ← afterPrefix? partOpening s
      let (number, s) ← cutAt? tagOpening s
      let (tag, s) ← cutAt? partClosing s
      return (← numberOf? number, String.ofList (← unescape? tag)) :: (← readParts? n s)

/-- The manifest that a document holds. -/
def ofXml? (xml : String) : Option Manifest := do
  let s ← afterPrefix? rootOpening xml.toList
  return ⟨← readParts? (s.length + 1) s⟩

end Manifest

end StagedTransfer
