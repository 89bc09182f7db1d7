import StagedTransfer.Text.Utf8

/-!
# Local files

The local side of a transfer: a tree of files and folders, the paths that lead through it, and the
errors that its operations answer with. An entry stands at the names of the folders around it and its
own; the folder that holds all others has no name.
-/

namespace StagedTransfer

inductive IoError
  | noEntry
  | notFolder
  | isFolder
  | nameTooLong
  /-- A path holds the character that ends all paths. -/
  | nulInPath
  /-- The file ends before the bytes asked for. -/
  | earlyEnd
  | notUtf8
  | other (text : String)
  deriving DecidableEq, Repr

def IoError.text : IoError → String
  | noEntry      => "No such file or directory (os error 2)"
  | notFolder    => "Not a directory (os error 20)"
  | isFolder     => "Is a directory (os error 21)"
  | nameTooLong  => "File name too long (os error 36)"
  | nulInPath    => "file name contained an unexpected NUL byte"
  | earlyEnd     => "early eof"
  | notUtf8      => "stream did not contain valid UTF-8"
  | other t      => t

inductive Disk.Entry
  | file (content : Bytes)
  | folder
  deriving DecidableEq

/-- The entries by where they stand, in the order in which they came to be. -/
structure Disk where
  entries : List (List String × Disk.Entry)

namespace Disk

def empty : Disk := ⟨[]⟩

def find? (d : Disk) (names : List String) : Option Entry :=
  if names.isEmpty then some .folder
  else (d.entries.find? (·.1 = names)).map (·.2)

def put (d : Disk) (names : List String) (n : Entry) : Disk :=
  if d.entries.any (·.1 = names) then
    ⟨d.entries.map fun e => if e.1 = names then (names, n) else e⟩
  else ⟨d.entries ++ [(names, n)]⟩

/-! ### Paths -/

def maxPath : Nat := 4095

def maxName : Nat := 255

/-- One step of a path: an empty one and a dot stay in the folder, two dots leave it. -/
def step (here : List String) (s : String) : List String :=
  if s = "" ∨ s = "." then here
  else if s = ".." then here.dropLast
  else here ++ [s]

/-- Where a path leads if there are folders on all of its way. -/
def place (path : String) : List String :=
  (path.splitOn "/").foldl step []

/-- The steps of a path, if it can be one. -/
def steps (path : String) : Except IoError (List String) :=
  if path.contains '\x00' then .error .nulInPath
  else if path.utf8ByteSize > maxPath then .error .nameTooLong
  else if path = "" then .error .noEntry
  else .ok (path.splitOn "/")

/-- Where the steps lead from the given names, and what stands there. A step is taken from a folder
only, even if it stays there. -/
def walk (d : Disk) : (here steps : List String) → Except IoError (List String × Entry)
  | here, []      => match d.find? here with
    | some n => .ok (here, n)
    | none   => .error .noEntry
  | here, s :: ss => match d.find? here with
    | some .folder   =>
      if s.utf8ByteSize > maxName then .error .nameTooLong else d.walk (step here s) ss
    | some (.file _) => .error .notFolder
    | none           => .error .noEntry

def entry (d : Disk) (path : String) : Except IoError Entry := do
  return (← d.walk [] (← steps path)).2

/-! ### Operations -/

def folderSize : Nat := 4096

def Entry.size : Entry → Nat
  | .file content => content.length
  | .folder       => folderSize

def size (d : Disk) (path : String) : Except IoError Nat :=
  (d.entry path).map Entry.size

def content (d : Disk) (path : String) : Except IoError Bytes := do
  match ← d.entry path with
  | .file content => .ok content
  | .folder       => .error .isFolder

def textOf (content : Bytes) : Except IoError String :=
  match Utf8.decode? content with
  | some s => .ok s
  | none   => .error .notUtf8

/-- The disk with folders on all the way of a path where nothing has stood. -/
def withFolder (d : Disk) (path : String) : Disk :=
  (List.range ((place path).length + 1)).foldl (fun d n =>
    let here := (place path).take n
    if (d.find? here).isSome then d else d.put here .folder) d

/-- The disk without what a path leads to and all below it. -/
def without (d : Disk) (path : String) : Disk :=
  ⟨d.entries.filter fun e => !(place path).isPrefixOf e.1⟩

/-- Why no file can be created by steps that end with a slash. The steps before it are given, the
last one first. -/
def slashError (d : Disk) (before : List String) : IoError :=
  match d.walk [] ((before.dropWhile (· = "")).drop 1).reverse with
  | .ok (_, .folder) => .isFolder
  | .ok (_, .file _) => .notFolder
  | .error e         => e

/-- The disk after a file is created at a path, or emptied, and filled with a content. -/
def write (d : Disk) (path : String) (content : Bytes) : Except IoError Disk := do
  match (← steps path).reverse with
  | []             => .error .noEntry
  | name :: before =>
    -- a slash at the end asks for a folder
    if name = "" then .error (d.slashError before)
    else match ← d.walk [] before.reverse with
    | (_, .file _)    => .error .notFolder
    | (here, .folder) =>
      if name.utf8ByteSize > maxName then .error .nameTooLong
      else if d.find? (step here name) = some .folder then .error .isFolder
      else .ok (d.put (step here name) (.file content))

/-- The content cut off at a length, or filled up to it with zeros. -/
def resized (content : Bytes) (length : Nat) : Bytes :=
  content.take length ++ List.replicate (length - content.length) 0

end Disk

end StagedTransfer
