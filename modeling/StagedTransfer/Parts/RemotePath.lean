import StagedTransfer.Parts.Error
import StagedTransfer.Text.Pieces

/-!
# Remote paths

A remote file is named by an absolute path without relative components. Its directory and its name
are sent apart.
-/

namespace StagedTransfer.RemotePath

/-- The components of a path: what stands between its slashes, empty ones included. -/
def components (cs : List Char) : List (List Char) :=
  Text.pieces '/' cs

def lastName (cs : List Char) : List Char :=
  (cs.reverse.takeWhile (· ≠ '/')).reverse

def folder (cs : List Char) : List Char :=
  ((cs.reverse.dropWhile (· ≠ '/')).drop 1).reverse

def isRelative (component : List Char) : Bool :=
  component = ['.'] || component = ['.', '.']

/-- The directory and the name of a remote file. -/
def split (path : String) : Except ChunkError (String × String) :=
  let cs := path.toList
  if cs = [] then .error (.invalidPath "empty path")
  else if cs.head? ≠ some '/' then
    .error (.invalidPath ("remote path must be absolute: " ++ path))
  else if (components cs).any isRelative then
    .error (.invalidPath ("relative components not allowed: " ++ path))
  else if lastName cs = [] then .error (.invalidPath ("missing file name: " ++ path))
  else
    let dir := folder cs
    .ok (String.ofList (if dir = [] then ['/'] else dir), String.ofList (lastName cs))

end StagedTransfer.RemotePath
