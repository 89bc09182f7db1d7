import StagedTransfer.Disk

/-!
# Errors of files and their parts
-/

namespace StagedTransfer

/-- Why a file cannot be cut into parts, or its parts cannot be named. -/
inductive ChunkError
  | io (e : IoError)
  | zeroPartSize
  | missingPart (number : Nat)
  | invalidPath (what : String)
  deriving DecidableEq, Repr

def ChunkError.message : ChunkError → String
  | io e             => "I/O error: " ++ e.text
  | zeroPartSize     => "part size must be greater than zero"
  | missingPart n    => "part " ++ toString n ++ " missing from manifest"
  | invalidPath what => "invalid path: " ++ what

end StagedTransfer
