import StagedTransfer.Parts.Error

/-!
# Parts of a file

A file is sent in parts of equal size and a shorter last one. The parts carry no position, so they
are read strictly in order. The size of the file is taken when it is opened; a file that has become
shorter since then fails at the part it no longer holds.
-/

namespace StagedTransfer

/-- The number of parts: the quotient rounded up. -/
def partCount (fileSize partSize : Nat) : Nat :=
  if partSize = 0 then 0 else (fileSize + (partSize - 1)) / partSize

structure Part where
  number : Nat
  offset : Nat
  data   : Bytes
  deriving DecidableEq

/-- How far a file has been read. -/
structure PartReader where
  partSize   : Nat
  fileSize   : Nat
  offset     : Nat
  nextNumber : Nat
  /-- Where the next read begins. It is the offset unless a read has failed. -/
  position   : Nat
  deriving DecidableEq

namespace PartReader

/-- A reader of a file of which only the size is known, or why there is none. -/
def «open» (size : Except IoError Nat) (partSize : Nat) : Except ChunkError PartReader :=
  if partSize = 0 then .error .zeroPartSize
  else match size with
    | .ok n    => .ok ⟨partSize, n, 0, 1, 0⟩
    | .error e => .error (.io e)

/-- The bytes that no part has held yet. -/
def remaining (r : PartReader) : Nat :=
  r.fileSize - r.offset

/-- The bytes that the next part holds. -/
def due (r : PartReader) : Nat :=
  min r.remaining r.partSize

/-- The next part of a file whose content is now `file`; there is none after the last. A read that
does not find enough bytes takes those it finds. -/
def next (r : PartReader) (file : Except IoError Bytes) :
    Except ChunkError (Option Part) × PartReader :=
  if r.remaining = 0 then (.ok none, r)
  else match file with
    | .error e     => (.error (.io e), r)
    | .ok contents =>
      let data := (contents.drop r.position).take r.due
      if data.length < r.due then
        -- what has been found is consumed, but belongs to no part
        (.error (.io .earlyEnd), { r with position := r.position + data.length })
      else
        (.ok (some ⟨r.nextNumber, r.offset, data⟩),
          { r with
            offset     := r.offset + r.due
            nextNumber := r.nextNumber + 1
            position   := r.position + r.due })

/-- At most `fuel` parts in a row of a file that does not change, and the error that ends them. -/
def readUpTo : (fuel : Nat) → PartReader → Except IoError Bytes →
    List Part × Option ChunkError × PartReader
  | 0,     r, _    => ([], none, r)
  | n + 1, r, file =>
    match r.next file with
    | (.ok none, r)        => ([], none, r)
    | (.error e, r)        => ([], some e, r)
    | (.ok (some part), r) =>
      let (parts, e, r) := readUpTo n r file
      (part :: parts, e, r)

/-- All parts that remain of a file that does not change. -/
def readAll (r : PartReader) (file : Except IoError Bytes) :
    List Part × Option ChunkError × PartReader :=
  readUpTo (r.remaining + 1) r file

end PartReader

end StagedTransfer
