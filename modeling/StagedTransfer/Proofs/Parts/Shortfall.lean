import StagedTransfer.Proofs.Parts.Calls

/-!
# Parts of a file that changes

A call that fails keeps the number and the offset of the part that is due, and the next call that
does not fail yields that part. It yields the bytes at that offset only if the calls that failed
have found nothing at all: what they have found they have taken, and the reader does not go back.
The main statement is `open_readsOn`.
-/

namespace StagedTransfer.PartReader

section

variable {partSize fileSize k lost k' lost' : Nat} {file : Bytes}
  {a : Except ChunkError (Option Part)} (h : Call partSize fileSize k lost file a k' lost')

include h

lemma Call.eq_none_iff : a = .ok none ↔ fileSize ≤ k * partSize := by
  cases h with
  | ends past => simpa using past
  | yields within _ => simpa using within
  | fails within _ => simpa using within

lemma Call.eq_error_iff {e : ChunkError} :
    a = .error e ↔ e = .io .earlyEnd ∧ k * partSize < fileSize ∧
      file.length < k * partSize + lost + sliceLength fileSize partSize k := by
  cases h with
  | ends past => simpa using fun _ within => absurd within (Nat.not_lt.2 past)
  | yields _ full => simpa using fun _ _ => full
  | fails within short =>
    rw [Except.error.injEq, eq_comm]
    exact (and_iff_left ⟨within, short⟩).symm

lemma Call.eq_some_iff (hp : 0 < partSize) {part : Part} :
    a = .ok (some part) ↔
      part.number = k + 1 ∧ part.offset = k * partSize ∧ part.offset < fileSize ∧
        part.data = (file.drop (part.offset + lost)).take part.data.length ∧
        part.data.length = sliceLength fileSize partSize k := by
  obtain ⟨number, offset, data⟩ := part
  dsimp only
  constructor
  · rintro rfl
    cases h with
    | yields within full =>
      have length : ((file.drop (k * partSize + lost)).take
          (sliceLength fileSize partSize k)).length = sliceLength fileSize partSize k := by
        rw [List.length_take, List.length_drop]
        omega
      exact ⟨rfl, rfl, within, by rw [length], length⟩
  · rintro ⟨rfl, rfl, within, same, length⟩
    rw [length] at same
    cases h with
    | ends past => omega
    | yields => rw [same]
    | fails _ short =>
      have fits := congrArg List.length same
      have positive := sliceLength_pos hp within
      rw [length, List.length_take, List.length_drop] at fits
      omega

end

/-- What the next call yields for a reader of a file that was `fileSize` bytes long, with the
content that the file has by then, after calls with the contents `files`. -/
structure ReadsOn (partSize fileSize : Nat) (r : PartReader) (files : List Bytes) (file : Bytes) :
    Prop where
  /-- There is no part any more once the parts hold as many bytes as the file had. -/
  ends : ((r.afterCalls files).next (.ok file)).1 = .ok none ↔
    fileSize ≤ (r.parts files).length * partSize
  /-- A part has the number and the offset that follow from the parts before it; its bytes are those
  behind its offset by all that calls that failed have taken. -/
  yields : ∀ part, ((r.afterCalls files).next (.ok file)).1 = .ok (some part) ↔
    part.number = (r.parts files).length + 1 ∧ part.offset = (r.parts files).length * partSize ∧
      part.offset < fileSize ∧
      part.data = (file.drop (part.offset + r.lost files)).take part.data.length ∧
      part.data.length = sliceLength fileSize partSize (r.parts files).length
  /-- As long as they have taken nothing, the bytes are those at the offset. -/
  own : ∀ part, ((r.afterCalls files).next (.ok file)).1 = .ok (some part) → r.lost files = 0 →
    part.data = (file.drop part.offset).take part.data.length
  /-- A call fails if the file is too short by now. -/
  fails : ∀ e, ((r.afterCalls files).next (.ok file)).1 = .error e ↔
    e = .io .earlyEnd ∧ (r.parts files).length * partSize < fileSize ∧
      file.length < (r.parts files).length * partSize + r.lost files +
        sliceLength fileSize partSize (r.parts files).length
  /-- Then the same part is due as before, and the bytes that were there are taken. -/
  again : ∀ e, ((r.afterCalls files).next (.ok file)).1 = .error e →
    r.parts (files ++ [file]) = r.parts files ∧
      r.lost (files ++ [file]) = r.lost files +
        (file.length - ((r.parts files).length * partSize + r.lost files))

/-- Whatever the file holds from call to call, the parts have their numbers and offsets, and their
bytes are behind these by all that calls that failed have taken. -/
theorem open_readsOn {partSize fileSize : Nat} {r : PartReader}
    (opened : PartReader.open (.ok fileSize) partSize = .ok r) (files : List Bytes) (file : Bytes) :
    ReadsOn partSize fileSize r files file := by
  obtain ⟨hp, _, same, rfl⟩ := open_eq_ok opened
  cases same
  have reader := afterCalls_strayed hp fileSize files
  obtain ⟨k', lost', -, call⟩ := call hp fileSize ((after partSize fileSize 0).parts files).length
    ((after partSize fileSize 0).lost files) file
  rw [← reader] at call
  constructor
  case ends => exact call.eq_none_iff
  case yields => exact fun part => call.eq_some_iff hp
  case own =>
    intro part yielded none'
    have data := ((call.eq_some_iff hp).1 yielded).2.2.2.1
    rwa [none'] at data
  case fails => exact fun e => call.eq_error_iff
  case again =>
    intro e failed
    have within := (call.eq_error_iff.1 failed).2.1
    rw [parts_concat, lost_concat, takenInVain_eq failed, failed, reader, strayed_position within]
    exact ⟨List.append_nil _, rfl⟩

/-- A file of ten bytes. -/
def tenBytes : Bytes := [1, 8, 15, 22, 29, 36, 43, 50, 57, 64]

/-- The file is cut off in the second part and filled up again with zeros. The call in between has
found two bytes of that part; the next one yields it as the second part, at its offset, with bytes
from two places further on. -/
theorem open_readsOn_regrown :
    PartReader.open (.ok 10) 4 = .ok (after 4 10 0) ∧
      (((after 4 10 0).afterCalls [tenBytes, tenBytes.take 6]).next
        (.ok (Disk.resized (tenBytes.take 6) 10))).1 = .ok (some ⟨2, 4, [0, 0, 0, 0]⟩) ∧
      ((Disk.resized (tenBytes.take 6) 10).drop 4).take 4 = [29, 36, 0, 0] := by
  have opened : PartReader.open (.ok 10) 4 = .ok (after 4 10 0) := rfl
  have reads := open_readsOn opened [tenBytes, tenBytes.take 6] (Disk.resized (tenBytes.take 6) 10)
  refine ⟨opened, (reads.yields ⟨2, 4, [0, 0, 0, 0]⟩).2 ?_, by decide⟩
  decide

end StagedTransfer.PartReader
