import Mathlib.Algebra.BigOperators.Group.List.Basic
import Mathlib.Algebra.GroupWithZero.Nat
import Mathlib.Tactic.Lemma
import StagedTransfer.Parts.Reader

/-!
# The parts of a file as slices

A reader that has not failed stands at the end of the part it has read last. Part for part it yields
the slices of the file, which put together are the file again.
-/

namespace StagedTransfer

/-! ### Slices -/

/-- How many bytes the part after the first `k` parts holds. -/
def sliceLength (fileSize partSize k : Nat) : Nat :=
  min (fileSize - k * partSize) partSize

/-- What the part after the first `k` parts holds. -/
def slice (contents : Bytes) (partSize k : Nat) : Bytes :=
  (contents.drop (k * partSize)).take partSize

lemma take_sliceLength (contents : Bytes) (partSize k : Nat) :
    (contents.drop (k * partSize)).take (sliceLength contents.length partSize k) =
      slice contents partSize k := by
  rw [slice, sliceLength, List.take_eq_take_iff, List.length_drop]
  omega

lemma sum_sliceLength (fileSize partSize n : Nat) :
    ((List.range n).map (sliceLength fileSize partSize)).sum = min fileSize (n * partSize) := by
  induction n with
  | zero => simp
  | succ n ih =>
    rw [List.range_succ, List.map_append, List.sum_append, ih, List.map_singleton,
      List.sum_singleton, sliceLength, Nat.add_mul]
    omega

lemma flatten_slice (contents : Bytes) (partSize n : Nat) :
    ((List.range n).map (slice contents partSize)).flatten = contents.take (n * partSize) := by
  induction n with
  | zero => simp
  | succ n ih =>
    rw [List.range_succ, List.map_append, List.flatten_append, ih, List.map_singleton,
      List.flatten_singleton, slice, Nat.add_mul, Nat.one_mul, List.take_add]

/-! ### The number of parts -/

section

variable {fileSize partSize : Nat} (hp : 0 < partSize)

include hp

/-- There is a part after the first `k` just if they do not hold the whole file. -/
lemma lt_partCount_iff {k : Nat} : k < partCount fileSize partSize ↔ k * partSize < fileSize := by
  rw [partCount, if_neg (by omega), Nat.lt_div_iff_mul_lt hp]
  omega

lemma le_partCount_mul : fileSize ≤ partCount fileSize partSize * partSize :=
  Nat.le_of_not_lt fun h => Nat.lt_irrefl _ ((lt_partCount_iff hp).2 h)

/-- The parts of a file are as long together as the file. -/
theorem sum_sliceLength_partCount :
    ((List.range (partCount fileSize partSize)).map (sliceLength fileSize partSize)).sum =
      fileSize := by
  rw [sum_sliceLength, Nat.min_eq_left (le_partCount_mul hp)]

/-- The parts of a file put together are the file. -/
theorem flatten_slice_partCount (contents : Bytes) :
    ((List.range (partCount contents.length partSize)).map (slice contents partSize)).flatten =
      contents := by
  rw [flatten_slice, List.take_of_length_le (le_partCount_mul hp)]

end

/-! ### The reader -/

namespace PartReader

/-- The reader after the first `k` parts. -/
def after (partSize fileSize k : Nat) : PartReader :=
  ⟨partSize, fileSize, min (k * partSize) fileSize, k + 1, min (k * partSize) fileSize⟩

lemma open_eq_ok {size : Except IoError Nat} {partSize : Nat} {r : PartReader}
    (h : PartReader.open size partSize = .ok r) :
    0 < partSize ∧ ∃ n, size = .ok n ∧ r = .after partSize n 0 := by
  unfold PartReader.open at h
  split at h
  · cases h
  · cases size with
    | error e => cases h
    | ok n =>
      cases h
      exact ⟨by omega, n, rfl, by simp [after]⟩

variable {partSize fileSize k : Nat} (hk : k * partSize < fileSize)

include hk

lemma after_offset : (after partSize fileSize k).offset = k * partSize :=
  Nat.min_eq_left (Nat.le_of_lt hk)

lemma after_position : (after partSize fileSize k).position = k * partSize :=
  Nat.min_eq_left (Nat.le_of_lt hk)

lemma after_due : (after partSize fileSize k).due = sliceLength fileSize partSize k := by
  rw [due, remaining, after_offset hk]
  rfl

lemma after_remaining_ne_zero : (after partSize fileSize k).remaining ≠ 0 := by
  rw [remaining, after_offset hk]
  exact Nat.sub_ne_zero_of_lt hk

/-- What a reader yields of a file that holds enough bytes. -/
lemma next_after {contents : Bytes}
    (full : ((contents.drop (k * partSize)).take (sliceLength fileSize partSize k)).length =
      sliceLength fileSize partSize k) :
    (after partSize fileSize k).next (.ok contents) =
      (.ok (some ⟨k + 1, k * partSize,
        (contents.drop (k * partSize)).take (sliceLength fileSize partSize k)⟩),
        after partSize fileSize (k + 1)) := by
  have offset : k * partSize + sliceLength fileSize partSize k =
      min ((k + 1) * partSize) fileSize := by
    rw [sliceLength, Nat.add_mul]
    omega
  rw [next, if_neg (after_remaining_ne_zero hk)]
  simp only [after_position hk, after_due hk, full, Nat.lt_irrefl, if_false, after_offset hk,
    offset]
  rfl

/-- A file that has not become shorter holds enough bytes. -/
lemma length_slice_of_le {contents : Bytes} (hc : fileSize ≤ contents.length) :
    ((contents.drop (k * partSize)).take (sliceLength fileSize partSize k)).length =
      sliceLength fileSize partSize k := by
  rw [List.length_take, List.length_drop, sliceLength]
  omega

/-- A reader yields the next part or nothing. -/
lemma of_next_after {file : Except IoError Bytes} {part : Option Part} {r : PartReader}
    (h : (after partSize fileSize k).next file = (.ok part, r)) :
    r = after partSize fileSize (k + 1) ∧ ∃ contents, file = .ok contents ∧
      ((contents.drop (k * partSize)).take (sliceLength fileSize partSize k)).length =
        sliceLength fileSize partSize k ∧
      part = some ⟨k + 1, k * partSize,
        (contents.drop (k * partSize)).take (sliceLength fileSize partSize k)⟩ := by
  cases file with
  | error e => simp [next, after_remaining_ne_zero hk] at h
  | ok contents =>
    have full : ((contents.drop (k * partSize)).take (sliceLength fileSize partSize k)).length =
        sliceLength fileSize partSize k := by
      by_contra hlt
      have short : ((contents.drop (k * partSize)).take (sliceLength fileSize partSize k)).length <
          sliceLength fileSize partSize k := by
        rw [List.length_take] at hlt ⊢
        omega
      rw [next, if_neg (after_remaining_ne_zero hk)] at h
      simp only [after_position hk, after_due hk, short, if_true] at h
      cases h
    rw [next_after hk full] at h
    obtain ⟨hpart, rfl⟩ := Prod.mk.inj h
    exact ⟨rfl, contents, rfl, full, (Except.ok.inj hpart).symm⟩

end PartReader

end StagedTransfer
