import Mathlib.Algebra.Order.Floor.Div
import StagedTransfer.Proofs.Parts.Calls

/-!
# The partition of a file

Call after call, a reader of a file that does not change yields the slices of the file and after the
last of them nothing more. Neither the rounding up of their number nor the counting on of the reader
leaves the words of sixty-four bits. The main statement is `open_partitions`.
-/

namespace StagedTransfer

/-- A quotient of words, rounded up: one is added unless nothing remains. -/
def roundedUp (n d : UInt64) : UInt64 :=
  if n % d = 0 then n / d else n / d + 1

variable {fileSize partSize : Nat}

lemma partCount_eq_ceilDiv (hp : 0 < partSize) :
    partCount fileSize partSize = fileSize ⌈/⌉ partSize := by
  rw [partCount, if_neg (by omega), Nat.ceilDiv_eq_add_pred_div, Nat.add_sub_assoc hp]

lemma partCount_eq_div (hp : 0 < partSize) :
    partCount fileSize partSize =
      if fileSize % partSize = 0 then fileSize / partSize else fileSize / partSize + 1 := by
  have more : (partSize - 1) / partSize = 0 := Nat.div_eq_of_lt (by omega)
  have rest : (partSize - 1) % partSize = partSize - 1 := Nat.mod_eq_of_lt (by omega)
  rw [partCount, if_neg (by omega), Nat.add_div hp, more, rest]
  split <;> split <;> omega

/-- The rounding up does not leave the words. -/
lemma toNat_roundedUp {n d : UInt64} (hd : 0 < d.toNat) :
    (roundedUp n d).toNat = partCount n.toNat d.toNat := by
  rw [roundedUp, partCount_eq_div hd]
  have zero : n % d = 0 ↔ n.toNat % d.toNat = 0 := by
    rw [← UInt64.toNat_inj, UInt64.toNat_mod, UInt64.toNat_zero]
  simp only [zero]
  split
  · exact UInt64.toNat_div n d
  · next more =>
    have bound := n.toNat_lt
    -- What is divided without a remainder by one would have none.
    have large : 2 ≤ d.toNat := by
      by_contra small
      have one : d.toNat = 1 := by omega
      exact more (by rw [one, Nat.mod_one])
    have half : n.toNat / d.toNat ≤ n.toNat / 2 := Nat.div_le_div_left large (by omega)
    rw [UInt64.toNat_add, UInt64.toNat_div, UInt64.toNat_one, Nat.mod_eq_of_lt (by omega)]

lemma partCount_le (hp : 0 < partSize) : partCount fileSize partSize ≤ fileSize := by
  by_contra more
  have within := (lt_partCount_iff hp).1 (Nat.lt_of_not_le more)
  exact absurd (Nat.le_mul_of_pos_right fileSize hp) (Nat.not_le.2 within)

namespace PartReader

variable {contents : Bytes} {k : Nat}

/-- What a call yields that comes after `k` others. -/
def yieldAfter (contents : Bytes) (partSize k : Nat) : Except ChunkError (Option Part) :=
  .ok (if k < partCount contents.length partSize then
    some ⟨k + 1, k * partSize, slice contents partSize k⟩ else none)

/-- The reader after `n` calls goes on. -/
lemma next_contents (hp : 0 < partSize) (contents : Bytes) (n : Nat) :
    (after partSize contents.length (min n (partCount contents.length partSize))).next
        (.ok contents) =
      (yieldAfter contents partSize n,
        after partSize contents.length (min (n + 1) (partCount contents.length partSize))) := by
  rw [yieldAfter]
  by_cases more : n < partCount contents.length partSize
  · have within := (lt_partCount_iff hp).1 more
    rw [Nat.min_eq_left (Nat.le_of_lt more), Nat.min_eq_left more, if_pos more,
      next_after within (length_slice_of_le within (Nat.le_refl _)), take_sliceLength]
  · have past := Nat.le_of_not_lt more
    have ended : (after partSize contents.length
        (partCount contents.length partSize)).remaining = 0 :=
      Nat.sub_eq_zero_of_le (Nat.le_min.2 ⟨le_partCount_mul hp, Nat.le_refl _⟩)
    rw [Nat.min_eq_right past, Nat.min_eq_right (by omega), if_neg more, next, if_pos ended]

lemma afterCalls_replicate (hp : 0 < partSize) (contents : Bytes) (n : Nat) :
    (after partSize contents.length 0).afterCalls (.replicate n contents) =
      after partSize contents.length (min n (partCount contents.length partSize)) := by
  induction n with
  | zero => simp [afterCalls]
  | succ n ih => rw [List.replicate_succ', afterCalls_concat, ih, next_contents hp]

lemma yields_replicate (hp : 0 < partSize) (contents : Bytes) (n : Nat) :
    (after partSize contents.length 0).yields (.replicate n contents) =
      (List.range n).map (yieldAfter contents partSize) := by
  induction n with
  | zero => rfl
  | succ n ih =>
    rw [List.replicate_succ', yields_append, ih, List.range_succ, List.map_append,
      afterCalls_replicate hp, yields, next_contents hp]
    rfl

/-- The parts of several calls put together are what the file begins with. -/
lemma flatten_parts_replicate (hp : 0 < partSize) (contents : Bytes) (n : Nat) :
    (((after partSize contents.length 0).parts (.replicate n contents)).map (·.data)).flatten =
      contents.take (n * partSize) := by
  have data (k : Nat) : (((part? (yieldAfter contents partSize k)).toList.map (·.data)).flatten) =
      slice contents partSize k := by
    rw [yieldAfter]
    split
    · exact List.append_nil _
    · next past =>
      rw [lt_partCount_iff hp, Nat.not_lt] at past
      rw [slice, List.drop_of_length_le past, List.take_nil]
      rfl
  rw [← flatten_slice]
  induction n with
  | zero => rfl
  | succ n ih =>
    rw [List.replicate_succ', parts_concat, List.map_append, List.flatten_append, ih,
      afterCalls_replicate hp, next_contents hp, data, List.range_succ, List.map_append,
      List.flatten_append, List.map_singleton, List.flatten_singleton]

/-- What a reader comes to that reads a file of the content `contents` to its end and beyond. -/
structure Partitions (contents : Bytes) (partSize : Nat) (r : PartReader) : Prop where
  /-- The number of parts is the quotient rounded up, in words as well. -/
  count : partCount contents.length partSize = contents.length ⌈/⌉ partSize ∧
    (roundedUp (.ofNat contents.length) (.ofNat partSize)).toNat =
      partCount contents.length partSize
  /-- Each call yields the part that is next, with its number and its offset, and then nothing. -/
  yields : ∀ n, r.yields (.replicate n contents) = (List.range n).map (yieldAfter contents partSize)
  /-- All parts but the last are of full length. -/
  full : ∀ k, k + 1 < partCount contents.length partSize →
    (slice contents partSize k).length = partSize
  /-- The last holds what remains. -/
  last : ∀ k, k + 1 = partCount contents.length partSize →
    (slice contents partSize k).length = contents.length - k * partSize ∧
      1 ≤ (slice contents partSize k).length ∧ (slice contents partSize k).length ≤ partSize
  /-- The parts put together are the file. -/
  whole : ∀ n, partCount contents.length partSize ≤ n →
    ((r.parts (.replicate n contents)).map (·.data)).flatten = contents
  /-- The reader never stands behind the end of the file. -/
  within : ∀ n, (r.afterCalls (.replicate n contents)).fileSize = contents.length ∧
    (r.afterCalls (.replicate n contents)).offset ≤ contents.length ∧
    (r.afterCalls (.replicate n contents)).position =
      (r.afterCalls (.replicate n contents)).offset
  /-- What it counts on to is a word. -/
  words : ∀ n, (r.afterCalls (.replicate n contents)).offset +
      (r.afterCalls (.replicate n contents)).due < 2 ^ 64 ∧
    (r.afterCalls (.replicate n contents)).nextNumber + 1 < 2 ^ 64

/-- A file of any content is partitioned by the parts of any size that a reader yields. -/
theorem open_partitions (contents : Bytes) (partSize : Nat) (size : contents.length < 2 ^ 63)
    (positive : 0 < partSize) (word : partSize < 2 ^ 64) :
    ∃ r, PartReader.open (.ok contents.length) partSize = .ok r ∧
      Partitions contents partSize r := by
  refine ⟨after partSize contents.length 0, ?_, ?_⟩
  · rw [PartReader.open, if_neg (by omega), after]
    simp
  constructor
  case count =>
    have words := toNat_roundedUp (n := .ofNat contents.length) (d := .ofNat partSize)
    rw [UInt64.toNat_ofNat_of_lt' word,
      UInt64.toNat_ofNat_of_lt' (size.trans (by decide))] at words
    exact ⟨partCount_eq_ceilDiv positive, words positive⟩
  case yields => exact yields_replicate positive contents
  case full =>
    intro k more
    have within := (lt_partCount_iff positive).1 more
    rw [Nat.add_mul] at within
    rw [slice, List.length_take, List.length_drop]
    omega
  case last =>
    intro k last
    have within := (lt_partCount_iff positive).1 (Nat.lt_of_succ_le last.le)
    have all : contents.length ≤ partCount contents.length partSize * partSize :=
      le_partCount_mul positive
    rw [← last, Nat.add_mul] at all
    rw [slice, List.length_take, List.length_drop]
    omega
  case whole =>
    intro n all
    rw [flatten_parts_replicate positive, List.take_of_length_le]
    exact (le_partCount_mul positive).trans (Nat.mul_le_mul_right _ all)
  case within =>
    intro n
    rw [afterCalls_replicate positive]
    exact ⟨rfl, Nat.min_le_right _ _, rfl⟩
  case words =>
    intro n
    rw [afterCalls_replicate positive]
    -- Offsets stay within the file, and numbers within a count of parts that is at most its length.
    have count : partCount contents.length partSize ≤ contents.length := partCount_le positive
    generalize reached : min n (partCount contents.length partSize) = k
    constructor
    · have within : (after partSize contents.length k).offset ≤ contents.length :=
        Nat.min_le_right _ _
      have due : (after partSize contents.length k).due ≤
          contents.length - (after partSize contents.length k).offset := Nat.min_le_left _ _
      omega
    · change k + 1 + 1 < _
      omega

/-- Seven bytes are two parts of three bytes and one of one. -/
theorem open_partitions_sevenBytes :
    (∃ r, PartReader.open (.ok 7) 3 = .ok r ∧
      r.yields (.replicate 5 [1, 2, 3, 4, 5, 6, 7]) =
        [.ok (some ⟨1, 0, [1, 2, 3]⟩), .ok (some ⟨2, 3, [4, 5, 6]⟩), .ok (some ⟨3, 6, [7]⟩),
          .ok none, .ok none]) ∧
      partCount 7 3 = 3 := by
  obtain ⟨r, opened, parts⟩ :=
    open_partitions [1, 2, 3, 4, 5, 6, 7] 3 (by decide) (by decide) (by decide)
  refine ⟨⟨r, opened, (parts.yields 5).trans ?_⟩, by decide⟩
  rfl

end PartReader

end StagedTransfer
