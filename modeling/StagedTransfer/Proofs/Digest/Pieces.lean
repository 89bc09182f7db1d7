import Mathlib.Tactic.Lemma
import StagedTransfer.Digest.Sha256

/-!
# Digests of messages in pieces

A hasher that has seen some bytes carries what their full blocks amount to and the rest of them, so
that it does not matter where the pieces of a message begin. The digest text of a file is that of
its content, however its reads divide it.
-/

namespace StagedTransfer

/-! ### Hexadecimal text -/

namespace Hex

/-- The digits that are written for bytes. -/
def IsLower (c : Char) : Prop :=
  '0' ≤ c ∧ c ≤ '9' ∨ 'a' ≤ c ∧ c ≤ 'f'

instance : DecidablePred IsLower := fun _ => inferInstanceAs (Decidable (_ ∨ _))

lemma isLower_digit : ∀ n < 16, IsLower (digit n) ∧ digitValue? (digit n) = some n := by
  decide

lemma ofByte_eq (b : UInt8) : ∃ high < 16, ∃ low < 16, ofByte b = [digit high, digit low] ∧
    UInt8.ofNat (high * 16 + low) = b := by
  have bound := b.toNat_lt
  refine ⟨b.toNat / 16, by omega, b.toNat % 16, by omega, rfl, ?_⟩
  rw [Nat.mul_comm, Nat.div_add_mod, UInt8.ofNat_toNat]

lemma parse?_flatMap (bytes : Bytes) : parse? (bytes.flatMap ofByte) = some bytes := by
  induction bytes with
  | nil => rfl
  | cons b bytes ih =>
    obtain ⟨high, hhigh, low, hlow, written, whole⟩ := ofByte_eq b
    rw [List.flatMap_cons, written, List.cons_append, List.cons_append, List.nil_append, parse?,
      (isLower_digit high hhigh).2, (isLower_digit low hlow).2, ih]
    exact congrArg (fun b => some (b :: bytes)) whole

/-- What bytes are written as is read back. -/
theorem parse?_ofBytes (bytes : Bytes) : parse? (ofBytes bytes).toList = some bytes := by
  rw [ofBytes, String.toList_ofList, parse?_flatMap]

/-- Different bytes are written differently. -/
theorem ofBytes_inj {bytes others : Bytes} : ofBytes bytes = ofBytes others ↔ bytes = others := by
  refine ⟨fun same => ?_, congrArg ofBytes⟩
  have read := parse?_ofBytes bytes
  rw [same, parse?_ofBytes] at read
  exact (Option.some.inj read).symm

lemma isLower_of_mem {bytes : Bytes} {c : Char} (hc : c ∈ (ofBytes bytes).toList) : IsLower c := by
  rw [ofBytes, String.toList_ofList] at hc
  obtain ⟨b, -, hc⟩ := List.mem_flatMap.1 hc
  obtain ⟨high, hhigh, low, hlow, written, -⟩ := ofByte_eq b
  rw [written] at hc
  rcases List.mem_cons.1 hc with rfl | hc
  · exact (isLower_digit high hhigh).1
  · obtain rfl := List.mem_singleton.1 hc
    exact (isLower_digit low hlow).1

lemma length_ofBytes (bytes : Bytes) : (ofBytes bytes).toList.length = 2 * bytes.length := by
  rw [ofBytes, String.toList_ofList]
  induction bytes with
  | nil => rfl
  | cons b bytes ih =>
    rw [List.flatMap_cons, List.length_append, ih, List.length_cons]
    exact (Nat.add_comm 2 _).trans (Nat.mul_succ 2 _).symm

end Hex

namespace Sha256

/-! ### Blocks -/

/-- The words after some bytes do not depend on where these are divided, if what fills no block is
put before what follows. -/
theorem absorbBlocks_append (s : Chain) (bytes rest : Bytes) :
    absorbBlocks s (bytes ++ rest) =
      absorbBlocks (absorbBlocks s bytes).1 ((absorbBlocks s bytes).2 ++ rest) := by
  -- On the blocks of the first bytes: a full one is the first block of all bytes as well.
  induction s, bytes using absorbBlocks.induct with
  | case1 s bytes block full ih =>
    have enough : 64 ≤ bytes.length := by
      have := full
      simp only [block, List.length_take] at this
      omega
    have same : (bytes ++ rest).take 64 = block := List.take_append_of_le_length enough
    have first : absorbBlocks s bytes = absorbBlocks (compress s block) (bytes.drop 64) := by
      rw [absorbBlocks, dif_pos full]
    rw [first, ← ih, absorbBlocks, dif_pos (by rw [same]; exact full), same,
      List.drop_append_of_le_length enough]
  | case2 s bytes block short =>
    have first : absorbBlocks s bytes = (s, bytes) := by
      rw [absorbBlocks, dif_neg short]
    rw [first]

/-! ### Hashers -/

/-- A hasher has seen some bytes. -/
structure Hasher.Saw (h : Hasher) (seen : Bytes) : Prop where
  blocks : (h.chain, h.pending) = absorbBlocks .initial seen
  size   : h.size = seen.length

namespace Hasher

lemma Saw.empty : Saw .empty [] := by
  refine ⟨?_, rfl⟩
  rw [absorbBlocks, dif_neg (by decide)]
  rfl

variable {h : Hasher} {seen : Bytes}

lemma Saw.update (saw : h.Saw seen) (piece : Bytes) : (h.update piece).Saw (seen ++ piece) := by
  refine ⟨?_, ?_⟩
  · rw [absorbBlocks_append, ← saw.blocks]
    rfl
  · rw [Hasher.update, saw.size, List.length_append]

lemma Saw.finish (saw : h.Saw seen) : h.finish = digest seen := by
  rw [Hasher.finish, digest, absorbBlocks_append .initial seen, ← saw.blocks, saw.size]

end Hasher

/-! ### Reads -/

/-- A read delivers something, and no more than the buffer holds. -/
def IsRead (delivered : Bytes) : Prop :=
  delivered ≠ [] ∧ delivered.length ≤ pieceSize

/-- What was read last stands at the start of the buffer. -/
lemma refill_of_le {buffer delivered : Bytes} (fits : delivered.length ≤ buffer.length) :
    (refill buffer delivered).2 = delivered.length ∧
      (refill buffer delivered).1.take delivered.length = delivered ∧
      (refill buffer delivered).1.length = buffer.length := by
  simp only [refill, Nat.min_eq_left fits, List.take_length, true_and]
  refine ⟨List.take_left' rfl, ?_⟩
  rw [List.length_append, List.length_drop, Nat.add_sub_cancel' fits]

/-- After all reads the hasher has seen all that they delivered. -/
lemma Hasher.Saw.readAll {reads : List Bytes} (small : ∀ delivered ∈ reads, IsRead delivered)
    {h : Hasher} {seen buffer : Bytes} (saw : h.Saw seen) (size : buffer.length = pieceSize) :
    (h.readAll buffer reads).Saw (seen ++ reads.flatten) := by
  induction reads generalizing h seen buffer with
  | nil => simpa [Hasher.readAll] using saw
  | cons delivered reads ih =>
    obtain ⟨some', fits⟩ := small delivered List.mem_cons_self
    obtain ⟨count, new, length⟩ := refill_of_le (size ▸ fits)
    have goesOn : delivered.length ≠ 0 := fun none' => some' (List.eq_nil_of_length_eq_zero none')
    have first : h.readAll buffer (delivered :: reads) =
        (h.update delivered).readAll (refill buffer delivered).1 reads := by
      simp only [Hasher.readAll, count, if_neg goesOn, new]
    rw [first, List.flatten_cons, ← List.append_assoc]
    exact ih (fun piece mem => small piece (List.mem_cons_of_mem _ mem)) (saw.update delivered)
      (length.trans size)

lemma checksumOfPieces_flatten {pieces : List Bytes} (small : ∀ piece ∈ pieces, IsRead piece) :
    checksumOfPieces pieces = checksum pieces.flatten := by
  have saw := Hasher.Saw.empty.readAll small (List.length_replicate (n := pieceSize) (a := 0))
  rw [checksumOfPieces, saw.finish, List.nil_append, checksum]

/-! ### Files -/

lemma flatten_pieces {size : Nat} (hs : 0 < size) (content : Bytes) :
    (pieces size content).flatten = content ∧
      ∀ piece ∈ pieces size content, piece ≠ [] ∧ piece.length ≤ size := by
  induction content using pieces.induct size with
  | case1 content ended =>
    obtain rfl : content = [] := ended.resolve_right (by omega)
    rw [pieces, dif_pos (.inl rfl)]
    simp
  | case2 content goesOn ih =>
    obtain ⟨whole, small⟩ := ih
    rw [pieces, dif_neg goesOn]
    refine ⟨?_, fun piece mem => ?_⟩
    · rw [List.flatten_cons, whole, List.take_append_drop]
    · rcases List.mem_cons.1 mem with rfl | mem
      · refine ⟨fun none' => goesOn (.inl ?_), List.length_take_le _ _⟩
        have := congrArg List.length none'
        rw [List.length_take, List.length_nil] at this
        exact List.eq_nil_of_length_eq_zero (by omega)
      · exact small piece mem

/-- The digest text of a file is that of its content. -/
theorem fileChecksum_eq (content : Bytes) : fileChecksum content = checksum content := by
  obtain ⟨whole, small⟩ := flatten_pieces (show 0 < pieceSize by decide) content
  rw [fileChecksum, checksumOfPieces_flatten small, whole]

lemma length_digest (message : Bytes) : (digest message).length = 32 := by
  simp [digest, Chain.toBytes, wordBytes]

theorem checksum_inj {message other : Bytes} :
    checksum message = checksum other ↔ digest message = digest other :=
  Hex.ofBytes_inj

/-- The digest text of a file is that of its content, however its reads divide it, and consists of
the sixty-four lower-case digits of the digest. -/
theorem checksumOfPieces_eq_checksum {content : Bytes} {pieces : List Bytes}
    (whole : pieces.flatten = content)
    (small : ∀ piece ∈ pieces, piece ≠ [] ∧ piece.length ≤ pieceSize) :
    checksumOfPieces pieces = checksum content ∧
      (checksum content).toList.length = 64 ∧ (∀ c ∈ (checksum content).toList, Hex.IsLower c) ∧
      Hex.parse? (checksum content).toList = some (digest content) := by
  refine ⟨?_, ?_, fun c hc => Hex.isLower_of_mem hc, Hex.parse?_ofBytes _⟩
  · rw [checksumOfPieces_flatten small, whole]
  · rw [checksum, Hex.length_ofBytes, length_digest]

/-- The pieces begin and end within blocks, and the second read leaves most of the first in the
buffer. -/
theorem checksumOfPieces_eq_checksum_straddling :
    checksumOfPieces [List.replicate 63 1, [2], List.replicate 100 3, [4, 5]] =
      checksum (List.replicate 63 1 ++ 2 :: (List.replicate 100 3 ++ [4, 5])) :=
  (checksumOfPieces_eq_checksum (by simp) (by simp [pieceSize])).1

end Sha256

end StagedTransfer
