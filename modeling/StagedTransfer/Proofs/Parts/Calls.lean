import Mathlib.Data.List.Induction
import Mathlib.Tactic.Lemma
import StagedTransfer.Proofs.Parts

/-!
# One part after another

What a reader yields in several calls, between which the file may have been cut off or have grown. A
read that does not find enough bytes takes those it finds; from then on the reader reads behind the
offset of its next part, by all that such reads have taken.
-/

namespace StagedTransfer.PartReader

/-- The reader after a call for each of the contents that the file has in turn. -/
def afterCalls (r : PartReader) (files : List Bytes) : PartReader :=
  files.foldl (fun r file => (r.next (.ok file)).2) r

/-- What the calls yield. -/
def yields (r : PartReader) : List Bytes → List (Except ChunkError (Option Part))
  | []            => []
  | file :: files => (r.next (.ok file)).1 :: (r.next (.ok file)).2.yields files

/-- The part that a call yields, if it yields one. -/
def part? : Except ChunkError (Option Part) → Option Part
  | .ok part => part
  | .error _ => none

/-- The parts that the calls yield. -/
def parts (r : PartReader) (files : List Bytes) : List Part :=
  (r.yields files).filterMap part?

/-- The bytes that a call takes that fails. -/
def takenInVain (r : PartReader) (file : Bytes) : Nat :=
  match (r.next (.ok file)).1 with
  | .ok _    => 0
  | .error _ => file.length - r.position

/-- The bytes that calls take that fail. -/
def lost (r : PartReader) : List Bytes → Nat
  | []            => 0
  | file :: files => r.takenInVain file + (r.next (.ok file)).2.lost files

/-- The reader after the first `k` parts when reads that failed have taken `lost` bytes. -/
def strayed (partSize fileSize k lost : Nat) : PartReader :=
  { after partSize fileSize k with position := min (k * partSize) fileSize + lost }

variable {partSize fileSize k lost : Nat}

/-! ### One call -/

/-- A call yields something and brings the reader to a number of parts and of bytes lost. -/
inductive Call (partSize fileSize k lost : Nat) (file : Bytes) :
    Except ChunkError (Option Part) → Nat → Nat → Prop
  | ends (past : fileSize ≤ k * partSize) : Call partSize fileSize k lost file (.ok none) k lost
  | yields (within : k * partSize < fileSize)
    (full : k * partSize + lost + sliceLength fileSize partSize k ≤ file.length) :
    Call partSize fileSize k lost file
      (.ok (some ⟨k + 1, k * partSize,
        (file.drop (k * partSize + lost)).take (sliceLength fileSize partSize k)⟩)) (k + 1) lost
  | fails (within : k * partSize < fileSize)
    (short : file.length < k * partSize + lost + sliceLength fileSize partSize k) :
    Call partSize fileSize k lost file (.error (.io .earlyEnd)) k
      (lost + (file.length - (k * partSize + lost)))

lemma strayed_position (within : k * partSize < fileSize) :
    (strayed partSize fileSize k lost).position = k * partSize + lost :=
  congrArg (· + lost) (after_position within)

lemma sliceLength_pos (hp : 0 < partSize) (within : k * partSize < fileSize) :
    0 < sliceLength fileSize partSize k :=
  Nat.lt_min.2 ⟨Nat.sub_pos_of_lt within, hp⟩

/-- What a call yields and where it leaves the reader. -/
lemma call (hp : 0 < partSize) (fileSize k lost : Nat) (file : Bytes) :
    ∃ k' lost', ((strayed partSize fileSize k lost).next (.ok file)).2 =
        strayed partSize fileSize k' lost' ∧
      Call partSize fileSize k lost file
        ((strayed partSize fileSize k lost).next (.ok file)).1 k' lost' := by
  -- A part is due and comes or falls short, or the reader is at its end.
  rcases Nat.lt_or_ge (k * partSize) fileSize with within | past
  · have remains : (strayed partSize fileSize k lost).remaining ≠ 0 :=
      after_remaining_ne_zero within
    have due : (strayed partSize fileSize k lost).due = sliceLength fileSize partSize k :=
      after_due within
    have offset : (strayed partSize fileSize k lost).offset = k * partSize := after_offset within
    have positive := sliceLength_pos hp within
    rw [next, if_neg remains]
    simp only [due, strayed_position within, offset, List.length_take, List.length_drop]
    split
    · next short =>
      refine ⟨k, _, ?_, .fails within (by omega)⟩
      have found : min (sliceLength fileSize partSize k) (file.length - (k * partSize + lost)) =
          file.length - (k * partSize + lost) := by omega
      simp [strayed, after, found, Nat.min_eq_left (Nat.le_of_lt within), Nat.add_assoc]
    · next full =>
      refine ⟨k + 1, lost, ?_, .yields within (by omega)⟩
      have advanced : k * partSize + sliceLength fileSize partSize k =
          min ((k + 1) * partSize) fileSize := by
        rw [sliceLength, Nat.add_mul]
        omega
      simp [strayed, after, ← advanced, Nat.add_right_comm]
  · have ended : (strayed partSize fileSize k lost).remaining = 0 :=
      Nat.sub_eq_zero_of_le (Nat.le_min.2 ⟨past, Nat.le_refl _⟩)
    rw [next, if_pos ended]
    exact ⟨k, lost, rfl, .ends past⟩

/-! ### Several calls -/

lemma afterCalls_append (r : PartReader) (files files' : List Bytes) :
    r.afterCalls (files ++ files') = (r.afterCalls files).afterCalls files' :=
  List.foldl_append

lemma yields_append (r : PartReader) (files files' : List Bytes) :
    r.yields (files ++ files') = r.yields files ++ (r.afterCalls files).yields files' := by
  induction files generalizing r with
  | nil => rfl
  | cons file files ih => simp [yields, ih, afterCalls]

lemma afterCalls_concat (r : PartReader) (files : List Bytes) (file : Bytes) :
    r.afterCalls (files ++ [file]) = ((r.afterCalls files).next (.ok file)).2 :=
  afterCalls_append r files [file]

lemma parts_concat (r : PartReader) (files : List Bytes) (file : Bytes) :
    r.parts (files ++ [file]) =
      r.parts files ++ (part? ((r.afterCalls files).next (.ok file)).1).toList := by
  rw [parts, yields_append, List.filterMap_append]
  cases last : part? ((r.afterCalls files).next (.ok file)).1 <;> simp [yields, last, parts]

lemma lost_concat (r : PartReader) (files : List Bytes) (file : Bytes) :
    r.lost (files ++ [file]) = r.lost files + (r.afterCalls files).takenInVain file := by
  induction files generalizing r with
  | nil => simp [PartReader.lost, afterCalls]
  | cons file files ih => simp [PartReader.lost, ih, afterCalls, Nat.add_assoc]

lemma takenInVain_eq {r : PartReader} {file : Bytes} {e : ChunkError}
    (failed : (r.next (.ok file)).1 = .error e) :
    r.takenInVain file = file.length - r.position := by
  rw [takenInVain, failed]

/-- After several calls a reader stands behind the parts they yielded and the bytes they took in
vain. -/
lemma afterCalls_strayed (hp : 0 < partSize) (fileSize : Nat) (files : List Bytes) :
    (after partSize fileSize 0).afterCalls files =
      strayed partSize fileSize ((after partSize fileSize 0).parts files).length
        ((after partSize fileSize 0).lost files) := by
  induction files using List.reverseRecOn with
  | nil => rfl
  | append_singleton files file ih =>
    rw [afterCalls_concat, parts_concat, lost_concat, ih, List.length_append]
    generalize ((after partSize fileSize 0).parts files).length = k
    generalize (after partSize fileSize 0).lost files = lost
    obtain ⟨k', lost', reader, call⟩ := call hp fileSize k lost file
    rw [reader, takenInVain]
    generalize ((strayed partSize fileSize k lost).next (.ok file)).1 = a at call
    cases call with
    | ends _ => rfl
    | yields _ _ => rfl
    | fails within _ => rw [strayed_position within]; rfl

end StagedTransfer.PartReader
