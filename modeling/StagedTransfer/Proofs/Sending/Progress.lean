import StagedTransfer.Proofs.Sending.Safety

/-!
# Sendings that nothing disturbs

If the transfer is not cancelled, the file stays long enough and only possible moves are chosen, a
sending comes to its end within its bound. Every part is then sent once and answered for once.
-/

namespace StagedTransfer

namespace Sending

/-- A choice that changes something. -/
def State.Allows (s : State) : Choice → Prop
  | .proceed    => s.canProceed = true
  | .begin n    => (s.put? (.begin n)).isSome
  | .finish n o => (s.answer? (.finish n o)).isSome

/-- How many moves a part still needs. -/
def Held.weight (h : Held) : Nat :=
  if h.begun then 1 else 2

/-- How many moves a sending still needs at most. -/
def State.weight (s : State) : Nat :=
  3 * s.pending.length + (s.held.map Held.weight).sum + 1

lemma Held.weight_begin_le (n : Nat) (h : Held) : (Held.begin n h).weight ≤ h.weight := by
  unfold Held.begin
  split
  · simp only [weight, if_true]
    split <;> omega
  · exact Nat.le_refl _

lemma sum_weight_begin_le (n : Nat) (l : List Held) :
    ((l.map (Held.begin n)).map Held.weight).sum ≤ (l.map Held.weight).sum := by
  induction l with
  | nil => simp
  | cons h l ih =>
    have head := h.weight_begin_le n
    simp only [List.map_cons, List.sum_cons]
    omega

lemma sum_weight_begin_lt {l : List Held} {h : Held} (hl : h ∈ l) (hb : h.begun = false) :
    ((l.map (Held.begin h.number)).map Held.weight).sum < (l.map Held.weight).sum := by
  induction l with
  | nil => simp at hl
  | cons k l ih =>
    simp only [List.map_cons, List.sum_cons]
    rcases List.mem_cons.1 hl with rfl | hl
    · have head : (Held.begin h.number h).weight < h.weight := by
        simp [Held.begin, Held.weight, hb]
      have tail := sum_weight_begin_le h.number l
      omega
    · have head := k.weight_begin_le h.number
      have tail := ih hl
      omega

lemma sum_weight_filter_le (n : Nat) (l : List Held) :
    ((l.filter fun k => k.number ≠ n).map Held.weight).sum ≤ (l.map Held.weight).sum := by
  induction l with
  | nil => simp
  | cons k l ih =>
    rw [List.filter_cons]
    split <;> simp only [List.map_cons, List.sum_cons] <;> omega

lemma sum_weight_filter_lt {l : List Held} {h : Held} (hl : h ∈ l) :
    ((l.filter fun k => k.number ≠ h.number).map Held.weight).sum < (l.map Held.weight).sum := by
  induction l with
  | nil => simp at hl
  | cons k l ih =>
    rcases List.mem_cons.1 hl with rfl | hl
    · rw [List.filter_cons_of_neg (by simp), List.map_cons, List.sum_cons]
      have tail := sum_weight_filter_le h.number l
      have head : 0 < h.weight := by
        unfold Held.weight
        split <;> omega
      omega
    · have tail := ih hl
      rw [List.filter_cons]
      split <;> simp only [List.map_cons, List.sum_cons] <;> omega

/-- A choice that changes something brings a sending closer to its end. -/
lemma weight_lt {file : String} {s t : State} {c : Choice} {notes : Log} {m : Move}
    {e : Option Event} (amounts : Amounts file c notes m) (allows : s.Allows c)
    (step : s.Step m t e) (ht : t.result = none) :
    t.weight < s.weight := by
  -- A part weighs less when it is taken, when it is begun and when it is answered.
  cases step with
  | waiting _ wait =>
    cases amounts
    simp [State.Allows, wait] at allows
  | @taken content part reader url urls pending room read =>
    simp only [State.weight, State.take, pending, List.map_append, List.sum_append,
      List.length_cons, List.map_cons, List.map_nil, List.sum_singleton, Held.weight,
      Bool.false_eq_true, if_false]
    omega
  | begun n =>
    cases amounts
    obtain ⟨h, hh⟩ := Option.isSome_iff_exists.1 allows
    obtain ⟨mem, begun⟩ := State.mem_of_put? hh
    obtain rfl : h.number = n := by
      have found := List.find?_some hh
      simp_all
    have lighter := sum_weight_begin_lt mem begun
    simp only [State.weight]
    omega
  | unexpected n o none' =>
    cases amounts
    simp [State.Allows, none'] at allows
  | answered _ mem number _ _ =>
    subst number
    have lighter := sum_weight_filter_lt mem
    simp only [State.weight, State.settle]
    omega
  | cancelled _ => simp [State.stop] at ht
  | finished _ _ _ => simp at ht
  | unread _ _ => simp [State.stop] at ht

/-- A sending that chooses what changes something ends within its bound. -/
theorem Course.isSome_result {file : String} {fuel : Nat} {s t : State} {log : Log}
    (h : Course file fuel s log t) (allows : ∀ s c, .chosen s c ∈ log → s.Allows c)
    (bound : s.result = none → s.weight ≤ fuel) : t.result.isSome := by
  induction h with
  | spent s =>
    cases hs : s.result with
    | some r => rfl
    | none =>
      have := bound hs
      simp [State.weight] at this
  | ended hr => simp [hr]
  | @move n s t c notes log m open' amounts rest ih =>
    refine ih (fun s' c' hc => allows s' c' (by simp [hc])) fun hu => ?_
    have lighter := weight_lt amounts (allows s c (by simp)) (State.step_of_open open' m) hu
    have := bound open'
    omega

end Sending

/-! ### Logs that nothing disturbs -/

instance (s : Sending.State) (c : Sending.Choice) : Decidable (s.Allows c) := by
  cases c <;> exact inferInstanceAs (Decidable (_ = true))

/-- An answer that does not disturb the sending of a file of a size: the transfer is not cancelled,
the file is as large as it was and holds enough bytes, and what is chosen changes something. -/
def Note.Calm (file : String) (fileSize : Nat) : Note → Prop
  | .asked cancelled         => cancelled = false
  | .acted (.size name) x    => name = file → x = .ok fileSize
  | .acted (.content name) x =>
    name = file → ∃ contents : Bytes, x = .ok contents ∧ fileSize ≤ contents.length
  | .chosen s c              => s.Allows c
  | _                        => True

instance (x : Except IoError Bytes) (n : Nat) :
    Decidable (∃ contents : Bytes, x = .ok contents ∧ n ≤ contents.length) :=
  match x with
  | .ok contents => decidable_of_iff (n ≤ contents.length) (by simp)
  | .error e     => .isFalse (by simp)

instance (file : String) (fileSize : Nat) : (note : Note) → Decidable (note.Calm file fileSize)
  | .asked _              => inferInstanceAs (Decidable (_ = false))
  | .acted (.size _) x    =>
    inferInstanceAs (Decidable (_ → (x : Except IoError Nat) = .ok fileSize))
  | .acted (.content _) x =>
    inferInstanceAs (Decidable (_ →
      ∃ contents : Bytes, (x : Except IoError Bytes) = .ok contents ∧ _))
  | .acted (.emit _) _    => inferInstanceAs (Decidable True)
  | .acted (.enter _) _   => inferInstanceAs (Decidable True)
  | .awaited _ _          => inferInstanceAs (Decidable True)
  | .chosen s c           => inferInstanceAs (Decidable (s.Allows c))

/-- Nothing in a log disturbs the sending of a file of a size. -/
def Log.Undisturbed (file : String) (fileSize : Nat) (log : Log) : Prop :=
  ∀ note ∈ log, note.Calm file fileSize

instance (file : String) (fileSize : Nat) (log : Log) : Decidable (log.Undisturbed file fileSize) :=
  inferInstanceAs (Decidable (∀ note ∈ log, _))

namespace Log.Undisturbed

variable {file : String} {fileSize : Nat} {log part : Log}

lemma subset (h : log.Undisturbed file fileSize) (sub : part ⊆ log) :
    part.Undisturbed file fileSize :=
  fun note hn => h note (sub hn)

lemma not_cancelled (h : log.Undisturbed file fileSize) : .asked true ∉ log := by
  intro hn
  cases h _ hn

lemma size (h : log.Undisturbed file fileSize) {x : Except IoError Nat}
    (hx : .acted (.size file) x ∈ log) : x = .ok fileSize :=
  h _ hx rfl

lemma content (h : log.Undisturbed file fileSize) {x : Except IoError Bytes}
    (hx : .acted (.content file) x ∈ log) :
    ∃ contents : Bytes, x = .ok contents ∧ fileSize ≤ contents.length :=
  h _ hx rfl

end Log.Undisturbed

lemma PartReader.next_after_ne_error {partSize fileSize k : Nat} {contents : Bytes} {e : ChunkError}
    {r : PartReader} (hc : fileSize ≤ contents.length) :
    (after partSize fileSize k).next (.ok contents) ≠ (.error e, r) := by
  intro h
  by_cases hk : k * partSize < fileSize
  · rw [next_after hk (length_slice_of_le hk hc)] at h
    cases h
  · rw [next, if_pos] at h
    · cases h
    · rw [remaining, after]
      simp only [Nat.min_eq_right (Nat.le_of_not_lt hk), Nat.sub_self]

namespace Sending

/-- An undisturbed sending sends each part once and yields what comes of the answers. -/
theorem Course.yields {file : String} {partSize fileSize slots : Nat} {urls : List String}
    {log : Log} {t : State} (hp : 0 < partSize) (count : urls.length = partCount fileSize partSize)
    (course : Course file (State.start slots (.after partSize fileSize 0) urls).moveBound
      (.start slots (.after partSize fileSize 0) urls) log t)
    (h : log.Undisturbed file fileSize) :
    t.result = some (resultOf (Log.answers log)) ∧
      ((Log.answers log).map Settled.address).Perm (numbered urls) ∧
      ((Log.puts log).map Held.address).Perm (numbered urls) := by
  have ended : t.result.isSome := course.isSome_result (fun s c hc => h _ hc) fun _ => by
    simp [State.weight, State.moveBound, State.start]
  cases course.ends_reads hp count with
  | still _ open' => simp [open'] at ended
  | cancelled _ _ _ => exact absurd (by simp [turn]) h.not_cancelled
  | @unread log s content e reader reads _ failed =>
    obtain ⟨contents, rfl, long⟩ := h.content (x := content) (by simp [turn])
    rw [reads.reader] at failed
    exact absurd failed (PartReader.next_after_ne_error long)
  | @finished log s content reads _ pending held =>
    obtain ⟨parts, puts⟩ := reads.complete pending held
    rw [Log.answers_append, Log.answers_turn, List.append_nil, reads.answers, Log.puts_append,
      Log.puts_turn, List.append_nil]
    exact ⟨rfl, reads.answers ▸ parts, puts⟩

end Sending

end StagedTransfer
