import StagedTransfer.Proofs.Parts
import StagedTransfer.Proofs.Sending.History

/-!
# What the parts on their way hold

The reader has always read as many parts as have been taken. A part on its way holds the bytes at
its place in the file as it was when the part was read.
-/

namespace StagedTransfer.Sending

/-- A part holds the bytes at its place in a content that the file has had. -/
def Held.Holds (file : String) (partSize fileSize : Nat) (log : Log) (h : Held) : Prop :=
  ∃ contents : Bytes, .acted (.content file) (.ok contents) ∈ log ∧
    h.data = (contents.drop ((h.number - 1) * partSize)).take
      (sliceLength fileSize partSize (h.number - 1)) ∧
    h.data.length = sliceLength fileSize partSize (h.number - 1)

lemma Held.Holds.append {file : String} {partSize fileSize : Nat} {log : Log} {h : Held}
    (holds : h.Holds file partSize fileSize log) (notes : Log) :
    h.Holds file partSize fileSize (log ++ notes) := by
  obtain ⟨contents, read, data, length⟩ := holds
  exact ⟨contents, List.mem_append_left _ read, data, length⟩

lemma State.mem_of_put? {s : State} {c : Choice} {h : Held} (hp : s.put? c = some h) :
    h ∈ s.held ∧ h.begun = false := by
  cases c with
  | begin n =>
    have found := List.find?_some hp
    exact ⟨List.mem_of_find?_eq_some hp, by simp_all⟩
  | proceed => cases hp
  | finish => cases hp

/-- The reader and the parts are where a log says. -/
structure Reads (file : String) (partSize fileSize : Nat) (urls : List String) (log : Log)
    (s : State) : Prop extends Told urls log s where
  reader : s.reader = .after partSize fileSize s.count
  held   : ∀ h ∈ s.held, h.Holds file partSize fileSize log
  begun  : ∀ h ∈ Log.puts log, h.begun = false ∧ h.Holds file partSize fileSize log

namespace Reads

variable {file : String} {partSize fileSize : Nat} {urls : List String}

lemma start (file : String) (partSize fileSize slots : Nat) (urls : List String) :
    Reads file partSize fileSize urls [] (.start slots (.after partSize fileSize 0) urls) := by
  refine ⟨.start slots _ urls, ?_, by simp [State.start], by simp [Log.puts]⟩
  simp [State.start, State.count]

variable (hp : 0 < partSize) (count : urls.length = partCount fileSize partSize)

include hp count

/-- The next part begins within the file. -/
lemma next_lt {log : Log} {s : State} (h : Reads file partSize fileSize urls log s) {url : String}
    {rest : List String} (pending : s.pending = url :: rest) : s.count * partSize < fileSize := by
  rw [← lt_partCount_iff hp, ← count]
  exact (h.toBalanced.take_succ pending).1

lemma kept : Kept file (Reads file partSize fileSize urls) := by
  intro log notes s t c m e h open' amounts step ht
  have history := Told.kept file urls h.toTold open' amounts step ht
  have held : t.reader = .after partSize fileSize t.count ∧
      ∀ k ∈ t.held, k.Holds file partSize fileSize (log ++ .chosen s c :: (notes ++ told e)) := by
    -- Only a part that is taken moves the reader. Held parts stay, begin or leave.
    cases step with
    | waiting _ _ => exact ⟨h.reader, fun k hk => (h.held k hk).append _⟩
    | unexpected _ _ _ => exact ⟨h.reader, fun k hk => (h.held k hk).append _⟩
    | @taken content part reader url rest pending room read =>
      cases amounts
      obtain ⟨count', -⟩ := h.toBalanced.take reader part pending
      have within := h.next_lt hp count pending
      rw [h.reader] at read
      obtain ⟨rfl, contents, rfl, full, rfl⟩ := PartReader.of_next_after within read
      refine ⟨by rw [count']; rfl, fun k hk => ?_⟩
      rcases List.mem_append.1 hk with hk | hk
      · exact (h.held k hk).append _
      · obtain rfl := List.mem_singleton.1 hk
        exact ⟨contents, by simp, rfl, full⟩
    | begun n =>
      refine ⟨h.reader, fun k hk => ?_⟩
      obtain ⟨j, hj, rfl⟩ := List.mem_map.1 hk
      have holds := (h.held j hj).append (.chosen s c :: (notes ++ told none))
      unfold Held.begin
      split
      · exact holds
      · exact holds
    | answered _ _ _ _ _ =>
      exact ⟨h.reader, fun k hk => (h.held k (List.mem_of_mem_filter hk)).append _⟩
    | cancelled _ => simp [State.stop] at ht
    | finished _ _ _ => simp at ht
    | unread _ _ => simp [State.stop] at ht
  refine ⟨history, held.1, held.2, fun k hk => ?_⟩
  rw [Log.puts_append, amounts.puts, List.mem_append, Option.mem_toList] at hk
  rcases hk with hk | hk
  · exact ⟨(h.begun k hk).1, (h.begun k hk).2.append _⟩
  · obtain ⟨mem, begun⟩ := State.mem_of_put? hk
    exact ⟨begun, (h.held k mem).append _⟩

end Reads

end StagedTransfer.Sending
