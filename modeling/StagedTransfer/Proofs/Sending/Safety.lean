import StagedTransfer.Proofs.Sending.Reading
import StagedTransfer.Proofs.Sending.Verdict

/-!
# What holds of every sending

Whatever comes next, no part goes on its way twice, and tags are yielded only once each part has
been answered for by its tag.
-/

namespace StagedTransfer.Sending

/-- Before its last turn, which sends nothing, a sending has kept the property. -/
lemma Ends.before {file : String} {I : Log → State → Prop} {log : Log} {t : State}
    (h : Ends file I log t) : ∃ before s rest, I before s ∧ log = before ++ rest ∧
      Log.puts rest = [] ∧ Log.answers rest = [] := by
  cases h with
  | still inv _ => exact ⟨log, t, [], inv, (List.append_nil log).symm, rfl, rfl⟩
  | cancelled content inv _ => exact ⟨_, _, _, inv, rfl, rfl, rfl⟩
  | unread inv _ _ => exact ⟨_, _, _, inv, rfl, rfl, rfl⟩
  | finished content inv _ _ _ => exact ⟨_, _, _, inv, rfl, rfl, rfl⟩

/-- A question of a sending. -/
inductive Asks (file : String) : Note → Prop
  | asked (cancelled : Bool) : Asks file (.asked cancelled)
  | content (x : Except IoError Bytes) : Asks file (.acted (.content file) x)
  | emit (e : Event) : Asks file (.acted (.emit e) ())
  | chosen (s : State) (c : Choice) : Asks file (.chosen s c)

/-- A sending asks for nothing else. -/
lemma Course.asks {file : String} {fuel : Nat} {s t : State} {log : Log}
    (h : Course file fuel s log t) {note : Note} (hn : note ∈ log) : Asks file note := by
  induction h with
  | spent => simp at hn
  | ended => simp at hn
  | @move n s t c notes log m open' amounts rest ih =>
    simp only [List.mem_cons, List.mem_append] at hn
    rcases hn with rfl | (hn | hn) | hn
    · exact .chosen s c
    · cases amounts with
      | proceed cancelled content =>
        simp only [List.mem_cons, List.not_mem_nil, or_false] at hn
        rcases hn with rfl | rfl
        · exact .asked cancelled
        · exact .content content
      | begin => simp at hn
      | finish => simp at hn
    · cases he : (s.step m).2 with
      | none => simp [told, he] at hn
      | some e =>
        simp only [told, he, Option.map_some, Option.toList_some, List.mem_singleton] at hn
        exact hn ▸ .emit e
    · exact ih hn

section

variable {file : String} {partSize fileSize slots fuel : Nat} {urls : List String} {log : Log}
  {t : State} (hp : 0 < partSize) (count : urls.length = partCount fileSize partSize)
  (course : Course file fuel (.start slots (.after partSize fileSize 0) urls) log t)

include hp count course

lemma Course.ends_reads : Ends file (Reads file partSize fileSize urls) log t :=
  course.ends (Reads.kept hp count) rfl (Reads.start file partSize fileSize slots urls)

/-- No part goes on its way twice. -/
theorem Course.subperm_puts : ((Log.puts log).map Held.address).Subperm (numbered urls) := by
  obtain ⟨before, s, rest, reads, rfl, puts, -⟩ := (course.ends_reads hp count).before
  rw [Log.puts_append, puts, List.append_nil]
  exact reads.subperm_puts

/-- A part on its way holds the bytes at its place. -/
theorem Course.holds {h : Held} (hh : h ∈ Log.puts log) :
    h.begun = false ∧ h.Holds file partSize fileSize log := by
  obtain ⟨before, s, rest, reads, rfl, puts, -⟩ := (course.ends_reads hp count).before
  rw [Log.puts_append, puts, List.append_nil] at hh
  exact ⟨(reads.begun h hh).1, (reads.begun h hh).2.append rest⟩

/-- Tags are yielded only once each part has been answered for by its tag. -/
theorem Course.of_ok {etags : OrderedMap Nat String} (ok : t.result = some (.ok etags)) :
    etags = tags (Log.answers log) ∧
      (∃ tag : Nat → String, (Log.answers log).Perm
        ((numbered urls).map (Settled.of fun n => .ok (tag n)))) ∧
      ((Log.puts log).map Held.address).Perm (numbered urls) := by
  cases course.ends_reads hp count with
  | still _ open' => simp [open'] at ok
  | cancelled _ _ _ => simp [State.stop] at ok
  | unread _ _ _ => simp [State.stop] at ok
  | @finished log s content reads _ pending held =>
    obtain ⟨parts, puts⟩ := reads.complete pending held
    rw [reads.answers] at parts
    obtain ⟨arrived, rfl⟩ := (resultOf_eq_ok_iff (nodup_of_address parts)).1 (Option.some.inj ok)
    rw [Log.puts_append, Log.puts_turn, List.append_nil, Log.answers_append, Log.answers_turn,
      List.append_nil, reads.answers]
    exact ⟨rfl, exists_tags parts arrived, puts⟩

end

end StagedTransfer.Sending
