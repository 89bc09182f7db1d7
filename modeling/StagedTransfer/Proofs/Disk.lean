import Mathlib.Tactic.Lemma
import StagedTransfer.Disk

/-!
# Files that have been written

What has been written at a path is found there. A file never takes the place of a folder, so that
the way to it stays as it was.
-/

namespace StagedTransfer.Disk

/-! ### Entries -/

section

variable (d : Disk) {names : List String} (n : Entry)

lemma find?_put_self (hn : names ≠ []) : (d.put names n).find? names = some n := by
  rw [find?, if_neg (by simpa using hn), put]
  split
  · next there =>
    obtain ⟨e, he, hen⟩ : ∃ e ∈ d.entries, e.1 = names := by simpa using there
    have same : (fun e => decide (e.1 = names)) ∘ (fun e => if e.1 = names then (names, n) else e) =
        fun e : List String × Entry => decide (e.1 = names) := by
      funext e
      by_cases h : e.1 = names <;> simp [h]
    obtain ⟨f, hf⟩ : ∃ f, d.entries.find? (fun e => decide (e.1 = names)) = some f := by
      rw [← Option.isSome_iff_exists, List.find?_isSome]
      exact ⟨e, he, by simpa using hen⟩
    have found : f.1 = names := by simpa using List.find?_some hf
    rw [List.find?_map, same, hf, Option.map_some, Option.map_some, if_pos found]
  · next absent =>
    have none' : d.entries.find? (fun e => decide (e.1 = names)) = none := by
      rw [List.find?_eq_none]
      intro e he hen
      exact absent (List.any_eq_true.2 ⟨e, he, hen⟩)
    rw [List.find?_append, none']
    simp

lemma find?_put_of_ne {others : List String} (h : others ≠ names) :
    (d.put names n).find? others = d.find? others := by
  rw [find?, find?, put]
  congr 1
  split
  · have same :
        (fun e => decide (e.1 = others)) ∘ (fun e => if e.1 = names then (names, n) else e) =
        fun e : List String × Entry => decide (e.1 = others) := by
      funext e
      by_cases he : e.1 = names
      · simp [he, Ne.symm h]
      · simp [he]
    rw [List.find?_map, same]
    cases hf : d.entries.find? (fun e => decide (e.1 = others)) with
    | none => rfl
    | some f =>
      have found : f.1 = others := by simpa using List.find?_some hf
      rw [Option.map_some, if_neg (found ▸ h)]
  · rw [List.find?_append]
    simp [Ne.symm h]

end

/-! ### Ways -/

variable {d : Disk}

lemma walk_cons {here : List String} (folder : d.find? here = some .folder) {s : String}
    (short : ¬s.utf8ByteSize > maxName) (ss : List String) :
    d.walk here (s :: ss) = d.walk (step here s) ss := by
  simp only [walk, folder]
  rw [if_neg short]

/-- The way to a folder leads over folders only. -/
lemma walk_cons_eq_folder {here there : List String} {s : String} {ss : List String}
    (h : d.walk here (s :: ss) = .ok (there, .folder)) :
    d.find? here = some .folder ∧ ¬s.utf8ByteSize > maxName ∧
      d.walk (step here s) ss = .ok (there, .folder) := by
  simp only [walk] at h
  split at h
  · next folder =>
    split at h
    · cases h
    · next short => exact ⟨folder, short, h⟩
  · cases h
  · cases h

lemma walk_nil_eq_folder {here there : List String} (h : d.walk here [] = .ok (there, .folder)) :
    here = there ∧ d.find? here = some .folder := by
  simp only [walk] at h
  split at h
  · next e found =>
    cases h
    exact ⟨rfl, found⟩
  · cases h

/-- A way goes one step further from the folder to which it leads. -/
lemma walk_append_singleton {here there ss : List String}
    (h : d.walk here ss = .ok (there, .folder)) (s : String) (short : ¬s.utf8ByteSize > maxName) :
    d.walk here (ss ++ [s]) = d.walk (step there s) [] := by
  induction ss generalizing here with
  | nil =>
    obtain ⟨rfl, folder⟩ := walk_nil_eq_folder h
    rw [List.nil_append, walk_cons folder short]
  | cons t ss ih =>
    obtain ⟨folder, short', rest⟩ := walk_cons_eq_folder h
    rw [List.cons_append, walk_cons folder short', ih rest]

/-- The way to a folder stays if something is put where no folder stands. -/
lemma walk_put {here there ss names : List String} (n : Entry)
    (h : d.walk here ss = .ok (there, .folder)) (free : d.find? names ≠ some .folder) :
    (d.put names n).walk here ss = .ok (there, .folder) := by
  have apart {place : List String} (folder : d.find? place = some .folder) : place ≠ names := by
    rintro rfl
    exact free folder
  induction ss generalizing here with
  | nil =>
    obtain ⟨rfl, folder⟩ := walk_nil_eq_folder h
    rw [walk, find?_put_of_ne d n (apart folder), folder]
  | cons t ss ih =>
    obtain ⟨folder, short, rest⟩ := walk_cons_eq_folder h
    rw [walk_cons ((find?_put_of_ne d n (apart folder)).trans folder) short, ih rest]

/-! ### Writing -/

/-- What a successful write does. -/
lemma write_eq_ok {path : String} {content : Bytes} {d' : Disk}
    (h : d.write path content = .ok d') :
    ∃ before name here, steps path = .ok (before ++ [name]) ∧
      d.walk [] before = .ok (here, .folder) ∧ ¬name.utf8ByteSize > maxName ∧
      d.find? (step here name) ≠ some .folder ∧ d' = d.put (step here name) (.file content) := by
  unfold write at h
  cases hs : steps path with
  | error e =>
    rw [hs] at h
    cases h
  | ok ss =>
    rw [hs] at h
    simp only [bind, Except.bind] at h
    split at h
    · cases h
    next name before reverse =>
      have ss_eq : ss = before.reverse ++ [name] := by
        rw [← List.reverse_reverse ss, reverse, List.reverse_cons]
      split at h
      · cases h
      cases hw : d.walk [] before.reverse with
      | error e =>
        rw [hw] at h
        cases h
      | ok place =>
        obtain ⟨here, _ | _⟩ := place
        · rw [hw] at h
          cases h
        · simp only [hw] at h
          split at h
          · cases h
          next short =>
            split at h
            · cases h
            next free =>
              cases h
              exact ⟨before.reverse, name, here, by rw [ss_eq], hw, short, free, rfl⟩

/-- What has been written is found. -/
theorem content_write {path : String} {content : Bytes} {d' : Disk}
    (h : d.write path content = .ok d') : d'.content path = .ok content := by
  obtain ⟨before, name, here, hsteps, hwalk, short, free, rfl⟩ := write_eq_ok h
  have named : step here name ≠ [] := by
    intro root
    rw [root] at free
    exact free rfl
  have entry : (d.put (step here name) (.file content)).entry path = .ok (.file content) := by
    rw [entry, hsteps]
    change (do return (← walk _ [] (before ++ [name])).2) = _
    rw [walk_append_singleton (walk_put _ hwalk free) name short, walk, find?_put_self d _ named]
    rfl
  rw [Disk.content, entry]
  rfl

end StagedTransfer.Disk
