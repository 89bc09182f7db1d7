import Mathlib.Data.List.Nodup
import StagedTransfer.Data.OrderedMap

/-!
# Entries of ordered maps

A map is determined by what its entries are. A map made of entries with different keys holds just
these, in whatever order they came.
-/

namespace StagedTransfer.OrderedMap

variable {κ α : Type} [LT κ]

lemma isEmpty_iff {t : OrderedMap κ α} : t.isEmpty = true ↔ ∀ e, e ∉ t.entries := by
  rw [isEmpty, List.isEmpty_iff, List.eq_nil_iff_forall_not_mem]

variable [KeyOrder κ]

lemma ne_of_entryBefore {a b : κ × α} (h : entryBefore a b) : a.1 ≠ b.1 := by
  intro hab
  unfold entryBefore at h
  rw [hab] at h
  exact KeyOrder.irrefl h

/-- No key has two entries. -/
lemma nodup_keys (t : OrderedMap κ α) : t.keys.Nodup :=
  List.pairwise_map.2 (t.ordered.imp ne_of_entryBefore)

lemma nodup_entries (t : OrderedMap κ α) : t.entries.Nodup :=
  t.ordered.imp fun h hab => ne_of_entryBefore h (congrArg Prod.fst hab)

lemma eq_of_mem_entries {t : OrderedMap κ α} {key : κ} {v w : α} (hv : (key, v) ∈ t.entries)
    (hw : (key, w) ∈ t.entries) : v = w :=
  congrArg Prod.snd (List.inj_on_of_nodup_map t.nodup_keys hv hw rfl)

/-- Two maps with the same entries are equal. -/
theorem eq_of_mem_iff {s t : OrderedMap κ α} (h : ∀ e, e ∈ s.entries ↔ e ∈ t.entries) : s = t := by
  have perm : s.entries.Perm t.entries :=
    (List.perm_ext_iff_of_nodup s.nodup_entries t.nodup_entries).2 h
  refine ext (perm.eq_of_pairwise (fun a b _ _ hab hba => ?_) s.ordered t.ordered)
  exact absurd (KeyOrder.trans hab hba) KeyOrder.irrefl

theorem find?_eq_some_iff [DecidableEq κ] {t : OrderedMap κ α} {key : κ} {v : α} :
    t.find? key = some v ↔ (key, v) ∈ t.entries := by
  constructor
  · intro h
    obtain ⟨⟨k, w⟩, he, rfl⟩ := Option.map_eq_some_iff.1 h
    obtain rfl : k = key := by simpa using List.find?_some he
    exact List.mem_of_find?_eq_some he
  · intro h
    cases he : t.entries.find? (·.1 = key) with
    | none => simpa using List.find?_eq_none.1 he (key, v) h
    | some e =>
      obtain ⟨k, w⟩ := e
      obtain rfl : k = key := by simpa using List.find?_some he
      rw [find?, he, Option.map_some, eq_of_mem_entries (List.mem_of_find?_eq_some he) h]

theorem mem_keys_iff [DecidableEq κ] {t : OrderedMap κ α} {key : κ} :
    key ∈ t.keys ↔ ∃ v, t.find? key = some v := by
  simp only [find?_eq_some_iff, keys, List.mem_map, Prod.exists]
  exact ⟨fun ⟨_, v, he, same⟩ => ⟨v, same ▸ he⟩, fun ⟨v, he⟩ => ⟨key, v, he, rfl⟩⟩

lemma find?_eq_none [DecidableEq κ] {t : OrderedMap κ α} {key : κ} (h : key ∉ t.keys) :
    t.find? key = none := by
  cases found : t.find? key with
  | none => rfl
  | some v => exact absurd (mem_keys_iff.2 ⟨v, found⟩) h

/-! ### Maps made of entries -/

variable [DecidableLT κ]

lemma mem_insertEntry_iff {key : κ} {value : α} {s : List (κ × α)} (hs : s.Pairwise entryBefore)
    {e : κ × α} : e ∈ insertEntry key value s ↔ e = (key, value) ∨ e ∈ s ∧ e.1 ≠ key := by
  induction s with
  | nil => simp [insertEntry]
  | cons a s ih =>
    obtain ⟨k, v⟩ := a
    obtain ⟨ha, hs⟩ := List.pairwise_cons.1 hs
    simp only [insertEntry]
    split
    · rename_i hk
      -- the key lies before all that are there
      have apart : ∀ e ∈ (k, v) :: s, e.1 ≠ key := by
        intro e he
        rcases List.mem_cons.1 he with rfl | he
        · exact (ne_of_entryBefore (a := (key, value)) (b := (k, v)) hk).symm
        · exact (ne_of_entryBefore (a := (key, value)) (b := e) (KeyOrder.trans hk (ha e he))).symm
      rw [List.mem_cons]
      exact or_congr_right ⟨fun he => ⟨he, apart e he⟩, And.left⟩
    · split
      · rename_i hk
        have apart : k ≠ key := ne_of_entryBefore (a := (k, v)) (b := (key, value)) hk
        rw [List.mem_cons, ih hs, List.mem_cons]
        constructor
        · rintro (rfl | rfl | ⟨he, hne⟩)
          · exact .inr ⟨.inl rfl, apart⟩
          · exact .inl rfl
          · exact .inr ⟨.inr he, hne⟩
        · rintro (rfl | ⟨rfl | he, hne⟩)
          · exact .inr (.inl rfl)
          · exact .inl rfl
          · exact .inr (.inr ⟨he, hne⟩)
      · rename_i hk hk'
        obtain rfl := KeyOrder.eq_of_not_lt hk hk'
        have apart : ∀ e ∈ s, e.1 ≠ key := fun e he =>
          (ne_of_entryBefore (a := (key, v)) (b := e) (ha e he)).symm
        rw [List.mem_cons, List.mem_cons]
        constructor
        · rintro (rfl | he)
          · exact .inl rfl
          · exact .inr ⟨.inr he, apart e he⟩
        · rintro (rfl | ⟨rfl | he, hne⟩)
          · exact .inl rfl
          · exact absurd rfl hne
          · exact .inr he

lemma mem_entries_insert {t : OrderedMap κ α} {key : κ} {value : α} {e : κ × α} :
    e ∈ (t.insert key value).entries ↔ e = (key, value) ∨ e ∈ t.entries ∧ e.1 ≠ key :=
  mem_insertEntry_iff t.ordered

/-- A map made of entries with different keys holds just these. -/
theorem mem_entries_ofList {s : List (κ × α)} (hs : (s.map (·.1)).Nodup) {e : κ × α} :
    e ∈ (ofList s).entries ↔ e ∈ s := by
  suffices h : ∀ t : OrderedMap κ α, (∀ a ∈ t.entries, ∀ b ∈ s, a.1 ≠ b.1) →
      (e ∈ (s.foldl (fun t e => t.insert e.1 e.2) t).entries ↔ e ∈ t.entries ∨ e ∈ s) by
    rw [ofList, h empty (by simp [empty])]
    simp [empty]
  induction s with
  | nil => simp
  | cons b s ih =>
    intro t ht
    obtain ⟨hb, hs⟩ := List.nodup_cons.1 hs
    have apart : ∀ a ∈ (t.insert b.1 b.2).entries, ∀ c ∈ s, a.1 ≠ c.1 := by
      intro a ha c hc
      rcases mem_entries_insert.1 ha with rfl | ⟨ha, -⟩
      · exact fun hbc => hb (List.mem_map.2 ⟨c, hc, hbc.symm⟩)
      · exact ht a ha c (List.mem_cons_of_mem _ hc)
    rw [List.foldl_cons, ih hs _ apart, mem_entries_insert, List.mem_cons]
    constructor
    · rintro ((rfl | ⟨he, -⟩) | he)
      · exact .inr (.inl rfl)
      · exact .inl he
      · exact .inr (.inr he)
    · rintro (he | rfl | he)
      · exact .inl (.inr ⟨he, ht e he b List.mem_cons_self⟩)
      · exact .inl (.inl rfl)
      · exact .inr he

end StagedTransfer.OrderedMap
