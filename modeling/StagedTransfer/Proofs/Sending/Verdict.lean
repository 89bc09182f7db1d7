import StagedTransfer.Parts.Manifest
import StagedTransfer.Proofs.OrderedMap
import StagedTransfer.Proofs.Sending.History

/-!
# What a sending yields

The answers for the parts are sorted into tags and failures. What comes of them is the same in
whatever order they came, and each part stands under its own number.
-/

namespace StagedTransfer.Sending

deriving instance DecidableEq for Settled

/-- The tag of a part that arrived. -/
def Settled.tag? (a : Settled) : Option (Nat × String) :=
  match a.outcome with
  | .ok tag  => some (a.number, tag)
  | .error _ => none

/-- What is said of a part that did not arrive. -/
def Settled.failure? (a : Settled) : Option (Nat × FailedPart) :=
  match a.outcome with
  | .ok _    => none
  | .error e => some (a.number, ⟨a.url, e.message⟩)

/-- The answer for a part if the outcomes of all parts are given. -/
def Settled.of (outcome : Nat → Except TransferError String) (part : Nat × String) : Settled :=
  ⟨part.1, part.2, outcome part.1⟩

lemma Settled.tag?_eq_some_iff {a : Settled} {n : Nat} {tag : String} :
    a.tag? = some (n, tag) ↔ a.number = n ∧ a.outcome = .ok tag := by
  unfold tag?
  cases a.outcome <;> simp

lemma Settled.failure?_eq_some_iff {a : Settled} {n : Nat} {part : FailedPart} :
    a.failure? = some (n, part) ↔
      ∃ e, a.outcome = .error e ∧ a.number = n ∧ part = ⟨a.url, e.message⟩ := by
  unfold failure?
  cases a.outcome <;> simp [eq_comm]

lemma tags_eq (settled : List Settled) :
    tags settled = .ofList (settled.filterMap Settled.tag?) := by
  rw [tags, OrderedMap.ofList, List.foldl_filterMap]
  congr 1
  funext t a
  cases h : a.outcome <;> simp [Settled.tag?, h]

lemma failures_eq (settled : List Settled) :
    failures settled = .ofList (settled.filterMap Settled.failure?) := by
  rw [failures, OrderedMap.ofList, List.foldl_filterMap]
  congr 1
  funext t a
  cases h : a.outcome <;> simp [Settled.failure?, h]

/-- What is kept of some answers keeps their numbers apart. -/
lemma nodup_filterMap {α : Type} {f : Settled → Option (Nat × α)}
    (hf : ∀ a e, f a = some e → e.1 = a.number) {settled : List Settled}
    (hs : (settled.map (·.number)).Nodup) : ((settled.filterMap f).map (·.1)).Nodup := by
  refine hs.sublist ?_
  clear hs
  induction settled with
  | nil => exact .slnil
  | cons a settled ih =>
    cases h : f a with
    | none =>
      rw [List.filterMap_cons_none h, List.map_cons]
      exact ih.cons _
    | some e =>
      rw [List.filterMap_cons_some h, List.map_cons, List.map_cons, hf a e h]
      exact ih.cons_cons _

section

variable {settled : List Settled} (hs : (settled.map (·.number)).Nodup)

include hs

theorem mem_tags {n : Nat} {tag : String} :
    (n, tag) ∈ (tags settled).entries ↔
      ∃ a ∈ settled, a.number = n ∧ a.outcome = .ok tag := by
  have keys := nodup_filterMap (f := Settled.tag?)
    (fun _ ⟨_, _⟩ h => (Settled.tag?_eq_some_iff.1 h).1.symm) hs
  rw [tags_eq, OrderedMap.mem_entries_ofList keys, List.mem_filterMap]
  simp only [Settled.tag?_eq_some_iff]

theorem mem_failures {n : Nat} {part : FailedPart} :
    (n, part) ∈ (failures settled).entries ↔
      ∃ a ∈ settled, ∃ e, a.outcome = .error e ∧ a.number = n ∧ part = ⟨a.url, e.message⟩ := by
  have keys := nodup_filterMap (f := Settled.failure?) (fun _ ⟨_, _⟩ h => by
    obtain ⟨_, -, hn, -⟩ := Settled.failure?_eq_some_iff.1 h
    exact hn.symm) hs
  rw [failures_eq, OrderedMap.mem_entries_ofList keys, List.mem_filterMap]
  simp only [Settled.failure?_eq_some_iff]

/-- The tags do not depend on the order of the answers. -/
theorem tags_perm {others : List Settled} (perm : settled.Perm others) :
    tags settled = tags others := by
  refine OrderedMap.eq_of_mem_iff fun ⟨n, tag⟩ => ?_
  rw [mem_tags hs, mem_tags ((perm.map _).nodup hs)]
  simp only [perm.mem_iff]

theorem failures_perm {others : List Settled} (perm : settled.Perm others) :
    failures settled = failures others := by
  refine OrderedMap.eq_of_mem_iff fun ⟨n, part⟩ => ?_
  rw [mem_failures hs, mem_failures ((perm.map _).nodup hs)]
  simp only [perm.mem_iff]

/-- What a sending yields does not depend on the order of the answers. -/
theorem resultOf_perm {others : List Settled} (perm : settled.Perm others) :
    resultOf settled = resultOf others := by
  rw [resultOf, resultOf, tags_perm hs perm, failures_perm hs perm]

/-- A sending yields tags just if all parts have arrived. -/
theorem resultOf_eq_ok_iff {etags : OrderedMap Nat String} :
    resultOf settled = .ok etags ↔
      (∀ a ∈ settled, ∃ tag, a.outcome = .ok tag) ∧ etags = tags settled := by
  have empty : (failures settled).isEmpty = true ↔ ∀ a ∈ settled, ∃ tag, a.outcome = .ok tag := by
    rw [OrderedMap.isEmpty_iff]
    constructor
    · intro h a ha
      cases ho : a.outcome with
      | ok tag => exact ⟨tag, rfl⟩
      | error e =>
        exact absurd ((mem_failures hs).2 ⟨a, ha, e, ho, rfl, rfl⟩) (h _)
    · rintro h ⟨n, part⟩ he
      obtain ⟨a, ha, e, ho, -, -⟩ := (mem_failures hs).1 he
      obtain ⟨tag, ht⟩ := h a ha
      simp [ho] at ht
  rw [resultOf, ← empty]
  split
  · next h => simp [h, eq_comm]
  · next h => simp [h]

/-- A sending of which a part has not arrived yields the parts that have not. -/
theorem resultOf_of_error {a : Settled} (ha : a ∈ settled) {e : TransferError}
    (he : a.outcome = .error e) :
    resultOf settled = .error (.partialUpload (failures settled)) := by
  rw [resultOf, if_neg]
  rw [OrderedMap.isEmpty_iff]
  intro h
  exact h _ ((mem_failures hs).2 ⟨a, ha, e, he, rfl, rfl⟩)

/-- Answers with different numbers are those of some outcomes. -/
theorem exists_outcomes :
    ∃ outcome, settled = (settled.map Settled.address).map (Settled.of outcome) := by
  let outcome (n : Nat) := match settled.find? (·.number == n) with
    | some a => a.outcome
    | none   => .ok ""
  have outcome_eq : ∀ a ∈ settled, outcome a.number = a.outcome := by
    intro a ha
    obtain ⟨b, hb⟩ : ∃ b, settled.find? (·.number == a.number) = some b := by
      rw [← Option.isSome_iff_exists, List.find?_isSome]
      exact ⟨a, ha, by simp⟩
    have number : b.number = a.number := by simpa using List.find?_some hb
    obtain rfl := List.inj_on_of_nodup_map hs (List.mem_of_find?_eq_some hb) ha number
    simp only [outcome, hb]
  refine ⟨outcome, ?_⟩
  rw [List.map_map]
  refine .trans (List.map_id settled).symm (List.map_congr_left fun a ha => ?_)
  simp only [Function.comp_apply, Settled.of, Settled.address, outcome_eq a ha]
  rfl

end

/-- If all parts have arrived, the answers are those of some tags. -/
theorem exists_tags {urls : List String} {settled : List Settled}
    (parts : (settled.map Settled.address).Perm (numbered urls))
    (arrived : ∀ a ∈ settled, ∃ tag, a.outcome = .ok tag) :
    ∃ tag : Nat → String, settled.Perm ((numbered urls).map (.of fun n => .ok (tag n))) := by
  obtain ⟨outcome, outcomes⟩ := exists_outcomes (nodup_of_address parts)
  have perm := parts.map (Settled.of outcome)
  rw [← outcomes] at perm
  refine ⟨fun n => (outcome n).toOption.getD "", ?_⟩
  refine perm.trans (.of_eq (List.map_congr_left fun part hpart => ?_))
  obtain ⟨tag, ht⟩ := arrived _ (perm.mem_iff.2 (List.mem_map_of_mem hpart))
  simp only [Settled.of] at ht ⊢
  rw [ht]
  rfl

/-! ### Manifests of tags -/

lemma ofEtags_go {etags : OrderedMap Nat String} {tag : Nat → String} (number left : Nat)
    (h : ∀ n, number ≤ n → n < number + left → etags.find? n = some (tag n)) :
    Manifest.ofEtags.go etags number left =
      .ok ((List.range' number left).map fun n => (n, tag n)) := by
  induction left generalizing number with
  | zero => rfl
  | succ left ih =>
    rw [Manifest.ofEtags.go, h number (by omega) (by omega),
      ih (number + 1) fun n hn hn' => h n (by omega) (by omega)]
    rfl

/-- A manifest lists the parts in order if each of them has a tag. -/
lemma ofEtags_eq_ok {etags : OrderedMap Nat String} {tag : Nat → String} {count : Nat}
    (h : ∀ n, 1 ≤ n → n ≤ count → etags.find? n = some (tag n)) :
    Manifest.ofEtags etags count = .ok ⟨(List.range' 1 count).map fun n => (n, tag n)⟩ := by
  rw [Manifest.ofEtags, ofEtags_go 1 count fun n hn hn' => h n hn (by omega)]
  rfl

/-- The tags of some outcomes make up a manifest. -/
theorem ofEtags_tags {urls : List String} {settled : List Settled} {tag : Nat → String}
    (h : settled.Perm ((numbered urls).map (Settled.of fun n => .ok (tag n)))) :
    Manifest.ofEtags (tags settled) urls.length =
      .ok ⟨(List.range' 1 urls.length).map fun n => (n, tag n)⟩ := by
  have hs : (settled.map (·.number)).Nodup := by
    apply (h.map (·.number)).symm.nodup
    rw [List.map_map]
    exact nodup_numbered urls
  refine ofEtags_eq_ok fun n hn hle => ?_
  rw [OrderedMap.find?_eq_some_iff, mem_tags hs]
  refine ⟨⟨n, urls[n - 1], .ok (tag n)⟩, h.mem_iff.2 ?_, rfl, rfl⟩
  exact List.mem_map.2 ⟨(n, urls[n - 1]), mem_numbered.2 ⟨hn, by simp⟩, rfl⟩

end StagedTransfer.Sending
