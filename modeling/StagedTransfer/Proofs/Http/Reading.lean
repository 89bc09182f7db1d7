import Mathlib.Data.List.TakeWhile
import StagedTransfer.Proofs.Http.Segments

/-!
# Addresses of hosts

An address that names a host and no path, with a path put after it, is read as that host and that
path, as long as nothing in the path begins a query.
-/

namespace StagedTransfer.Http.Url

variable {scheme : Scheme} {host name authority path : List Char} {socket : Nat}

/-! ### Names of schemes -/

lemma not_mem_letters : ∀ n ≤ 0x20, (Char.ofNat n).toLower ∉ ['h', 't', 'p', 's'] := by
  decide

lemma map_toLower_of_schemeOf? (h : schemeOf? name = some scheme) :
    ∀ c ∈ name, c.toLower ∈ ['h', 't', 'p', 's'] := by
  have letters : ∀ s ∈ ["http", "https"], ∀ c ∈ s.toList, c ∈ ['h', 't', 'p', 's'] := by simp
  have known : String.ofList (name.map Char.toLower) ∈ ["http", "https"] := by
    rw [schemeOf?] at h
    split at h
    · simp_all
    · simp_all
    · cases h
  intro c hc
  refine letters _ known _ ?_
  rw [String.toList_ofList]
  exact List.mem_map_of_mem hc

lemma visible_of_schemeOf? (h : schemeOf? name = some scheme) :
    ∀ c ∈ name, 0x20 < c.toNat ∧ c ≠ ':' := by
  intro c hc
  have letter := map_toLower_of_schemeOf? h c hc
  constructor
  · refine Nat.lt_of_not_le fun low => not_mem_letters c.toNat low ?_
    rwa [Char.ofNat_toNat]
  · rintro rfl
    exact absurd letter (by decide)

/-! ### Hosts -/

/-- A character that ends no host and is visible. -/
def isHostChar (c : Char) : Bool :=
  0x20 < c.toNat && !(isSlash c || c == '?' || c == '#')

/-- The text names a host, and its socket or not, and any number of slashes follow. -/
inductive IsRoot : String → Scheme → List Char → Nat → Prop
  | intro {name authority host : List Char} {scheme : Scheme} {socket : Nat} (slashes : Nat)
    (named : schemeOf? name = some scheme)
    (located : authority? scheme authority = some (host, socket))
    (plain : ∀ c ∈ authority, isHostChar c = true) :
    IsRoot (String.ofList (name ++ ':' :: '/' :: '/' :: (authority ++ List.replicate slashes '/')))
      scheme host socket

lemma ne_nil_of_authority? (h : authority? scheme authority = some (host, socket)) :
    authority ≠ [] := by
  rintro rfl
  simp [authority?] at h

lemma isHostChar_iff {c : Char} :
    isHostChar c = true ↔ 0x20 < c.toNat ∧ isSlash c = false ∧ c ≠ '?' ∧ c ≠ '#' := by
  simp [isHostChar, and_assoc]

/-- A text in which nothing is blank is read as it is. -/
lemma tidy_eq_self {cs : List Char} (h : ∀ c ∈ cs, 0x20 < c.toNat) : tidy cs = cs := by
  have start {ds : List Char} (hd : ∀ c ∈ ds, 0x20 < c.toNat) :
      ds.dropWhile (fun c => decide (c.toNat ≤ 0x20)) = ds :=
    List.dropWhile_eq_self_iff.2 fun hl blank =>
      Nat.not_lt.2 (of_decide_eq_true blank) (hd _ (List.getElem_mem hl))
  have back : ∀ c ∈ cs.reverse, 0x20 < c.toNat := fun c hc => h c (List.mem_reverse.1 hc)
  simp only [tidy]
  rw [start h, start back, List.reverse_reverse, List.filter_eq_self]
  intro c hc
  have visible := h c hc
  simp only [ne_eq, decide_eq_true_eq]
  refine ⟨?_, ?_, ?_⟩ <;>
  · rintro rfl
    exact absurd visible (by decide)

/-- The parts of an address that names a host. -/
lemma parse?_parts (named : schemeOf? name = some scheme)
    (plain : ∀ c ∈ authority, isHostChar c = true) (some' : authority ≠ []) (rest : List Char) :
    (name ++ ':' :: '/' :: '/' :: (authority ++ '/' :: rest)).takeWhile (· ≠ ':') = name ∧
      (((name ++ ':' :: '/' :: '/' :: (authority ++ '/' :: rest)).dropWhile (· ≠ ':')).drop
        1).dropWhile isSlash = authority ++ '/' :: rest := by
  have colon : ∀ c ∈ name, decide (c ≠ ':') = true := fun c hc =>
    decide_eq_true (visible_of_schemeOf? named c hc).2
  constructor
  · rw [List.takeWhile_append_of_pos colon, List.takeWhile_cons_of_neg (by decide),
      List.append_nil]
  · obtain ⟨a, as, rfl⟩ := List.exists_cons_of_ne_nil some'
    have first := (isHostChar_iff.1 (plain a List.mem_cons_self)).2.1
    rw [List.dropWhile_append_of_pos colon, List.dropWhile_cons_of_neg (by decide), List.drop_one,
      List.tail_cons, List.dropWhile_cons_of_pos (by decide),
      List.dropWhile_cons_of_pos (by decide), List.cons_append,
      List.dropWhile_cons_of_neg (by simp [first])]

/-- A host with a path after it. -/
theorem parse?_append (named : schemeOf? name = some scheme)
    (located : authority? scheme authority = some (host, socket))
    (plain : ∀ c ∈ authority, isHostChar c = true)
    (clear : ∀ c ∈ path, 0x20 < c.toNat ∧ c ≠ '?' ∧ c ≠ '#') :
    parse? (String.ofList (name ++ ':' :: '/' :: '/' :: (authority ++ '/' :: path))) =
      some ⟨scheme, host, socket, pathOf path, none⟩ := by
  have visible : ∀ c ∈ name ++ ':' :: '/' :: '/' :: (authority ++ '/' :: path), 0x20 < c.toNat := by
    simp only [List.mem_append, List.mem_cons]
    rintro c (hc | rfl | rfl | rfl | hc | rfl | hc)
    · exact (visible_of_schemeOf? named c hc).1
    · decide
    · decide
    · decide
    · exact (isHostChar_iff.1 (plain c hc)).1
    · decide
    · exact (clear c hc).1
  obtain ⟨first, rest⟩ := parse?_parts named plain (ne_nil_of_authority? located) path
  have inside : ∀ c ∈ authority, (!(isSlash c || c == '?' || c == '#')) = true := fun c hc => by
    simpa [and_assoc] using (isHostChar_iff.1 (plain c hc)).2
  have question : ∀ c ∈ '/' :: path, decide (c ≠ '?') = true := by
    simp only [List.mem_cons, decide_eq_true_eq]
    rintro c (rfl | hc)
    · decide
    · exact (clear c hc).2.1
  have sign : ∀ c ∈ '/' :: path, decide (c ≠ '#') = true := by
    simp only [List.mem_cons, decide_eq_true_eq]
    rintro c (rfl | hc)
    · decide
    · exact (clear c hc).2.2
  simp only [parse?, String.toList_ofList, tidy_eq_self visible, first, named, rest,
    List.takeWhile_append_of_pos inside, List.dropWhile_append_of_pos inside, Option.bind_eq_bind,
    Option.bind_some]
  rw [List.takeWhile_cons_of_neg (by decide), List.dropWhile_cons_of_neg (by decide),
    List.append_nil, located, List.takeWhile_eq_self_iff.2 sign,
    List.takeWhile_eq_self_iff.2 question, List.dropWhile_eq_nil_iff.2 question]
  rfl

end StagedTransfer.Http.Url
