import Mathlib.Data.List.TakeWhile
import StagedTransfer.Encoding.Form
import StagedTransfer.Proofs.Http.Segments

/-!
# Forms undone

The pairs of a form are read from its text as they have been written, whatever they are made of: no
character that stands between names, values and pairs, or ends a query, stands in a name or a value
once it is encoded, and a plus sign only where a space has been.
-/

namespace StagedTransfer.Form

variable {c : Char} {cs : List Char}

/-! ### What stands in an encoded text -/

lemma forall_mem_encodeChar {p : Char → Prop} (kept : ∀ c, isPlain c = true → p c)
    (percent : p '%') (digit : ∀ n < 16, p (Hex.upperDigit n)) :
    ∀ d ∈ Percent.encodeChar isPlain c, p d := by
  have one : Percent.encode isPlain [c] = Percent.encodeChar isPlain c := List.flatMap_singleton ..
  exact one ▸ Percent.forall_mem_encode kept percent digit

/-- A property of whatever may stand in a name or a value. -/
lemma forall_mem_encodeText {p : Char → Prop} (kept : ∀ c, isPlain c = true → p c) (plus : p '+')
    (percent : p '%') (digit : ∀ n < 16, p (Hex.upperDigit n)) (s : String) :
    ∀ c ∈ encodeText s, p c := by
  intro c hc
  obtain ⟨d, -, hd⟩ := List.mem_flatMap.1 hc
  rw [encodeChar] at hd
  split at hd
  · rwa [List.mem_singleton.1 hd]
  · exact forall_mem_encodeChar kept percent digit c hd

/-- The character is none that a form or an address takes for a mark of its own. -/
def IsClear (c : Char) : Prop :=
  c ≠ '&' ∧ c ≠ '=' ∧ c ≠ '?' ∧ c ≠ '#'

instance (c : Char) : Decidable (IsClear c) :=
  inferInstanceAs (Decidable (_ ∧ _))

lemma isClear_of_isPlain (h : isPlain c = true) : IsClear c := by
  refine ⟨?_, ?_, ?_, ?_⟩ <;>
  · rintro rfl
    exact absurd h (by decide)

lemma isClear_encodeText (s : String) : ∀ c ∈ encodeText s, IsClear c :=
  forall_mem_encodeText (fun _ => isClear_of_isPlain) (by decide) (by decide) (by decide) s

/-! ### Names and values -/

/-- A plus sign is read as a space. -/
def spaced (c : Char) : Char :=
  if c = '+' then ' ' else c

lemma decode_spaced_encodeChar_append (c : Char) (cs : List Char) :
    Percent.decode ((encodeChar c ++ cs).map spaced) =
      Utf8.encodeChar c ++ Percent.decode (cs.map spaced) := by
  rw [encodeChar]
  split
  · rename_i space
    rw [space, List.singleton_append, List.map_cons]
    exact Percent.decode_cons_of_ne (by decide)
  · have apart : ∀ d ∈ Percent.encodeChar isPlain c, spaced d = d := by
      have plus : ∀ d, isPlain d = true → d ≠ '+' := by
        rintro d h rfl
        exact absurd h (by decide)
      exact fun d hd => if_neg (forall_mem_encodeChar plus (by decide) (by decide) d hd)
    rw [List.map_append, List.map_congr_left apart, List.map_id',
      Percent.decode_encodeChar_append (by decide)]

lemma decodeText_encodeText (s : String) : decodeText (encodeText s) = s := by
  have spelled (cs : List Char) :
      Percent.decode ((cs.flatMap encodeChar).map spaced) = Utf8.encodeChars cs := by
    induction cs with
    | nil => rfl
    | cons c cs ih =>
      rw [List.flatMap_cons, decode_spaced_encodeChar_append, ih]
      rfl
  have read := Utf8.decodeLossy_encode s
  rwa [Utf8.encode, ← spelled] at read

/-! ### Pairs -/

lemma decodePair_encodePair (p : String × String) : decodePair (encodePair p) = p := by
  have clear : ∀ c ∈ encodeText p.1, decide (c ≠ '=') = true := fun c hc =>
    decide_eq_true (isClear_encodeText p.1 c hc).2.1
  rw [decodePair, encodePair, List.takeWhile_append_of_pos clear,
    List.dropWhile_append_of_pos clear, List.takeWhile_cons_of_neg (by decide),
    List.dropWhile_cons_of_neg (by decide), List.append_nil, List.drop_one, List.tail_cons,
    decodeText_encodeText, decodeText_encodeText]

lemma mem_encodePair {p : String × String} (h : c ∈ encodePair p) : c = '=' ∨ IsClear c := by
  rcases List.mem_append.1 h with h | h
  · exact .inr (isClear_encodeText _ c h)
  · exact (List.mem_cons.1 h).imp_right (isClear_encodeText _ c)

lemma encodePair_ne_nil (p : String × String) : encodePair p ≠ [] :=
  List.append_ne_nil_of_right_ne_nil _ (List.cons_ne_nil _ _)

/-! ### Forms -/

variable {pairs : List (String × String)}

lemma encode_ne_nil (some' : pairs ≠ []) : encode pairs ≠ [] := by
  obtain ⟨p, pairs, rfl⟩ := List.exists_cons_of_ne_nil some'
  rw [encode, List.map_cons]
  cases pairs.map encodePair with
  | nil =>
    rw [List.intercalate_singleton]
    exact encodePair_ne_nil p
  | cons q qs =>
    rw [List.intercalate_cons_cons]
    exact List.append_ne_nil_of_left_ne_nil
      (List.append_ne_nil_of_left_ne_nil (encodePair_ne_nil p) _) _

/-- No mark that ends a query stands in a form. -/
lemma not_mem_encode (pairs : List (String × String)) :
    ∀ c ∈ encode pairs, c ≠ '?' ∧ c ≠ '#' := by
  refine Text.forall_mem_intercalate (by decide) fun s hs c hc => ?_
  obtain ⟨p, -, rfl⟩ := List.mem_map.1 hs
  rcases mem_encodePair hc with rfl | clear
  · decide
  · exact clear.2.2

/-- A form is read as it has been written. -/
theorem decode_encode (pairs : List (String × String)) : decode (encode pairs) = pairs := by
  by_cases none' : pairs = []
  · rw [none']
    rfl
  have some' : pairs.map encodePair ≠ [] := fun h => none' (List.map_eq_nil_iff.1 h)
  have apart : ∀ s ∈ pairs.map encodePair, '&' ∉ s := by
    intro s hs mem
    obtain ⟨p, -, rfl⟩ := List.mem_map.1 hs
    rcases mem_encodePair mem with equal | clear
    · exact absurd equal (by decide)
    · exact clear.1 rfl
  have full : ∀ s ∈ pairs.map encodePair, decide (s ≠ []) = true := by
    intro s hs
    obtain ⟨p, -, rfl⟩ := List.mem_map.1 hs
    exact decide_eq_true (encodePair_ne_nil p)
  rw [decode, encode, Text.pieces_intercalate some' apart, List.filter_eq_self.2 full, List.map_map]
  have undone : decodePair ∘ encodePair = id := funext decodePair_encodePair
  rw [undone, List.map_id]

end StagedTransfer.Form
