import Mathlib.Tactic.Lemma
import StagedTransfer.Encoding.Percent

/-!
# Percent-encoding undone

A text in which the percent sign does not stay as it is spells its own bytes once it is encoded, so
that no two texts are encoded alike. Whatever stands in an encoded text has stayed as it is or is a
percent sign or a digit of a byte.
-/

namespace StagedTransfer.Percent

variable {keep : Char → Bool} {c : Char} {cs ds : List Char}

/-! ### Digits -/

lemma digitValue?_upperDigit : ∀ n < 16, Hex.digitValue? (Hex.upperDigit n) = some n := by
  decide

/-- A byte with the digits that spell it. -/
lemma exists_escape (b : UInt8) : ∃ m < 16, ∃ n < 16, b = UInt8.ofNat (m * 16 + n) ∧
    escape b = ['%', Hex.upperDigit m, Hex.upperDigit n] := by
  have hb := b.toNat_lt
  refine ⟨b.toNat / 16, by omega, b.toNat % 16, by omega, ?_, rfl⟩
  rw [Nat.div_add_mod', UInt8.ofNat_toNat]

/-! ### Decoding -/

lemma decode_cons_of_ne (h : c ≠ '%') : decode (c :: cs) = Utf8.encodeChar c ++ decode cs := by
  rw [decode]
  rintro a b ds rfl
  exact absurd rfl h

lemma decode_escape_append (b : UInt8) : decode (escape b ++ cs) = b :: decode cs := by
  obtain ⟨m, hm, n, hn, rfl, escaped⟩ := exists_escape b
  rw [escaped, List.cons_append, List.cons_append, List.cons_append, List.nil_append, decode,
    digitValue?_upperDigit m hm, digitValue?_upperDigit n hn]

lemma decode_flatMap_escape (bytes : Bytes) :
    decode (bytes.flatMap escape ++ cs) = bytes ++ decode cs := by
  induction bytes with
  | nil => rfl
  | cons b bytes ih =>
    rw [List.flatMap_cons, List.append_assoc, decode_escape_append, ih, List.cons_append]

lemma decode_encodeChar_append (percent : keep '%' = false) (c : Char) :
    decode (encodeChar keep c ++ cs) = Utf8.encodeChar c ++ decode cs := by
  rw [encodeChar]
  split
  · rename_i kept
    refine decode_cons_of_ne ?_
    rintro rfl
    simp [percent] at kept
  · exact decode_flatMap_escape _

/-- An encoded text spells its bytes. -/
theorem decode_encode (percent : keep '%' = false) (cs : List Char) :
    decode (encode keep cs) = Utf8.encodeChars cs := by
  induction cs with
  | nil => rfl
  | cons c cs ih =>
    rw [encode, List.flatMap_cons, decode_encodeChar_append percent, ← encode, ih]
    rfl

/-- Decoding undoes encoding. -/
theorem decode?_decode_encode (percent : keep '%' = false) (s : String) :
    Utf8.decode? (decode (encode keep s.toList)) = some s := by
  rw [decode_encode percent, ← Utf8.encode, Utf8.decode?_encode]

lemma encode_injective (percent : keep '%' = false) {s t : String}
    (h : encode keep s.toList = encode keep t.toList) : s = t := by
  have same := congrArg (fun cs => Utf8.decode? (decode cs)) h
  simpa only [decode?_decode_encode percent, Option.some.injEq] using same

/-! ### What stands in an encoded text -/

lemma encode_eq_self (h : ∀ c ∈ cs, keep c = true) : encode keep cs = cs := by
  induction cs with
  | nil => rfl
  | cons c cs ih =>
    have kept := h c (List.mem_cons_self)
    rw [encode, List.flatMap_cons, encodeChar, if_pos kept, ← encode,
      ih fun d hd => h d (List.mem_cons_of_mem _ hd)]
    rfl

/-- A property of whatever may stand in an encoded text. -/
lemma forall_mem_encode {p : Char → Prop} (kept : ∀ c, keep c = true → p c) (percent : p '%')
    (digit : ∀ n < 16, p (Hex.upperDigit n)) : ∀ c ∈ encode keep cs, p c := by
  intro c hc
  obtain ⟨d, -, hd⟩ := List.mem_flatMap.1 hc
  rw [encodeChar] at hd
  split at hd
  · rename_i keeps
    obtain rfl := List.mem_singleton.1 hd
    exact kept c keeps
  · obtain ⟨b, -, hb⟩ := List.mem_flatMap.1 hd
    obtain ⟨m, hm, n, hn, -, escaped⟩ := exists_escape b
    rw [escaped] at hb
    simp only [List.mem_cons, List.not_mem_nil, or_false] at hb
    rcases hb with rfl | rfl | rfl
    · exact percent
    · exact digit m hm
    · exact digit n hn

end StagedTransfer.Percent
