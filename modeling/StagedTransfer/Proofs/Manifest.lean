import Mathlib.Tactic.Lemma
import StagedTransfer.Parts.Manifest

/-!
# What a store reads in a manifest

The document of a manifest is read back as that manifest, whatever characters its tags are made of:
neither a number nor an escaped tag holds the character that every mark begins with.
-/

namespace StagedTransfer.Manifest

/-! ### Marks -/

lemma afterPrefix?_append (expected s : List Char) :
    afterPrefix? expected (expected ++ s) = some s := by
  induction expected with
  | nil => cases s <;> rfl
  | cons c expected ih => simpa [afterPrefix?] using ih

/-- A text is cut at a mark if the first character of the mark stands nowhere before it. -/
lemma cutAt?_append {c : Char} {before : List Char} (hc : c ∉ before) (mark rest : List Char) :
    cutAt? (c :: mark) (before ++ (c :: mark ++ rest)) = some (before, rest) := by
  induction before with
  | nil =>
    have found := afterPrefix?_append (c :: mark) rest
    rw [List.cons_append] at found
    simp only [List.nil_append, List.cons_append, cutAt?, found]
  | cons d before ih =>
    rw [List.mem_cons, not_or] at hc
    obtain ⟨hd, hc⟩ := hc
    have elsewhere (s : List Char) : afterPrefix? (c :: mark) (d :: s) = none := by
      rw [afterPrefix?, if_neg hd]
    rw [List.cons_append]
    simp only [cutAt?, elsewhere, ih hc, Option.map_some]

/-! ### Numbers -/

lemma foldlM_digits {ds : List Char} (hds : ∀ c ∈ ds, c.isDigit = true) (n : Nat) :
    ds.foldlM (fun n c => if c.isDigit then some (n * 10 + (c.toNat - '0'.toNat)) else none) n =
      some (Nat.ofDigitChars 10 ds n) := by
  induction ds generalizing n with
  | nil => simp
  | cons c ds ih =>
    have first := hds c List.mem_cons_self
    have others : ∀ d ∈ ds, d.isDigit = true := fun d hd => hds d (List.mem_cons_of_mem c hd)
    simp only [List.foldlM_cons, first, if_true, Option.bind_eq_bind, Option.bind_some]
    rw [ih others, Nat.ofDigitChars_cons, Nat.mul_comm]

lemma isDigit_of_mem_toDigits {n : Nat} {c : Char} (hc : c ∈ Nat.toDigits 10 n) :
    c.isDigit = true :=
  Nat.isDigit_of_mem_toDigits (by decide) (by decide) hc

theorem numberOf?_toDigits (n : Nat) : numberOf? (Nat.toDigits 10 n) = some n := by
  have some' : (Nat.toDigits 10 n).isEmpty = false := by
    simp
  rw [numberOf?, some', if_neg Bool.false_ne_true,
    foldlM_digits fun _ => isDigit_of_mem_toDigits, Nat.ofDigitChars_ten_toDigits]

lemma not_mem_toDigits (n : Nat) : '<' ∉ Nat.toDigits 10 n := by
  intro h
  have digit := isDigit_of_mem_toDigits h
  revert digit
  decide

/-! ### Tags -/

/-- A character that is no ampersand stands for itself. -/
lemma unescape?_cons {c : Char} (hc : c ≠ '&') (s : List Char) :
    unescape? (c :: s) = (unescape? s).map (c :: ·) := by
  rw [unescape?, if_neg hc]
  all_goals exact fun _ h => absurd h hc

/-- Escapes are undone. -/
theorem unescape?_escape (cs : List Char) : unescape? (escape cs) = some cs := by
  induction cs with
  | nil => rfl
  | cons c cs ih =>
    rw [escape] at ih
    rw [escape, List.flatMap_cons]
    by_cases amp : c = '&'
    · subst amp
      simp only [escapeChar, if_true, List.cons_append, List.nil_append, unescape?, ih,
        Option.map_some]
    by_cases less : c = '<'
    · subst less
      simp only [escapeChar, amp, if_false, if_true, List.cons_append, List.nil_append, unescape?,
        ih, Option.map_some]
    by_cases greater : c = '>'
    · subst greater
      simp only [escapeChar, amp, less, if_false, if_true, List.cons_append, List.nil_append,
        unescape?, ih, Option.map_some]
    · have same : escapeChar c = [c] := by
        rw [escapeChar, if_neg amp, if_neg less, if_neg greater]
      rw [same, List.singleton_append, unescape?_cons amp, ih, Option.map_some]

/-- No mark begins in an escaped text. -/
lemma not_mem_escape (cs : List Char) : '<' ∉ escape cs := by
  intro h
  obtain ⟨c, -, hc⟩ := List.mem_flatMap.1 h
  unfold escapeChar at hc
  split at hc
  · simp at hc
  split at hc
  · simp at hc
  split at hc
  · simp at hc
  · next less _ =>
      obtain rfl := List.mem_singleton.1 hc
      exact less rfl

/-! ### Documents -/

lemma afterPrefix?_rootClosing_partChars (part : Nat × String) (s : List Char) :
    afterPrefix? rootClosing (partChars part ++ s) = none := rfl

/-- A part is read and what follows it. -/
lemma readParts?_partChars (fuel : Nat) (part : Nat × String) (s : List Char) :
    readParts? (fuel + 1) (partChars part ++ s) = (readParts? fuel s).map (part :: ·) := by
  have parts : partChars part ++ s = partOpening ++ (Nat.toDigits 10 part.1 ++
      (tagOpening ++ (escape part.2.toList ++ (partClosing ++ s)))) := by
    simp only [partChars, List.append_assoc]
  have number : cutAt? tagOpening (Nat.toDigits 10 part.1 ++
      (tagOpening ++ (escape part.2.toList ++ (partClosing ++ s)))) =
        some (Nat.toDigits 10 part.1, escape part.2.toList ++ (partClosing ++ s)) :=
    cutAt?_append (not_mem_toDigits part.1) _ _
  have tag : cutAt? partClosing (escape part.2.toList ++ (partClosing ++ s)) =
      some (escape part.2.toList, s) :=
    cutAt?_append (not_mem_escape part.2.toList) _ _
  rw [readParts?, afterPrefix?_rootClosing_partChars]
  simp only [parts, afterPrefix?_append, number, tag, numberOf?_toDigits, unescape?_escape,
    String.ofList_toList, Option.bind_eq_bind, Option.bind_some, Option.pure_def]
  cases readParts? fuel s <;> rfl

lemma readParts?_flatMap {parts : List (Nat × String)} {fuel : Nat} (hfuel : parts.length < fuel) :
    readParts? fuel (parts.flatMap partChars ++ rootClosing) = some parts := by
  induction parts generalizing fuel with
  | nil =>
    obtain ⟨fuel, rfl⟩ := Nat.exists_eq_add_one.2 hfuel
    have closed : afterPrefix? rootClosing rootClosing = some [] := by
      simpa using afterPrefix?_append rootClosing []
    simp [readParts?, closed]
  | cons part parts ih =>
    obtain ⟨fuel, rfl⟩ := Nat.exists_eq_add_one.2 (Nat.zero_lt_of_lt hfuel)
    rw [List.flatMap_cons, List.append_assoc, readParts?_partChars,
      ih (Nat.lt_of_succ_lt_succ hfuel), Option.map_some]

/-- Each part takes some characters. -/
lemma length_le_flatMap (parts : List (Nat × String)) :
    parts.length ≤ (parts.flatMap partChars).length := by
  induction parts with
  | nil => simp
  | cons part parts ih =>
    have first : 0 < (partChars part).length := Nat.zero_lt_succ _
    rw [List.flatMap_cons, List.length_append, List.length_cons]
    omega

/-- The document of a manifest is read back as that manifest. -/
theorem ofXml?_toXml (m : Manifest) : ofXml? m.toXml = some m := by
  have fuel : m.parts.length < (m.parts.flatMap partChars ++ rootClosing).length + 1 := by
    have := length_le_flatMap m.parts
    rw [List.length_append]
    omega
  rw [ofXml?, toXml, String.toList_ofList, chars, List.append_assoc, afterPrefix?_append]
  simp only [Option.bind_eq_bind, Option.bind_some, readParts?_flatMap fuel, Option.pure_def]

end StagedTransfer.Manifest
