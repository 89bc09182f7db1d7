import Mathlib.Tactic.Lemma
import StagedTransfer.Proofs.Json.Spelling

/-!
# Strings and numbers of a text

A string is read to its closing quote and a number to its last digit, as they are spelled. What
follows a number must not go on with it, so that after a value there may only stand what can end it.
-/

namespace StagedTransfer.Json

open Utf8 (Glyph)

/-! ### Blanks -/

lemma isBlank_char {c : Char} : isBlank (.char c) = true ↔ c ∈ blanks := by
  simp [isBlank, blanks, or_assoc]

lemma skipBlanks_append {b : List Char} (hb : Blank b) (s : List Glyph) :
    skipBlanks (b.map .char ++ s) = skipBlanks s := by
  induction b with
  | nil => rfl
  | cons c b ih =>
    have first : isBlank (.char c) = true := isBlank_char.2 (hb c List.mem_cons_self)
    have others : Blank b := fun d hd => hb d (List.mem_cons_of_mem c hd)
    rw [List.map_cons, List.cons_append, skipBlanks, List.dropWhile_cons_of_pos first]
    exact ih others

lemma skipBlanks_cons {c : Char} (hc : c ∉ blanks) (s : List Glyph) :
    skipBlanks (.char c :: s) = .char c :: s :=
  List.dropWhile_cons_of_neg fun h => hc (isBlank_char.1 h)

/-- Nothing but blanks stands before the character. -/
lemma skipBlanks_append_cons {b : List Char} (hb : Blank b) {c : Char} (hc : c ∉ blanks)
    (s : List Glyph) : skipBlanks (b.map .char ++ .char c :: s) = .char c :: s := by
  rw [skipBlanks_append hb, skipBlanks_cons hc]

/-! ### Strings -/

lemma charsOf?_high {n : Nat} (hn : Draft.isHigh n = true) (m : Nat) (s : List Sign) :
    charsOf? (.unit n :: .unit m :: s) =
      if Draft.isLow m then (charsOf? s).map (pairChar n m :: ·) else none := by
  rw [charsOf?.eq_def]
  simp [hn]

lemma charsOf?_other {n : Nat} (hn : ¬Draft.isHigh n = true) (s : List Sign) :
    charsOf? (.unit n :: s) =
      if Draft.isLow n then none else (charsOf? s).map (Char.ofNat n :: ·) := by
  rw [charsOf?.eq_def]
  simp [hn]

/-- The draft after one more sign. -/
def Draft.sign (d : Draft) : Sign → Draft
  | .char c => d.push c
  | .unit n => d.unit n

lemma escaped?_of_mem {e c : Char} (h : (e, c) ∈ shortEscapes) :
    e ≠ 'u' ∧ escaped? e = some c := by
  simp only [shortEscapes, List.mem_cons, Prod.mk.injEq, List.not_mem_nil, or_false] at h
  rcases h with ⟨rfl, rfl⟩ | ⟨rfl, rfl⟩ | ⟨rfl, rfl⟩ | ⟨rfl, rfl⟩ | ⟨rfl, rfl⟩ | ⟨rfl, rfl⟩ |
    ⟨rfl, rfl⟩ | ⟨rfl, rfl⟩ <;> decide

lemma readString_quote (d : Draft) (s : List Glyph) :
    readString d (.char '"' :: s) = .closed d.finish s := by
  rw [readString.eq_def]
  rfl

lemma readString_plain (d : Draft) {c : Char} (quote : c ≠ '"') (backslash : c ≠ '\\')
    (visible : 0x20 ≤ c.toNat) (s : List Glyph) :
    readString d (.char c :: s) = readString (d.push c) s := by
  rw [readString.eq_def]
  exact (if_neg quote).trans ((if_neg backslash).trans (if_neg (Nat.not_lt.2 visible)))

lemma readString_short (d : Draft) {e c : Char} (h : (e, c) ∈ shortEscapes) (s : List Glyph) :
    readString d (.char '\\' :: .char e :: s) = readString (d.push c) s := by
  obtain ⟨other, named⟩ := escaped?_of_mem h
  rw [readString.eq_def]
  simp [other, named]

lemma readString_unit (d : Draft) {w x y z : Char} {n : Nat}
    (h : unitOf? (.char w) (.char x) (.char y) (.char z) = some n) (s : List Glyph) :
    readString d (.char '\\' :: .char 'u' :: .char w :: .char x :: .char y :: .char z :: s) =
      readString (d.unit n) s := by
  rw [readString.eq_def]
  simp [h]

/-- A string is read up to its closing quote, sign after sign. -/
lemma readString_of_spellsSigns {cs : List Char} {signs : List Sign} (h : SpellsSigns cs signs)
    (d : Draft) (rest : List Glyph) :
    readString d (cs.map .char ++ .char '"' :: rest) =
      .closed (signs.foldl Draft.sign d).finish rest := by
  induction h generalizing d with
  | nil => exact readString_quote d rest
  | plain visible quote backslash _ ih =>
    exact (readString_plain d quote backslash visible _).trans (ih _)
  | short escape _ ih => exact (readString_short d escape _).trans (ih _)
  | unit hw hx hy hz _ ih =>
    refine (readString_unit d ?_ _).trans (ih _)
    simp [unitOf?, hw, hx, hy, hz]

namespace Draft

lemma refused_settle {d : Draft} (h : d.refused = true) : d.settle.refused = true := by
  unfold settle
  split <;> simp [h]

lemma refused_sign {d : Draft} (h : d.refused = true) (s : Sign) : (d.sign s).refused = true := by
  cases s with
  | char c => exact refused_settle h
  | unit n =>
    simp only [sign, unit]
    split
    · split <;> simp [h]
    · split
      · exact h
      · split
        · rfl
        · exact refused_settle h

/-- Once half a character has been missed there is no string. -/
lemma finish_of_refused {d : Draft} (h : d.refused = true) (signs : List Sign) :
    (signs.foldl sign d).finish = none := by
  induction signs generalizing d with
  | nil => simp [finish, refused_settle h]
  | cons s signs ih => exact ih (refused_sign h s)

/-- A draft of nothing but characters. -/
def settled (chars : List Char) : Draft := ⟨chars, none, true, false⟩

/-- A draft that ends with the first half of a character. -/
def halfway (chars : List Char) (n : Nat) : Draft := ⟨chars, some n, true, false⟩

variable {chars : List Char} {signs : List Sign}

lemma map_push (c : Char) (o : Option (List Char)) :
    (o.map fun cs => String.ofList ((c :: chars).reverse ++ cs)) =
      (o.map (c :: ·)).map fun cs => String.ofList (chars.reverse ++ cs) := by
  cases o <;> simp

/-- The string of a draft and of the signs that are still to come, among which there may be the
second half of the last character. -/
lemma finish_foldl (chars : List Char) (signs : List Sign) :
    (signs.foldl sign (settled chars)).finish =
        ((charsOf? signs).map fun cs => String.ofList (chars.reverse ++ cs)) ∧
      ∀ n, isHigh n = true → (signs.foldl sign (halfway chars n)).finish =
        (charsOf? (.unit n :: signs)).map fun cs => String.ofList (chars.reverse ++ cs) := by
  -- On the signs, for both kinds of draft at once: a first half waits and a second half settles.
  induction signs generalizing chars with
  | nil =>
    refine ⟨by simp [finish, settled, settle, charsOf?], fun n hn => ?_⟩
    simp [finish, halfway, settle, charsOf?, hn]
  | cons s signs ih =>
    cases s with
    | char c =>
      refine ⟨(ih (c :: chars)).1.trans (map_push c _), fun n hn => ?_⟩
      rw [List.foldl_cons, finish_of_refused rfl]
      simp [charsOf?, hn]
    | unit m =>
      refine ⟨?_, fun n hn => ?_⟩
      · by_cases high : isHigh m = true
        · have waits : (settled chars).sign (.unit m) = halfway chars m := by
            simp [sign, unit, settled, halfway, high]
          rw [List.foldl_cons, waits, (ih chars).2 m high]
        rw [charsOf?_other high]
        by_cases low : isLow m = true
        · rw [List.foldl_cons, finish_of_refused (by simp [sign, unit, settled, high, low]),
            if_pos low, Option.map_none]
        · have pushed : (settled chars).sign (.unit m) = settled (Char.ofNat m :: chars) := by
            simp [sign, unit, settled, high, low, push, settle]
          rw [List.foldl_cons, pushed, (ih _).1, map_push, if_neg low]
      · rw [charsOf?_high hn]
        by_cases low : isLow m = true
        · have paired : (halfway chars n).sign (.unit m) = settled (pairChar n m :: chars) := by
            simp [sign, unit, halfway, settled, low, pairChar]
          rw [List.foldl_cons, paired, (ih _).1, map_push, if_pos low]
        · rw [List.foldl_cons, finish_of_refused (by simp [sign, unit, halfway, low]), if_neg low,
            Option.map_none]

end Draft

/-- The string that is read between quotes. -/
theorem readString_of_spells {text : List Char} {s : Option String} (h : SpellsString text s) :
    ∃ inner, text = '"' :: inner ∧
      ∀ rest, readString .empty (inner.map .char ++ rest) = .closed s rest := by
  obtain ⟨cs, signs, spelled, rfl, rfl⟩ := h
  refine ⟨cs ++ ['"'], rfl, fun rest => ?_⟩
  have finished : (signs.foldl Draft.sign .empty).finish = stringOf? signs :=
    (Draft.finish_foldl [] signs).1
  rw [List.map_append, List.append_assoc, ← finished]
  exact readString_of_spellsSigns spelled .empty rest

/-! ### Numbers -/

/-- The text goes on with something that may follow a value. -/
def Ends (rest : List Glyph) : Prop :=
  ∀ g ∈ rest.head?, ∃ c ∈ blanks ++ [',', ']', '\x7d'], g = .char c

lemma Ends.nil : Ends [] := by
  simp [Ends]

lemma Ends.cons {c : Char} (hc : c ∈ [',', ']', '\x7d']) (rest : List Glyph) :
    Ends (.char c :: rest) := by
  intro g hg
  obtain rfl := Option.mem_some.1 hg
  exact ⟨c, List.mem_append_right _ hc, rfl⟩

lemma Ends.append {b : List Char} (hb : Blank b) {rest : List Glyph} (hr : Ends rest) :
    Ends (b.map .char ++ rest) := by
  cases b with
  | nil => exact hr
  | cons c b =>
    intro g hg
    obtain rfl := Option.mem_some.1 hg
    exact ⟨c, List.mem_append_left _ (hb c List.mem_cons_self), rfl⟩

/-- A text in which no number goes on. -/
structure Ended (rest : List Glyph) : Prop where
  digit : ∀ g ∈ rest.head?, digit? g = none
  point : rest.head? ≠ some (.char '.')
  mark : ∀ g ∈ rest.head?, ¬(g = .char 'e' ∨ g = .char 'E')

lemma Ends.ended {rest : List Glyph} (h : Ends rest) : Ended rest := by
  have each : ∀ c ∈ blanks ++ [',', ']', '\x7d'],
      digit? (.char c) = none ∧ c ≠ '.' ∧ c ≠ 'e' ∧ c ≠ 'E' := by
    intro c hc
    simp only [blanks, List.cons_append, List.nil_append, List.mem_cons, List.not_mem_nil,
      or_false] at hc
    rcases hc with rfl | rfl | rfl | rfl | rfl | rfl | rfl <;> decide
  refine ⟨fun g hg => ?_, fun hg => ?_, fun g hg => ?_⟩
  · obtain ⟨c, hc, rfl⟩ := h g hg
    exact (each c hc).1
  · obtain ⟨c, hc, hd⟩ := h _ hg
    exact (each c hc).2.1 (Glyph.char.inj hd).symm
  · obtain ⟨c, hc, rfl⟩ := h g hg
    simpa using (each c hc).2.2

lemma digit?_char {c : Char} (hc : IsDigit c) : digit? (.char c) = some (c.toNat - '0'.toNat) :=
  if_pos hc

/-- Digits are read up to what is none. -/
lemma readDigits_append {cs : List Char} (hcs : ∀ c ∈ cs, IsDigit c) {rest : List Glyph}
    (hr : ∀ g ∈ rest.head?, digit? g = none) :
    readDigits (cs.map .char ++ rest) = (digitsOf cs, rest) := by
  induction cs with
  | nil =>
    cases rest with
    | nil => rfl
    | cons g rest => simp [readDigits, hr g rfl, digitsOf]
  | cons c cs ih =>
    have others : ∀ d ∈ cs, IsDigit d := fun d hd => hcs d (List.mem_cons_of_mem c hd)
    rw [List.map_cons, List.cons_append, readDigits, digit?_char (hcs c List.mem_cons_self)]
    simp only [ih others]
    rfl

lemma Digits.digitsOf_ne_nil {cs : List Char} (h : Digits cs) : digitsOf cs ≠ [] := by
  simpa [digitsOf] using h.1

lemma readExponent_append {negative : Bool} {whole fraction : List Nat} {cs : List Char}
    {e : Option (Bool × List Nat)} (h : SpellsExponent cs e) {rest : List Glyph} (hr : Ended rest) :
    readExponent negative whole fraction (cs.map .char ++ rest) =
      (numberRead ⟨negative, whole, fraction, e⟩, some rest) := by
  cases h with
  | absent =>
    cases rest with
    | nil => rfl
    | cons g rest => exact if_neg (hr.mark g rfl)
  | @present e sign cs below mark signed digits =>
    have mark' : Glyph.char e = .char 'e' ∨ Glyph.char e = .char 'E' := by simpa using mark
    have read := readDigits_append digits.2 hr.digit
    have some' := digits.digitsOf_ne_nil
    rw [List.map_cons, List.map_append, List.cons_append, List.append_assoc]
    cases signed with
    | plus =>
      change readExponent _ _ _ (.char e :: .char '+' :: (cs.map .char ++ rest)) = _
      rw [readExponent, if_pos mark']
      simp only [read, if_neg some']
    | minus =>
      change readExponent _ _ _ (.char e :: .char '-' :: (cs.map .char ++ rest)) = _
      rw [readExponent, if_pos mark']
      simp only [read, if_neg some']
    | absent =>
      -- Without a sign the first digit must not be taken for one.
      obtain ⟨c, cs, rfl⟩ := List.exists_cons_of_ne_nil digits.1
      have digit := digits.2 c List.mem_cons_self
      rw [List.map_nil, List.nil_append, readExponent, if_pos mark']
      · simp only [read, if_neg some']
      · intro s hs
        obtain rfl := Glyph.char.inj (List.cons.inj hs).1
        exact absurd digit (by decide)
      · intro s hs
        obtain rfl := Glyph.char.inj (List.cons.inj hs).1
        exact absurd digit (by decide)

/-- Neither a digit nor a point stands where an exponent may stand. -/
lemma SpellsExponent.head {cs : List Char} {e : Option (Bool × List Nat)} (h : SpellsExponent cs e)
    {rest : List Glyph} (hr : Ended rest) :
    (∀ g ∈ (cs.map Glyph.char ++ rest).head?, digit? g = none) ∧
      (cs.map Glyph.char ++ rest).head? ≠ some (.char '.') := by
  cases h with
  | absent => exact ⟨hr.digit, hr.point⟩
  | present mark _ _ => rcases mark with rfl | rfl <;> exact ⟨by simp; decide, by simp⟩

/-- The zero that stands alone is the only one that comes first. -/
lemma Whole.not_padded {cs : List Char} (h : Whole cs) :
    ¬((digitsOf cs).head? = some 0 ∧ 1 < (digitsOf cs).length) := by
  obtain ⟨⟨-, digits⟩, alone⟩ := h
  rintro ⟨zero, long⟩
  cases cs with
  | nil => cases zero
  | cons c cs =>
    have low : '0'.toNat ≤ c.toNat := (digits c List.mem_cons_self).1
    have first : c = '0' := by
      have value : c.toNat - '0'.toNat = 0 := Option.some.inj zero
      exact Char.toNat_inj.1 (Nat.le_antisymm (Nat.sub_eq_zero_iff_le.1 value) low)
    obtain ⟨-, rfl⟩ := List.cons.inj (alone (congrArg some first))
    exact absurd long (by simp [digitsOf])

/-- A number is read to its end. -/
theorem readNumber_of_spells {negative : Bool} {cs : List Char} {t : NumberText}
    (h : SpellsNumber negative cs t) {rest : List Glyph} (hr : Ends rest) :
    readNumber negative (cs.map .char ++ rest) = (numberRead t, some rest) := by
  obtain ⟨whole, fraction, exponent⟩ := h
  obtain ⟨digit, point⟩ := exponent.head hr.ended
  cases fraction with
  | absent =>
    have read := readDigits_append whole.1.2 digit
    rw [List.map_append, List.append_assoc, List.nil_append, readNumber]
    simp only [read, if_neg whole.1.digitsOf_ne_nil, if_neg whole.not_padded]
    split
    · next hs => exact absurd (by rw [hs]; rfl) point
    · exact readExponent_append exponent hr.ended
  | present digits =>
    have read := readDigits_append digits.2 digit
    have ended (s : List Glyph) : ∀ g ∈ (Glyph.char '.' :: s).head?, digit? g = none := by
      simp
      decide
    have read' (s : List Glyph) := readDigits_append whole.1.2 (ended s)
    rw [List.map_append, List.append_assoc, readNumber]
    simp only [List.map_append, List.map_cons, List.cons_append, List.append_assoc, read', read,
      if_neg whole.1.digitsOf_ne_nil, if_neg whole.not_padded, if_neg digits.digitsOf_ne_nil]
    exact readExponent_append exponent hr.ended

end StagedTransfer.Json
