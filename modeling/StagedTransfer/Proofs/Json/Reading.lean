import StagedTransfer.Proofs.Json.Scanning

/-!
# What is read in a text

A text that spells a reading is read as it, and nothing in it goes wrong.
-/

namespace StagedTransfer.Json

open Utf8 (Glyph)

/-! ### First characters -/

lemma readValue_append {b : List Char} (hb : Blank b) (n : Nat) (s : List Glyph) :
    readValue n (b.map .char ++ s) = readValue n s := by
  cases n with
  | zero => rfl
  | succ n => rw [readValue, readValue, skipBlanks_append hb]

lemma readValue_quote (n : Nat) (s : List Glyph) :
    readValue (n + 1) (.char '"' :: s) = match readString .empty s with
      | .closed (some t) rest => (.string t, some rest)
      | .closed none rest     => (.refused, some rest)
      | .broken b             => (.broken b, none) := by
  rw [readValue, skipBlanks_cons (by decide)]
  rfl

lemma readValue_bracket (n : Nat) {s s' : List Glyph} {g : Glyph} (hs : skipBlanks s = g :: s') :
    readValue (n + 1) (.char '[' :: s) =
      if g = .char ']' then (.array [] none, some s')
      else (.array (readItems n (g :: s')).1 (readItems n (g :: s')).2.1,
        (readItems n (g :: s')).2.2) := by
  rw [readValue, skipBlanks_cons (by decide)]
  simp [hs]

lemma readValue_brace (n : Nat) {s s' : List Glyph} {g : Glyph} (hs : skipBlanks s = g :: s') :
    readValue (n + 1) (.char '\x7b' :: s) =
      if g = .char '\x7d' then (.object [] none, some s')
      else (.object (readMembers n (g :: s')).1 (readMembers n (g :: s')).2.1,
        (readMembers n (g :: s')).2.2) := by
  rw [readValue, skipBlanks_cons (by decide)]
  simp [hs]

lemma readWord_append (word : List Char) (rest : List Glyph) :
    readWord word (word.map .char ++ rest) = .ok rest := by
  induction word with
  | nil => rfl
  | cons c word ih => simpa [readWord] using ih

lemma readValue_null (n : Nat) (rest : List Glyph) :
    readValue (n + 1) (['n', 'u', 'l', 'l'].map .char ++ rest) = (.null, some rest) := by
  rw [List.map_cons, List.cons_append, readValue, skipBlanks_cons (by decide)]
  simp only [readNamed, readWord_append]
  rfl

lemma readValue_bool (n : Nat) (b : Bool) (rest : List Glyph) :
    readValue (n + 1) ((boolChars b).map .char ++ rest) = (.bool b, some rest) := by
  cases b <;>
  · rw [boolChars]
    simp only [if_true, if_false, Bool.false_eq_true, List.map_cons, List.cons_append]
    rw [readValue, skipBlanks_cons (by decide)]
    rfl

lemma readValue_minus (n : Nat) (s : List Glyph) :
    readValue (n + 1) (.char '-' :: s) = readNumber true s := by
  rw [readValue, skipBlanks_cons (by decide)]
  rfl

lemma IsDigit.not_mem_blanks {c : Char} (hc : IsDigit c) : c ∉ blanks := by
  intro blank
  simp only [blanks, List.mem_cons, List.not_mem_nil, or_false] at blank
  rcases blank with rfl | rfl | rfl | rfl <;> exact absurd hc (by decide)

lemma readValue_digit (n : Nat) {c : Char} (hc : IsDigit c) (s : List Glyph) :
    readValue (n + 1) (.char c :: s) = readNumber false (.char c :: s) := by
  have apart {d : Char} (hd : ¬IsDigit d) : c ≠ d := by
    rintro rfl
    exact hd hc
  rw [readValue, skipBlanks_cons hc.not_mem_blanks]
  simp only [apart (show ¬IsDigit '"' by decide), apart (show ¬IsDigit '[' by decide),
    apart (show ¬IsDigit '\x7b' by decide), apart (show ¬IsDigit 'n' by decide),
    apart (show ¬IsDigit 't' by decide), apart (show ¬IsDigit 'f' by decide),
    apart (show ¬IsDigit '-' by decide), if_false]
  exact if_pos hc

/-! ### Items and members -/

variable {n : Nat} {s s' rest : List Glyph} {r : Reading}

lemma readItems_append {b : List Char} (hb : Blank b) (n : Nat) (s : List Glyph) :
    readItems n (b.map .char ++ s) = readItems n s := by
  cases n with
  | zero => rfl
  | succ n => rw [readItems, readItems, readValue_append hb]

lemma readItems_last (hv : readValue n s = (r, some s')) (hs : skipBlanks s' = .char ']' :: rest) :
    readItems (n + 1) s = ([r], none, some rest) := by
  rw [readItems, hv]
  simp [hs]

lemma readItems_more (hv : readValue n s = (r, some s')) (hs : skipBlanks s' = .char ',' :: rest) :
    readItems (n + 1) s =
      (r :: (readItems n rest).1, (readItems n rest).2.1, (readItems n rest).2.2) := by
  rw [readItems, hv]
  simp [hs]

lemma readMembers_append {b : List Char} (hb : Blank b) (n : Nat) (s : List Glyph) :
    readMembers n (b.map .char ++ s) = readMembers n s := by
  cases n with
  | zero => rfl
  | succ n => rw [readMembers, readMembers, skipBlanks_append hb]

/-- A member is read with the colon after its key and with what ends it. -/
lemma readMembers_key {key : List Char} {k : Option String} (hk : SpellsKey key k)
    (hv : readValue n s = (r, some s')) :
    (skipBlanks s' = .char '\x7d' :: rest →
      readMembers (n + 1) (key.map .char ++ .char ':' :: s) = ([(k, r)], none, some rest)) ∧
    (skipBlanks s' = .char ',' :: rest →
      readMembers (n + 1) (key.map .char ++ .char ':' :: s) =
        ((k, r) :: (readMembers n rest).1, (readMembers n rest).2.1,
          (readMembers n rest).2.2)) := by
  obtain ⟨blank, string, blank'⟩ := hk
  obtain ⟨inner, rfl, read⟩ := readString_of_spells string
  have colon := skipBlanks_append_cons blank' (show ':' ∉ blanks by decide) s
  rw [List.map_append, List.append_assoc, readMembers_append blank, readMembers, List.map_append,
    List.map_cons, List.cons_append, List.cons_append, List.append_assoc,
    skipBlanks_cons (by decide)]
  constructor
  · intro closed
    simp [read, colon, hv, closed]
  · intro comma
    simp [read, colon, hv, comma]

/-! ### Values -/

/-- A value begins with neither a blank nor what ends an array. -/
lemma Spells.head {text : List Char} (h : Spells text r) :
    ∃ c cs, text = c :: cs ∧ c ∉ blanks ∧ c ≠ ']' := by
  cases h with
  | null => exact ⟨_, _, rfl, by decide, by decide⟩
  | bool b => cases b <;> exact ⟨_, _, rfl, by decide, by decide⟩
  | positive number =>
    obtain ⟨whole, -, -⟩ := number
    obtain ⟨c, cs, rfl⟩ := List.exists_cons_of_ne_nil whole.1.1
    have digit := whole.1.2 c List.mem_cons_self
    refine ⟨c, _, rfl, digit.not_mem_blanks, ?_⟩
    rintro rfl
    exact absurd digit (by decide)
  | string string =>
    obtain ⟨_, _, -, -, rfl⟩ := string
    exact ⟨_, _, rfl, by decide, by decide⟩
  | refused string =>
    obtain ⟨_, _, -, -, rfl⟩ := string
    exact ⟨_, _, rfl, by decide, by decide⟩
  | negative | emptyArray | array | emptyObject | object => exact ⟨_, _, rfl, by decide, by decide⟩

lemma SpellsText.head {cs : List Char} (h : SpellsText cs r) :
    ∃ before c tail, cs = before ++ c :: tail ∧ Blank before ∧ c ∉ blanks ∧ c ≠ ']' := by
  obtain ⟨blank, value, -⟩ := h
  obtain ⟨c, cs, rfl, hc⟩ := value.head
  exact ⟨_, c, _, rfl, blank, hc⟩

lemma SpellsItems.head {cs : List Char} {items : List Reading} (h : SpellsItems cs items) :
    ∃ before c tail, cs = before ++ c :: tail ∧ Blank before ∧ c ∉ blanks ∧ c ≠ ']' := by
  cases h with
  | last value => exact value.head
  | more value _ =>
    obtain ⟨before, c, tail, rfl, hc⟩ := value.head
    exact ⟨before, c, _, List.append_assoc _ _ _, hc⟩

lemma SpellsMembers.head {cs : List Char} {members : List (Option String × Reading)}
    (h : SpellsMembers cs members) : ∃ before tail, cs = before ++ '"' :: tail ∧ Blank before := by
  cases h with
  | last key _ =>
    obtain ⟨blank, ⟨_, _, -, -, rfl⟩, -⟩ := key
    exact ⟨_, _, List.append_assoc _ _ _, blank⟩
  | more key _ _ =>
    obtain ⟨blank, ⟨_, _, -, -, rfl⟩, -⟩ := key
    exact ⟨_, _, List.append_assoc _ _ _, blank⟩

mutual

/-- A value is read to its last character. Each of its characters may take two levels of depth. -/
theorem readValue_of_spells {text : List Char} {r : Reading} (h : Spells text r) {n : Nat}
    (hn : 2 * text.length ≤ n) {rest : List Glyph} (hr : Ends rest) :
    readValue n (text.map .char ++ rest) = (r, some rest) := by
  obtain ⟨n, rfl⟩ : ∃ m, n = m + 1 := by
    obtain ⟨c, cs, rfl, -⟩ := h.head
    exact Nat.exists_eq_add_one.2 (Nat.lt_of_lt_of_le (by simp) hn)
  match h with
  | .null => exact readValue_null n rest
  | .bool b => exact readValue_bool n b rest
  | .positive number =>
    have read := readNumber_of_spells number hr
    obtain ⟨whole, -, -⟩ := number
    obtain ⟨c, cs, rfl⟩ := List.exists_cons_of_ne_nil whole.1.1
    exact (readValue_digit n (whole.1.2 c List.mem_cons_self) _).trans read
  | .negative number => exact (readValue_minus n _).trans (readNumber_of_spells number hr)
  | .string string =>
    obtain ⟨inner, rfl, read⟩ := readString_of_spells string
    rw [List.map_cons, List.cons_append, readValue_quote, read]
  | .refused string =>
    obtain ⟨inner, rfl, read⟩ := readString_of_spells string
    rw [List.map_cons, List.cons_append, readValue_quote, read]
  | .emptyArray blank =>
    have closed := skipBlanks_append_cons blank (show ']' ∉ blanks by decide) rest
    rw [List.map_cons, List.cons_append, List.map_append, List.append_assoc]
    exact (readValue_bracket n closed).trans (if_pos rfl)
  | .array list =>
    obtain ⟨before, c, tail, rfl, blank, visible, item⟩ := list.head
    -- Without its bracket the text is shorter, which pays for the level that the list takes.
    have fuel : 2 * (before ++ c :: tail).length < n := by
      simp only [List.length_cons, List.length_append, List.length_nil] at hn ⊢
      omega
    have read := readItems_of_spells list fuel rest
    rw [List.map_append, List.append_assoc, readItems_append blank] at read
    have first := skipBlanks_append_cons blank visible (tail.map .char ++ .char ']' :: rest)
    rw [List.map_cons, List.cons_append, List.map_append, List.map_append, List.append_assoc,
      List.append_assoc]
    refine (readValue_bracket n first).trans ?_
    rw [if_neg fun h => item (Glyph.char.inj h)]
    exact congrArg (fun read => (Reading.array read.1 read.2.1, read.2.2)) read
  | .emptyObject blank =>
    have closed := skipBlanks_append_cons blank (show '\x7d' ∉ blanks by decide) rest
    rw [List.map_cons, List.cons_append, List.map_append, List.append_assoc]
    exact (readValue_brace n closed).trans (if_pos rfl)
  | .object list =>
    obtain ⟨before, tail, rfl, blank⟩ := list.head
    have fuel : 2 * (before ++ '"' :: tail).length < n := by
      simp only [List.length_cons, List.length_append, List.length_nil] at hn ⊢
      omega
    have read := readMembers_of_spells list fuel rest
    rw [List.map_append, List.append_assoc, readMembers_append blank] at read
    have first := skipBlanks_append_cons blank (show '"' ∉ blanks by decide)
      (tail.map .char ++ .char '\x7d' :: rest)
    rw [List.map_cons, List.cons_append, List.map_append, List.map_append, List.append_assoc,
      List.append_assoc]
    refine (readValue_brace n first).trans ?_
    rw [if_neg (by simp)]
    exact congrArg (fun read => (Reading.object read.1 read.2.1, read.2.2)) read

theorem readValue_of_spellsText {text : List Char} {r : Reading} (h : SpellsText text r) {n : Nat}
    (hn : 2 * text.length ≤ n) {rest : List Glyph} (hr : Ends rest) :
    ∃ after, Blank after ∧
      readValue n (text.map .char ++ rest) = (r, some (after.map .char ++ rest)) := by
  match h with
  | @SpellsText.intro before text after _ blank value blank' =>
    have fuel : 2 * text.length ≤ n := by
      simp only [List.length_append] at hn
      omega
    refine ⟨after, blank', ?_⟩
    rw [List.map_append, List.append_assoc, readValue_append blank, List.map_append,
      List.append_assoc]
    exact readValue_of_spells value fuel (hr.append blank')

theorem readItems_of_spells {cs : List Char} {items : List Reading} (h : SpellsItems cs items)
    {n : Nat} (hn : 2 * cs.length < n) (rest : List Glyph) :
    readItems n (cs.map .char ++ .char ']' :: rest) = (items, none, some rest) := by
  obtain ⟨n, rfl⟩ := Nat.exists_eq_add_one.2 (Nat.zero_lt_of_lt hn)
  match h with
  | .last value =>
    obtain ⟨after, blank, read⟩ :=
      readValue_of_spellsText value (Nat.le_of_lt_succ hn) (@Ends.cons ']' (by decide) rest)
    exact readItems_last read (skipBlanks_append_cons blank (by decide) rest)
  | @SpellsItems.more cs others _ items value list =>
    simp only [List.length_append, List.length_cons] at hn
    have fuel : 2 * cs.length ≤ n := by omega
    have fuel' : 2 * others.length < n := by omega
    obtain ⟨after, blank, read⟩ := readValue_of_spellsText value fuel
      (@Ends.cons ',' (by decide) (others.map .char ++ .char ']' :: rest))
    have read' := readItems_of_spells list fuel' rest
    rw [List.map_append, List.map_cons, List.append_assoc, List.cons_append,
      readItems_more read (skipBlanks_append_cons blank (by decide) _), read']

theorem readMembers_of_spells {cs : List Char} {members : List (Option String × Reading)}
    (h : SpellsMembers cs members) {n : Nat} (hn : 2 * cs.length < n) (rest : List Glyph) :
    readMembers n (cs.map .char ++ .char '\x7d' :: rest) = (members, none, some rest) := by
  obtain ⟨n, rfl⟩ := Nat.exists_eq_add_one.2 (Nat.zero_lt_of_lt hn)
  match h with
  | @SpellsMembers.last key cs _ _ name value =>
    have fuel : 2 * cs.length ≤ n := by
      simp only [List.length_append, List.length_cons] at hn
      omega
    obtain ⟨after, blank, read⟩ :=
      readValue_of_spellsText value fuel (@Ends.cons '\x7d' (by decide) rest)
    rw [List.map_append, List.map_cons, List.append_assoc, List.cons_append]
    exact (readMembers_key name read).1 (skipBlanks_append_cons blank (by decide) rest)
  | @SpellsMembers.more key cs others _ _ members name value list =>
    simp only [List.length_append, List.length_cons] at hn
    have fuel : 2 * cs.length ≤ n := by omega
    have fuel' : 2 * others.length < n := by omega
    obtain ⟨after, blank, read⟩ := readValue_of_spellsText value fuel
      (@Ends.cons ',' (by decide) (others.map .char ++ .char '\x7d' :: rest))
    have read' := readMembers_of_spells list fuel' rest
    rw [List.map_append, List.map_cons, List.append_assoc, List.cons_append, List.map_append,
      List.map_cons, List.append_assoc, List.cons_append,
      (readMembers_key name read).2 (skipBlanks_append_cons blank (by decide) _), read']

end

/-! ### Texts -/

/-- A text that spells a reading is read as it to its end. -/
theorem read_of_spells {text : List Char} {r : Reading} (h : SpellsText text r) :
    read (text.map .char) = ⟨r, false⟩ := by
  have fuel : 2 * text.length ≤ 2 * (text.map Glyph.char).length + 2 := by simp
  obtain ⟨after, blank, value⟩ := readValue_of_spellsText h fuel Ends.nil
  have ended : skipBlanks (after.map .char ++ []) = [] := skipBlanks_append blank []
  rw [List.append_nil] at value
  rw [read, value]
  simp only [ended]
  rfl

end StagedTransfer.Json
