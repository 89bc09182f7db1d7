import StagedTransfer.Proofs.Json.Spelling

/-!
# The text of a value

The compact text of a value spells the value as it stands, members in their order, as long as its
numbers are integers that a text can stand for.
-/

namespace StagedTransfer.Json

/-! ### Strings -/

lemma digitValue?_digit : ∀ d < 16, Hex.digitValue? (Hex.digit d) = some d := by
  decide

/-- Four digits name a unit. -/
lemma spellsSigns_ofNat {n : Nat} (hn : n < 65536) {cs : List Char} {signs : List Sign}
    (h : SpellsSigns cs signs) :
    SpellsSigns ('\\' :: 'u' :: ((Hex.ofNat 4 n).toList ++ cs)) (.unit n :: signs) := by
  have digits : (Hex.ofNat 4 n).toList =
      [Hex.digit (n / 4096 % 16), Hex.digit (n / 256 % 16), Hex.digit (n / 16 % 16),
        Hex.digit (n % 16)] := by
    simp [Hex.ofNat, List.range_succ]
  have value : ((n / 4096 % 16 * 16 + n / 256 % 16) * 16 + n / 16 % 16) * 16 + n % 16 = n := by
    omega
  have each (m : Nat) : Hex.digitValue? (Hex.digit (m % 16)) = some (m % 16) :=
    digitValue?_digit _ (Nat.mod_lt _ (by decide))
  rw [digits]
  have spelled := SpellsSigns.unit (each (n / 4096)) (each (n / 256)) (each (n / 16)) (each n) h
  rwa [value] at spelled

/-- A character is spelled as it is escaped. -/
lemma spellsSigns_escapeChar (c : Char) {cs s : List Char} {signs : List Sign}
    (h : SpellsSigns cs signs) (hs : charsOf? signs = some s) :
    ∃ signs', SpellsSigns (escapeChar c ++ cs) signs' ∧ charsOf? signs' = some (c :: s) := by
  have same : charsOf? (.char c :: signs) = some (c :: s) := by
    rw [charsOf?, hs, Option.map_some]
  have short {e : Char} (he : (e, c) ∈ shortEscapes) (escaped : escapeChar c = ['\\', e]) :
      ∃ signs', SpellsSigns (escapeChar c ++ cs) signs' ∧ charsOf? signs' = some (c :: s) := by
    rw [escaped]
    exact ⟨_, .short he h, same⟩
  -- The characters with short escapes, in the order in which they are tried.
  by_cases quote : c = '"'
  · subst quote
    exact short (by decide) rfl
  by_cases backslash : c = '\\'
  · subst backslash
    exact short (by decide) rfl
  by_cases backspace : c = '\x08'
  · subst backspace
    exact short (by decide) rfl
  by_cases tab : c = '\t'
  · subst tab
    exact short (by decide) rfl
  by_cases newline : c = '\n'
  · subst newline
    exact short (by decide) rfl
  by_cases formFeed : c = '\x0c'
  · subst formFeed
    exact short (by decide) rfl
  by_cases return' : c = '\r'
  · subst return'
    exact short (by decide) rfl
  have escaped : escapeChar c =
      if c.toNat < 0x20 then '\\' :: 'u' :: controlDigits c else [c] := by
    simp only [escapeChar, quote, backslash, backspace, tab, newline, formFeed, return', if_false]
  rw [escaped]
  by_cases control : c.toNat < 0x20
  · have high : Draft.isHigh c.toNat = false := by
      simp only [Draft.isHigh, Bool.and_eq_false_imp, decide_eq_true_eq]
      omega
    have low : Draft.isLow c.toNat = false := by
      simp only [Draft.isLow, Bool.and_eq_false_imp, decide_eq_true_eq]
      omega
    rw [if_pos control]
    refine ⟨_, spellsSigns_ofNat (by omega) h, ?_⟩
    rw [charsOf?.eq_def]
    simp [high, low, hs]
  · rw [if_neg control]
    exact ⟨_, .plain (Nat.not_lt.1 control) quote backslash h, same⟩

lemma spellsSigns_escaped (cs : List Char) :
    ∃ signs, SpellsSigns (cs.flatMap escapeChar) signs ∧ charsOf? signs = some cs := by
  induction cs with
  | nil => exact ⟨[], .nil, rfl⟩
  | cons c cs ih =>
    obtain ⟨signs, spelled, chars⟩ := ih
    exact spellsSigns_escapeChar c spelled chars

theorem spellsString_quote (s : String) : SpellsString (quote s) (some s) := by
  obtain ⟨signs, spelled, chars⟩ := spellsSigns_escaped s.toList
  refine ⟨_, signs, spelled, ?_, rfl⟩
  rw [stringOf?, chars, Option.map_some, String.ofList_toList]

/-! ### Integers -/

/-- A number that a text can stand for: an integer of sixty-four bits, signed or not. -/
def Number.Fits : Number → Prop
  | .integer n => -Int.pow 2 63 ≤ n ∧ n ≤ greatestKept
  | .real _    => False

lemma digits_toDigits (n : Nat) : Digits (Nat.toDigits 10 n) := by
  refine ⟨Nat.toDigits_ne_nil, fun c hc => ?_⟩
  have digit := Nat.isDigit_of_mem_toDigits (by decide) (by decide) hc
  exact Char.isDigit_iff_toNat.1 digit

lemma ofDigits_toDigits (n : Nat) : Number.ofDigits (digitsOf (Nat.toDigits 10 n)) = n := by
  have value : Nat.ofDigitChars 10 (Nat.toDigits 10 n) 0 = n := Nat.ofDigitChars_ten_toDigits
  simpa only [Number.ofDigits, digitsOf, List.foldl_map, Nat.ofDigitChars, Nat.mul_comm] using value

/-- Only zero begins with a zero. -/
lemma head_toDigits {n : Nat} (hn : 0 < n) : (Nat.toDigits 10 n).head? ≠ some '0' := by
  induction n using Nat.strongRecOn with
  | ind n ih =>
    by_cases small : n < 10
    · rw [Nat.toDigits_of_lt_base small, List.head?_singleton]
      intro h
      exact Nat.ne_of_gt hn (Nat.digitChar_eq_zero.1 (Option.some.inj h))
    · have tens : 10 ≤ n := Nat.not_lt.1 small
      have first := ih (n / 10) (Nat.div_lt_self hn (by decide)) (Nat.div_pos tens (by decide))
      have some' : Nat.toDigits 10 (n / 10) ≠ [] := Nat.toDigits_ne_nil
      obtain ⟨c, cs, digits⟩ := List.exists_cons_of_ne_nil some'
      rw [digits] at first
      rwa [Nat.toDigits_of_base_le (by decide) tens, digits]

lemma whole_toDigits (n : Nat) : Whole (Nat.toDigits 10 n) := by
  refine ⟨digits_toDigits n, fun first => ?_⟩
  cases Nat.eq_zero_or_pos n with
  | inl zero => rw [zero]; rfl
  | inr pos => exact absurd first (head_toDigits pos)

lemma spellsNumber_toDigits (negative : Bool) (n : Nat) :
    SpellsNumber negative (Nat.toDigits 10 n)
      ⟨negative, digitsOf (Nat.toDigits 10 n), [], none⟩ := by
  have spelled : SpellsNumber negative (Nat.toDigits 10 n ++ ([] ++ []))
      ⟨negative, digitsOf (Nat.toDigits 10 n), [], none⟩ :=
    .intro (whole_toDigits n) .absent .absent
  rwa [List.append_nil, List.append_nil] at spelled

/-- Digits alone stand for an integer that fits. -/
lemma ofText_toDigits {negative : Bool} {n : Nat} (hn : n ≤ Number.greatestKept)
    (signed : negative = true → 0 < n ∧ n ≤ Nat.pow 2 63) :
    Number.ofText ⟨negative, digitsOf (Nat.toDigits 10 n), [], none⟩ =
      some (.integer (if negative then -n else n)) := by
  rw [Number.ofText, ofDigits_toDigits, if_pos ⟨rfl, rfl, hn⟩]
  cases negative with
  | false => rfl
  | true =>
    obtain ⟨pos, least⟩ := signed rfl
    exact (if_neg (by simp)).trans (if_neg (by omega))

theorem spells_integerChars {n : Int} (h : (Number.integer n).Fits) :
    Spells (integerChars n) (.number (.integer n)) := by
  have least : -9223372036854775808 ≤ n := h.1
  have greatest : n ≤ 18446744073709551615 := h.2
  by_cases sign : 0 ≤ n
  · obtain ⟨m, rfl⟩ := Int.eq_ofNat_of_zero_le sign
    have fits : m ≤ Number.greatestKept := Int.ofNat_le.1 greatest
    have value := @ofText_toDigits false m fits nofun
    have spelled := Spells.positive (spellsNumber_toDigits false m)
    rw [numberRead, value] at spelled
    rw [integerChars, if_pos sign]
    exact spelled
  · obtain ⟨m, rfl⟩ := Int.exists_eq_neg_ofNat (Int.le_of_lt (Int.not_le.1 sign))
    have pos : 0 < m := by omega
    have below : m ≤ 9223372036854775808 := by omega
    have fits : m ≤ Number.greatestKept := Nat.le_trans below (by decide)
    have value := @ofText_toDigits true m fits fun _ => ⟨pos, below⟩
    have spelled := Spells.negative (spellsNumber_toDigits true m)
    rw [numberRead, value] at spelled
    rw [integerChars, if_neg sign, Int.neg_neg]
    exact spelled

/-! ### Values -/

mutual

/-- A value as what its text holds: members stand as they do in the value. -/
def Value.asWritten : Value → Reading
  | .null           => .null
  | .bool b         => .bool b
  | .number n       => .number n
  | .string s       => .string s
  | .array items    => .array (itemsAsWritten items) none
  | .object members => .object (membersAsWritten members) none
termination_by structural v => v

def itemsAsWritten : List Value → List Reading
  | []         => []
  | v :: items => v.asWritten :: itemsAsWritten items
termination_by structural items => items

def membersAsWritten : List (String × Value) → List (Option String × Reading)
  | []                => []
  | (k, v) :: members => (some k, v.asWritten) :: membersAsWritten members
termination_by structural members => members

end

lemma itemsAsWritten_eq_map (items : List Value) :
    itemsAsWritten items = items.map Value.asWritten := by
  induction items with
  | nil => rfl
  | cons v items ih => exact congrArg (v.asWritten :: ·) ih

lemma membersAsWritten_eq_map (members : List (String × Value)) :
    membersAsWritten members = members.map fun m => (some m.1, m.2.asWritten) := by
  induction members with
  | nil => rfl
  | cons m members ih => exact congrArg ((some m.1, m.2.asWritten) :: ·) ih

mutual

/-- All numbers of the value can be written. -/
def Value.Fits : Value → Prop
  | .number n       => n.Fits
  | .array items    => ItemsFit items
  | .object members => MembersFit members
  | _               => True
termination_by structural v => v

def ItemsFit : List Value → Prop
  | []         => True
  | v :: items => v.Fits ∧ ItemsFit items
termination_by structural items => items

def MembersFit : List (String × Value) → Prop
  | []                => True
  | (_, v) :: members => v.Fits ∧ MembersFit members
termination_by structural members => members

end

lemma Blank.nil : Blank [] := by
  simp [Blank]

lemma Spells.alone {text : List Char} {r : Reading} (h : Spells text r) : SpellsText text r := by
  have around := SpellsText.intro .nil h .nil
  rwa [List.nil_append, List.append_nil] at around

lemma spellsKey_quote (k : String) : SpellsKey (quote k) (some k) := by
  have around := SpellsKey.intro .nil (spellsString_quote k) .nil
  rwa [List.nil_append, List.append_nil] at around

lemma membersFit_iff {members : List (String × Value)} :
    MembersFit members ↔ ∀ m ∈ members, m.2.Fits := by
  induction members with
  | nil => simp [MembersFit]
  | cons m members ih => simp [MembersFit, ih]

mutual

/-- The text of a value spells it. -/
theorem Value.spells (v : Value) (h : v.Fits) : Spells v.chars v.asWritten := by
  match v with
  | .null => exact .null
  | .bool b => exact .bool b
  | .number (.integer n) => exact spells_integerChars h
  | .string s => exact .string (spellsString_quote s)
  | .array [] => exact .emptyArray .nil
  | .array (v :: items) => exact .array (spellsItems (v :: items) (List.cons_ne_nil _ _) h)
  | .object [] => exact .emptyObject .nil
  | .object (m :: members) => exact .object (spellsMembers (m :: members) (List.cons_ne_nil _ _) h)

theorem spellsItems (items : List Value) (some' : items ≠ []) (h : ItemsFit items) :
    SpellsItems (itemsChars true items) (itemsAsWritten items) := by
  match items with
  | [v] =>
    have first := SpellsItems.last (v.spells h.1).alone
    simpa [itemsChars, itemsAsWritten] using first
  | v :: w :: items =>
    have others := spellsItems (w :: items) (List.cons_ne_nil _ _) h.2
    simpa [itemsChars, itemsAsWritten] using SpellsItems.more (v.spells h.1).alone others

theorem spellsMembers (members : List (String × Value)) (some' : members ≠ [])
    (h : MembersFit members) :
    SpellsMembers (membersChars true members) (membersAsWritten members) := by
  match members with
  | [(k, v)] =>
    have first := SpellsMembers.last (spellsKey_quote k) (v.spells h.1).alone
    simpa [membersChars, membersAsWritten] using first
  | (k, v) :: m :: members =>
    have others := spellsMembers (m :: members) (List.cons_ne_nil _ _) h.2
    have first := (v.spells h.1).alone
    simpa [membersChars, membersAsWritten] using
      SpellsMembers.more (spellsKey_quote k) first others

end

end StagedTransfer.Json
