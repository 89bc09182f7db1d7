import StagedTransfer.Json.Parsing
import StagedTransfer.Proofs.Json.Reading

/-!
# What a JSON text means

The value that a reading means, arrays and objects nested no deeper than is allowed, and texts in
texts to any depth: an object that begins with the key of an embedded text has no other member and
means what that text means. A text that spells a reading is parsed to the value that it means, since
an embedded text is shorter than the text around it.
-/

namespace StagedTransfer.Json

variable {r : Reading} {items : List Reading} {members : List (Option String × Reading)}
  {v : Value} {values : List Value} {named : List (String × Value)} {d n : Nat}
  {text cs : List Char} {s : String}

mutual

/-- The reading means the value, and no more than `depth` arrays and objects stand inside each
other. -/
inductive Means : Reading → (depth : Nat) → Value → Prop
  | null {d : Nat} : Means .null d .null
  | bool {d : Nat} (b : Bool) : Means (.bool b) d (.bool b)
  | number {d : Nat} (n : Number) : Means (.number n) d (.number n)
  | string {d : Nat} (s : String) : Means (.string s) d (.string s)
  | array {d : Nat} {items : List Reading} {values : List Value} (each : MeansEach items d values) :
    Means (.array items none) (d + 1) (.array values)
  | object {d : Nat} {members : List (Option String × Reading)} {named : List (String × Value)}
    (plain : embedding? members = none) (each : MeansUnder members d named) :
    Means (.object members none) (d + 1) (.object named)
  /-- The text of a value stands for the value. -/
  | embedded {d : Nat} {text : String} {r : Reading} {v : Value} (spells : SpellsText text.toList r)
    (means : Means r depthLimit v) :
    Means (.object [(some embeddingKey, .string text)] none) (d + 1) v

inductive MeansEach : List Reading → (depth : Nat) → List Value → Prop
  | nil {d : Nat} : MeansEach [] d []
  | cons {d : Nat} {r : Reading} {v : Value} {items : List Reading} {values : List Value}
    (first : Means r d v) (rest : MeansEach items d values) : MeansEach (r :: items) d (v :: values)

inductive MeansUnder : List (Option String × Reading) → (depth : Nat) → List (String × Value) → Prop
  | nil {d : Nat} : MeansUnder [] d []
  | cons {d : Nat} {k : String} {r : Reading} {v : Value} {members : List (Option String × Reading)}
    {named : List (String × Value)} (first : Means r d v) (rest : MeansUnder members d named) :
    MeansUnder ((some k, r) :: members) d ((k, v) :: named)

end

/-! ### What spells a reading -/

/-- The reading is that of a number, which may be too large for one. -/
def Reading.isNumeral : Reading → Bool
  | .number _ | .refused => true
  | _                    => false

lemma isNumeral_of_numberRead {t : NumberText} (h : r = numberRead t) : r.isNumeral = true := by
  rw [h, numberRead]
  split <;> rfl

lemma Spells.of_string (h : Spells text (.string s)) : SpellsString text (some s) := by
  generalize hr : Reading.string s = r at h
  cases h with
  | string string => cases hr; exact string
  | positive | negative => exact absurd (isNumeral_of_numberRead hr) Bool.false_ne_true
  | _ => cases hr

lemma Spells.of_array (h : Spells text (.array items none)) :
    items = [] ∨ ∃ cs, SpellsItems cs items ∧ text = '[' :: (cs ++ [']']) := by
  generalize hr : Reading.array items none = r at h
  cases h with
  | emptyArray => cases hr; exact .inl rfl
  | array list => cases hr; exact .inr ⟨_, list, rfl⟩
  | positive | negative => exact absurd (isNumeral_of_numberRead hr) Bool.false_ne_true
  | _ => cases hr

lemma Spells.of_object (h : Spells text (.object members none)) :
    members = [] ∨ ∃ cs, SpellsMembers cs members ∧ text = '\x7b' :: (cs ++ ['\x7d']) := by
  generalize hr : Reading.object members none = r at h
  cases h with
  | emptyObject => cases hr; exact .inl rfl
  | object list => cases hr; exact .inr ⟨_, list, rfl⟩
  | positive | negative => exact absurd (isNumeral_of_numberRead hr) Bool.false_ne_true
  | _ => cases hr

/-! ### Lengths -/

lemma SpellsText.exists_spells (h : SpellsText cs r) :
    ∃ text, Spells text r ∧ text.length ≤ cs.length := by
  obtain ⟨blank, value, blank'⟩ := h
  refine ⟨_, value, ?_⟩
  simp only [List.length_append]
  omega

lemma SpellsSigns.length_le {signs : List Sign} (h : SpellsSigns cs signs) :
    signs.length ≤ cs.length := by
  induction h with
  | nil => exact Nat.le_refl _
  | plain => simpa
  | short _ _ ih => simp only [List.length_cons]; omega
  | unit _ _ _ _ _ ih => simp only [List.length_cons]; omega

lemma length_le_of_charsOf? {signs : List Sign} {chars : List Char}
    (h : charsOf? signs = some chars) : chars.length ≤ signs.length := by
  fun_induction charsOf? signs generalizing chars with
  | case1 =>
    obtain rfl := Option.some.inj h
    exact Nat.le_refl _
  | case2 c signs ih =>
    obtain ⟨rest, named, rfl⟩ := Option.map_eq_some_iff.1 h
    exact Nat.succ_le_succ (ih named)
  | case3 n _ m signs _ ih =>
    obtain ⟨rest, named, rfl⟩ := Option.map_eq_some_iff.1 h
    exact Nat.le_succ_of_le (Nat.succ_le_succ (ih named))
  | case7 n signs _ _ ih =>
    obtain ⟨rest, named, rfl⟩ := Option.map_eq_some_iff.1 h
    exact Nat.succ_le_succ (ih named)
  | _ => cases h

/-- A string is shorter than the text that spells it. -/
lemma SpellsString.length_lt (h : SpellsString text (some s)) : s.toList.length < text.length := by
  obtain ⟨cs, signs, spells, names, rfl⟩ := h
  obtain ⟨chars, named, rfl⟩ := Option.map_eq_some_iff.1 names
  have := length_le_of_charsOf? named
  have := spells.length_le
  simp only [String.toList_ofList, List.length_cons, List.length_append]
  omega

/-- An embedded text is shorter than the object that holds it. -/
lemma Spells.length_lt_of_embedded {k : Option String}
    (h : Spells text (.object [(k, .string s)] none)) : s.toList.length < text.length := by
  rcases h.of_object with none' | ⟨cs, list, rfl⟩
  · cases none'
  · cases list with
    | last key value =>
      obtain ⟨inner, value, short⟩ := value.exists_spells
      have := value.of_string.length_lt
      simp only [List.length_cons, List.length_append]
      omega
    | more _ _ others => cases others

/-! ### Parsing -/

/-- How an embedded text is read. -/
def parseEmbedded (n : Nat) (text : String) : Except ReadError Value :=
  (parseUpTo n (Utf8.glyphsOf text)).mapError .embedded

lemma parseUpTo_of_spells (spells : SpellsText cs r)
    (value : r.toValue (parseEmbedded n) depthLimit = .ok v) :
    parseUpTo (n + 1) (cs.map .char) = .ok v := by
  rw [parseUpTo, read_of_spells spells]
  simp only
  rw [show (fun text => (parseUpTo n (Utf8.glyphsOf text)).mapError ReadError.embedded)
    = parseEmbedded n from rfl, value]
  rfl

mutual

/-- The fuel is as long as the text, and each text is shorter than the one around it. -/
theorem toValue_of_means {r : Reading} {d n : Nat} {v : Value} {text : List Char} (h : Means r d v)
    (spells : Spells text r) (fuel : text.length ≤ n) :
    r.toValue (parseEmbedded n) d = .ok v := by
  match h with
  | .null | .bool b | .number _ | .string _ => rfl
  | .array each =>
    rw [Reading.toValue]
    rcases spells.of_array with rfl | ⟨cs, list, rfl⟩
    · cases each
      rfl
    · have inner : cs.length ≤ n := by
        simp only [List.length_cons, List.length_append] at fuel
        omega
      rw [valuesOf_of_means each list inner]
      rfl
  | .object plain each =>
    rw [Reading.toValue, plain]
    rcases spells.of_object with rfl | ⟨cs, list, rfl⟩
    · cases each
      rfl
    · have inner : cs.length ≤ n := by
        simp only [List.length_cons, List.length_append] at fuel
        omega
      simp only
      rw [memberValuesOf_of_means each list inner]
      rfl
  | @Means.embedded _ t _ _ embeds means =>
    have short := spells.length_lt_of_embedded
    obtain ⟨m, rfl⟩ := Nat.exists_eq_add_one.2 (Nat.zero_lt_of_lt (Nat.lt_of_lt_of_le short fuel))
    obtain ⟨inner, value, within⟩ := embeds.exists_spells
    have parsed := parseUpTo_of_spells embeds (toValue_of_means means value (n := m) (by omega))
    have embedded' : parseEmbedded (m + 1) t = .ok v := by
      rw [parseEmbedded, Utf8.glyphsOf, parsed]
      rfl
    simp only [Reading.toValue, embedding?, if_true, embedded, embedded']
    rfl

theorem valuesOf_of_means {items : List Reading} {d n : Nat} {values : List Value}
    {cs : List Char} (h : MeansEach items d values) (spells : SpellsItems cs items)
    (fuel : cs.length ≤ n) : valuesOf (parseEmbedded n) items d = .ok values := by
  match h, spells with
  | .cons first .nil, .last value =>
    obtain ⟨text, value, short⟩ := value.exists_spells
    simp only [valuesOf, toValue_of_means first value (Nat.le_trans short fuel)]
    rfl
  | .cons first rest, .more value others =>
    obtain ⟨text, value, short⟩ := value.exists_spells
    simp only [List.length_append, List.length_cons] at fuel
    simp only [valuesOf, toValue_of_means first value (n := n) (by omega),
      valuesOf_of_means rest others (n := n) (by omega)]
    rfl

theorem memberValuesOf_of_means {members : List (Option String × Reading)} {d n : Nat}
    {named : List (String × Value)} {cs : List Char} (h : MeansUnder members d named)
    (spells : SpellsMembers cs members) (fuel : cs.length ≤ n) :
    memberValuesOf (parseEmbedded n) members d = .ok named := by
  match h, spells with
  | .cons first .nil, .last key value =>
    obtain ⟨text, value, short⟩ := value.exists_spells
    simp only [List.length_append, List.length_cons] at fuel
    simp only [memberValuesOf, toValue_of_means first value (n := n) (by omega)]
    rfl
  | .cons first rest, .more key value others =>
    obtain ⟨text, value, short⟩ := value.exists_spells
    simp only [List.length_append, List.length_cons] at fuel
    simp only [memberValuesOf, toValue_of_means first value (n := n) (by omega),
      memberValuesOf_of_means rest others (n := n) (by omega)]
    rfl

end

/-- A text is parsed to what it means. -/
theorem parse_of_means (spells : SpellsText cs r) (means : Means r depthLimit v) :
    parse (cs.map .char) = .ok v := by
  obtain ⟨text, value, short⟩ := spells.exists_spells
  have fuel : text.length ≤ (cs.map Utf8.Glyph.char).length := by rwa [List.length_map]
  exact parseUpTo_of_spells spells (toValue_of_means means value fuel)

/-! ### Members -/

/-- The value is that of the last member with the key. -/
def LastUnder (key : String) (named : List (String × Value)) (v : Value) : Prop :=
  ∃ before after, named = before ++ (key, v) :: after ∧ ∀ m ∈ after, m.1 ≠ key

lemma member?_eq_some_iff {key : String} :
    (Value.object named).member? key = some v ↔ LastUnder key named v := by
  rw [Value.member?, Option.map_eq_some_iff]
  constructor
  · rintro ⟨⟨k, v⟩, found, rfl⟩
    obtain ⟨same, before, after, split, others⟩ := List.find?_eq_some_iff_append.1 found
    obtain rfl : k = key := of_decide_eq_true same
    refine ⟨after.reverse, before.reverse, ?_, fun m hm => ?_⟩
    · rw [← List.reverse_reverse named, split]
      simp
    · simpa using others m (List.mem_reverse.1 hm)
  · rintro ⟨before, after, rfl, others⟩
    refine ⟨(key, v), List.find?_eq_some_iff_append.2 ⟨decide_eq_true rfl, after.reverse,
      before.reverse, by simp, fun m hm => ?_⟩, rfl⟩
    simpa using others m (List.mem_reverse.1 hm)

end StagedTransfer.Json
