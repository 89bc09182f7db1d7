import StagedTransfer.Proofs.Manifest

/-!
# What the document of a manifest tells

A tag may be made of any characters, those of markup and of escapes among them. None of it is taken
for markup: the document tells its parts, each with its number and its tag, and nothing else. The
main statement is `toXml_legible`.
-/

namespace StagedTransfer.Manifest

/-! ### Escapes undone one after the other -/

/-- The text in which a mark gives way to a character wherever it stands, the next `skip` characters
left out. -/
def undoFrom (mark : List Char) (c : Char) : (skip : Nat) → List Char → List Char
  | _,        []     => []
  | skip + 1, _ :: s => undoFrom mark c skip s
  | 0,        d :: s =>
    if mark.isPrefixOf (d :: s) then c :: undoFrom mark c (mark.length - 1) s
    else d :: undoFrom mark c 0 s

/-- The text in which the escape of a character gives way to it wherever it stands. -/
def undo (c : Char) (s : List Char) : List Char :=
  undoFrom (escapeChar c) c 0 s

/-- The text in which the escapes are undone one after the other. That of the ampersand comes last,
since what it leaves may look like another. -/
def undoAll (s : List Char) : List Char :=
  undo '&' (undo '>' (undo '<' s))

/-- A character as it is escaped, or as it is if it is one of `plain`. -/
def escapeBut (plain : List Char) (c : Char) : List Char :=
  if c ∈ plain then [c] else escapeChar c

def isMarkup (c : Char) : Prop :=
  c = '&' ∨ c = '<' ∨ c = '>'

lemma escapeChar_of_not_isMarkup {c : Char} (hc : ¬isMarkup c) : escapeChar c = [c] := by
  simp only [isMarkup, not_or] at hc
  rw [escapeChar, if_neg hc.1, if_neg hc.2.1, if_neg hc.2.2]

/-- No escape begins with a character that is no ampersand. -/
lemma undo_cons {c d : Char} (hc : isMarkup c) (hd : d ≠ '&') (s : List Char) :
    undo c (d :: s) = d :: undo c s := by
  have elsewhere : (escapeChar c).isPrefixOf (d :: s) = false := by
    rcases hc with rfl | rfl | rfl <;> simp [escapeChar, List.isPrefixOf, Ne.symm hd]
  simp [undo, undoFrom, elsewhere]

/-- In an escaped text the escape of a character stands only for that character. -/
lemma undo_escapeChar {c d : Char} (hc : isMarkup c) (hd : isMarkup d) (s : List Char) :
    undo c (escapeChar d ++ s) = (if d = c then [d] else escapeChar d) ++ undo c s := by
  rcases hc with rfl | rfl | rfl <;> rcases hd with rfl | rfl | rfl <;> rfl

lemma undo_escapeBut {c : Char} (hc : isMarkup c) {plain : List Char} (hp : '&' ∉ plain) (d : Char)
    (s : List Char) :
    undo c (escapeBut plain d ++ s) = escapeBut (c :: plain) d ++ undo c s := by
  by_cases mem : d ∈ plain
  · have amp : d ≠ '&' := fun h => hp (h ▸ mem)
    simpa [escapeBut, mem] using undo_cons hc amp s
  have here : escapeBut plain d = escapeChar d := if_neg mem
  rw [here]
  by_cases hd : isMarkup d
  · rw [undo_escapeChar hc hd]
    simp only [escapeBut, List.mem_cons, mem, or_false]
  · have amp : d ≠ '&' := fun h => hd (.inl h)
    simpa [escapeBut, escapeChar_of_not_isMarkup hd] using undo_cons hc amp s

/-- The escapes of one more character are undone. -/
lemma undo_flatMap {c : Char} (hc : isMarkup c) {plain : List Char} (hp : '&' ∉ plain)
    (cs : List Char) :
    undo c (cs.flatMap (escapeBut plain)) = cs.flatMap (escapeBut (c :: plain)) := by
  induction cs with
  | nil => rfl
  | cons d cs ih => rw [List.flatMap_cons, undo_escapeBut hc hp, ih, List.flatMap_cons]

/-- An escaped text is itself again once its escapes have been undone one after the other. -/
theorem undoAll_escape (cs : List Char) : undoAll (escape cs) = cs := by
  have none' : escapeBut [] = escapeChar := funext fun c => if_neg List.not_mem_nil
  have all : escapeBut ['&', '>', '<'] = fun c => [c] := by
    funext c
    by_cases hc : isMarkup c
    · rcases hc with rfl | rfl | rfl <;> rfl
    · simp [escapeBut, escapeChar_of_not_isMarkup hc]
  calc undoAll (escape cs)
      = undo '&' (undo '>' (undo '<' (cs.flatMap (escapeBut [])))) := by rw [none', undoAll, escape]
    _ = undo '&' (undo '>' (cs.flatMap (escapeBut ['<']))) := by
        rw [undo_flatMap (.inr (.inl rfl)) (by decide)]
    _ = undo '&' (cs.flatMap (escapeBut ['>', '<'])) := by
        rw [undo_flatMap (.inr (.inr rfl)) (by decide)]
    _ = cs.flatMap fun c => [c] := by rw [undo_flatMap (.inl rfl) (by decide), all]
    _ = cs := List.flatMap_singleton' cs

/-- The other way round a tag that looks like an escape is lost. -/
example : undo '<' (undo '&' (escape ['&', 'l', 't', ';'])) = ['<'] := by decide

/-! ### Marks in a document -/

/-- At how many places of a text a mark begins. -/
def occurrences (mark : List Char) : List Char → Nat
  | []     => 0
  | c :: s => if mark.isPrefixOf (c :: s) then occurrences mark s + 1 else occurrences mark s

/-- What each part begins with. -/
def partMark : List Char :=
  "<Part>".toList

/-- A mark begins nowhere in a text without its first character. -/
lemma occurrences_append {c : Char} {s : List Char} (hc : c ∉ s) (mark t : List Char) :
    occurrences (c :: mark) (s ++ t) = occurrences (c :: mark) t := by
  induction s with
  | nil => rfl
  | cons d s ih =>
    rw [List.mem_cons, not_or] at hc
    have elsewhere : (c :: mark).isPrefixOf (d :: (s ++ t)) = false := by
      simp [List.isPrefixOf, hc.1]
    rw [List.cons_append, occurrences, elsewhere, if_neg Bool.false_ne_true, ih hc.2]

/-- A part has its one mark at its beginning. -/
lemma occurrences_partChars (part : Nat × String) (s : List Char) :
    occurrences partMark (partChars part ++ s) = occurrences partMark s + 1 := by
  have opens (t : List Char) :
      occurrences partMark (partOpening ++ t) = occurrences partMark t + 1 := rfl
  have goesOn (t : List Char) :
      occurrences partMark (tagOpening ++ t) = occurrences partMark t := rfl
  have closes (t : List Char) :
      occurrences partMark (partClosing ++ t) = occurrences partMark t := rfl
  have number (t : List Char) :
      occurrences partMark (Nat.toDigits 10 part.1 ++ t) = occurrences partMark t :=
    occurrences_append (not_mem_toDigits part.1) _ t
  have tag (t : List Char) :
      occurrences partMark (escape part.2.toList ++ t) = occurrences partMark t :=
    occurrences_append (not_mem_escape part.2.toList) _ t
  simp only [partChars, List.append_assoc, opens, number, goesOn, tag, closes]

lemma occurrences_flatMap (parts : List (Nat × String)) (s : List Char) :
    occurrences partMark (parts.flatMap partChars ++ s) =
      parts.length + occurrences partMark s := by
  induction parts with
  | nil => simp
  | cons part parts ih =>
    rw [List.flatMap_cons, List.append_assoc, occurrences_partChars, ih, List.length_cons]
    omega

/-- A document has as many marks of parts as it has parts. -/
theorem occurrences_chars (m : Manifest) : occurrences partMark m.chars = m.parts.length := by
  have opens (t : List Char) : occurrences partMark (rootOpening ++ t) = occurrences partMark t :=
    rfl
  have closes : occurrences partMark rootClosing = 0 := rfl
  rw [chars, List.append_assoc, opens, occurrences_flatMap, closes, Nat.add_zero]

/-! ### Documents -/

/-- The document of a manifest tells all of it and nothing else. -/
structure Legible (m : Manifest) : Prop where
  /-- Cut at its marks and with its escapes undone, it holds the parts in order. -/
  read : ofXml? m.toXml = some m
  /-- Each tag comes out as it was, whether its escapes are undone in one go or one after the
  other. -/
  tags : ∀ part ∈ m.parts, unescape? (escape part.2.toList) = some part.2.toList ∧
    undoAll (escape part.2.toList) = part.2.toList
  /-- No other manifest has the same document. -/
  alone : ∀ m' : Manifest, m'.toXml = m.toXml ↔ m' = m
  /-- It has as many marks of parts as it has parts. -/
  marks : occurrences partMark m.toXml.toList = m.parts.length

/-- A document tells its manifest, whatever characters the tags are made of. -/
theorem toXml_legible (m : Manifest) : Legible m where
  read := ofXml?_toXml m
  tags part _ := ⟨unescape?_escape part.2.toList, undoAll_escape part.2.toList⟩
  alone m' := by
    constructor
    · intro same
      have reads := ofXml?_toXml m'
      rw [same, ofXml?_toXml] at reads
      exact (Option.some.inj reads).symm
    · exact congrArg toXml
  marks := by rw [toXml, String.toList_ofList, occurrences_chars]

end StagedTransfer.Manifest
