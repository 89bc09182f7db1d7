import StagedTransfer.Http.Url
import StagedTransfer.Proofs.Encoding.Percent

/-!
# Segments of a path

The segments of a path that is put together from plain segments, and what becomes of it if one of
them is `.` or `..`, however it is spelled.
-/

namespace StagedTransfer

variable {cs : List Char} {segments : List (List Char)}

/-! ### Pieces -/

namespace Text

lemma pieces_of_not_mem {separator : Char} (h : separator ∉ cs) : pieces separator cs = [cs] := by
  induction cs with
  | nil => rfl
  | cons c cs ih =>
    rw [pieces, if_neg (Ne.symm (List.ne_of_not_mem_cons h)), ih (List.not_mem_of_not_mem_cons h)]

lemma pieces_append_cons {separator : Char} (h : separator ∉ cs) (rest : List Char) :
    pieces separator (cs ++ separator :: rest) = cs :: pieces separator rest := by
  induction cs with
  | nil => rw [List.nil_append, pieces, if_pos rfl]
  | cons c cs ih =>
    rw [List.cons_append, pieces, if_neg (Ne.symm (List.ne_of_not_mem_cons h)),
      ih (List.not_mem_of_not_mem_cons h)]

/-- The pieces of a text that is put together from them. -/
lemma pieces_intercalate {separator : Char} (some' : segments ≠ [])
    (h : ∀ s ∈ segments, separator ∉ s) :
    pieces separator ([separator].intercalate segments) = segments := by
  induction segments with
  | nil => exact absurd rfl some'
  | cons s segments ih =>
    have first := h s List.mem_cons_self
    cases segments with
    | nil => rw [List.intercalate_singleton, pieces_of_not_mem first]
    | cons t segments =>
      rw [List.intercalate_cons_cons, List.append_assoc, List.singleton_append,
        pieces_append_cons first, ih (List.cons_ne_nil _ _)
          fun u hu => h u (List.mem_cons_of_mem _ hu)]

lemma forall_mem_intercalate {separator : Char} {p : Char → Prop} (between : p separator)
    (h : ∀ s ∈ segments, ∀ c ∈ s, p c) : ∀ c ∈ [separator].intercalate segments, p c := by
  induction segments with
  | nil => simp
  | cons s segments ih =>
    have first := h s List.mem_cons_self
    cases segments with
    | nil => rwa [List.intercalate_singleton]
    | cons t segments =>
      have rest := ih fun u hu => h u (List.mem_cons_of_mem _ hu)
      rw [List.intercalate_cons_cons]
      simp only [List.mem_append, List.mem_singleton]
      rintro c ((hc | rfl) | hc)
      · exact first c hc
      · exact between
      · exact rest c hc

end Text

namespace Http.Url

/-! ### Dots -/

lemma plainDots_cons_of_ne {c : Char} (h : c ≠ '%') : plainDots (c :: cs) = c :: plainDots cs := by
  rw [plainDots]
  · rintro ds rfl
    exact absurd rfl h
  · rintro ds rfl
    exact absurd rfl h

lemma upperDigit_ne : ∀ n < 16, Hex.upperDigit n ≠ '%' ∧ Hex.upperDigit n ≠ 'e' := by
  decide

lemma eq_of_upperDigit_eq_two : ∀ n < 16, Hex.upperDigit n = '2' → n = 2 := by
  decide

lemma eq_of_upperDigit_eq_e : ∀ n < 16, Hex.upperDigit n = 'E' → n = 14 := by
  decide

/-- A byte is spelled the same, dot or not. -/
lemma decode_plainDots_escape (b : UInt8) :
    Percent.decode (plainDots (Percent.escape b ++ cs)) = b :: Percent.decode (plainDots cs) := by
  obtain ⟨m, hm, n, hn, byte, escaped⟩ := Percent.exists_escape b
  by_cases dot : Hex.upperDigit m = '2' ∧ Hex.upperDigit n = 'E'
  · obtain ⟨two, e⟩ := dot
    obtain rfl := eq_of_upperDigit_eq_two m hm two
    obtain rfl := eq_of_upperDigit_eq_e n hn e
    rw [escaped, byte, two, e]
    exact Percent.decode_cons_of_ne (by decide)
  · have apart : plainDots (Percent.escape b ++ cs) = Percent.escape b ++ plainDots cs := by
      rw [escaped, List.cons_append, List.cons_append, List.cons_append, List.nil_append, plainDots,
        plainDots_cons_of_ne (upperDigit_ne m hm).1, plainDots_cons_of_ne (upperDigit_ne n hn).1]
      · rfl
      · rintro ds - same
        simp only [List.cons.injEq] at same
        exact (upperDigit_ne n hn).2 same.2.1
      · rintro ds - same
        simp only [List.cons.injEq] at same
        exact dot ⟨same.1, same.2.1⟩
    rw [apart, Percent.decode_escape_append]

lemma decode_plainDots_flatMap (bytes : Bytes) :
    Percent.decode (plainDots (bytes.flatMap Percent.escape ++ cs)) =
      bytes ++ Percent.decode (plainDots cs) := by
  induction bytes with
  | nil => rfl
  | cons b bytes ih =>
    rw [List.flatMap_cons, List.append_assoc, decode_plainDots_escape, ih, List.cons_append]

/-- A text that is encoded spells its bytes, with its dots spelled by their numbers or not. -/
lemma decode_plainDots_encode {keep : Char → Bool} (percent : keep '%' = false) (cs : List Char) :
    Percent.decode (plainDots (Percent.encode keep cs)) = Utf8.encodeChars cs := by
  induction cs with
  | nil => rfl
  | cons c cs ih =>
    rw [Percent.encode, List.flatMap_cons, ← Percent.encode, Percent.encodeChar]
    split
    · rename_i kept
      have apart : c ≠ '%' := by
        rintro rfl
        simp [percent] at kept
      rw [List.singleton_append, plainDots_cons_of_ne apart, Percent.decode_cons_of_ne apart, ih]
      rfl
    · rw [decode_plainDots_flatMap, ih]
      rfl

/-- Only dots are spelled as dots. -/
lemma eq_of_plainDots_encode {keep : Char → Bool} (percent : keep '%' = false) {s : String}
    {dots : String} (h : plainDots (Percent.encode keep s.toList) = dots.toList)
    (plain : Percent.decode dots.toList = Utf8.encode dots) : s = dots := by
  have same : Utf8.encode s = Utf8.encode dots := by
    rw [Utf8.encode, ← decode_plainDots_encode percent, h, plain]
  have read := congrArg Utf8.decode? same
  rwa [Utf8.decode?_encode, Utf8.decode?_encode, Option.some.injEq] at read

/-- The name of a cluster is written as the segment `.` only if it is that itself. -/
lemma isHere_encode (s : String) :
    isHere (Percent.encode Percent.isPlain s.toList) = true ↔ s = "." := by
  constructor
  · intro here
    exact eq_of_plainDots_encode (by decide) (of_decide_eq_true here) (by decide)
  · rintro rfl
    decide

lemma isAbove_encode (s : String) :
    isAbove (Percent.encode Percent.isPlain s.toList) = true ↔ s = ".." := by
  constructor
  · intro above
    exact eq_of_plainDots_encode (by decide) (of_decide_eq_true above) (by decide)
  · rintro rfl
    decide

/-! ### Paths -/

/-- The segment stays in a path. -/
def Stays (s : List Char) : Prop :=
  isHere s = false ∧ isAbove s = false

instance (s : List Char) : Decidable (Stays s) :=
  inferInstanceAs (Decidable (_ ∧ _))

lemma plainDots_of_not_mem (h : '%' ∉ cs) : plainDots cs = cs := by
  induction cs with
  | nil => rfl
  | cons c cs ih =>
    rw [plainDots_cons_of_ne (Ne.symm (List.ne_of_not_mem_cons h)),
      ih (List.not_mem_of_not_mem_cons h)]

lemma stays_of_not_mem (percent : '%' ∉ cs) (dot : '.' ∉ cs) : Stays cs := by
  have apart : ∀ ds, '.' ∈ ds → cs ≠ ds := by
    rintro ds mem rfl
    exact dot mem
  rw [Stays, isHere, isAbove, plainDots_of_not_mem percent]
  exact ⟨decide_eq_false (apart _ (by decide)), decide_eq_false (apart _ (by decide))⟩

variable {before : List (List Char)} {s : List Char}

lemma resolve_cons (some' : segments ≠ []) :
    resolve before (s :: segments) =
      if isAbove s then resolve before.dropLast segments
      else if isHere s then resolve before segments
      else resolve (before ++ [s]) segments := by
  cases segments with
  | nil => exact absurd rfl some'
  | cons t segments =>
    rw [resolve]
    simp

/-- Plain segments are the path that they make up. -/
lemma resolve_of_stays (h : ∀ s ∈ segments, Stays s) :
    resolve before segments = before ++ segments := by
  induction segments generalizing before with
  | nil => rw [resolve, List.append_nil]
  | cons s segments ih =>
    obtain ⟨here, above⟩ := h s List.mem_cons_self
    cases segments with
    | nil => simp only [resolve, here, above, Bool.false_eq_true, if_false]
    | cons t segments =>
      rw [resolve_cons (List.cons_ne_nil _ _), above, here, if_neg Bool.false_ne_true,
        if_neg Bool.false_ne_true, ih fun u hu => h u (List.mem_cons_of_mem _ hu),
        List.append_assoc, List.singleton_append]

/-- A character of a segment: it stays as it is in a path, and it is no slash of either kind. -/
def isSegmentChar (c : Char) : Bool :=
  isPathChar c && !isSlash c

lemma isSegmentChar_iff {c : Char} :
    isSegmentChar c = true ↔ isPathChar c = true ∧ c ≠ '/' ∧ c ≠ '\\' := by
  simp [isSegmentChar, isSlash]

/-- The path that plain segments are put together to is read as these, with dots resolved. -/
lemma pathOf_intercalate (some' : segments ≠ [])
    (plain : ∀ s ∈ segments, ∀ c ∈ s, isSegmentChar c = true) :
    pathOf (['/'].intercalate segments) = resolve [] segments := by
  have straight : ∀ c ∈ ['/'].intercalate segments, (if c = '\\' then '/' else c) = c :=
    Text.forall_mem_intercalate (by decide) fun s hs c hc =>
      if_neg (isSegmentChar_iff.1 (plain s hs c hc)).2.2
  have apart : ∀ s ∈ segments, '/' ∉ s := fun s hs slash =>
    (isSegmentChar_iff.1 (plain s hs '/' slash)).2.1 rfl
  have kept : ∀ s ∈ segments, Percent.encode isPathChar s = s := fun s hs =>
    Percent.encode_eq_self fun c hc => (isSegmentChar_iff.1 (plain s hs c hc)).1
  rw [pathOf, List.map_congr_left straight, List.map_id', Text.pieces_intercalate some' apart,
    List.map_congr_left kept, List.map_id']

end Http.Url

end StagedTransfer
