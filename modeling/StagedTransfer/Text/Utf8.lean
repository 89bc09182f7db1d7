/-!
# Texts as bytes

A body or a file arrives as bytes that are meant to be UTF-8. `glyphs` splits them into the
characters they spell and the bytes that spell none, so that a reader can go on past a byte it
does not have to understand. Strict readers ask for `decode?`, reports use `decodeLossy`.
-/

namespace StagedTransfer

/-- Raw content, in order. -/
abbrev Bytes := List UInt8

namespace Utf8

/-! ### Writing -/

/-- The byte that carries six bits inside a character. -/
def tailByte (n : Nat) : UInt8 :=
  UInt8.ofNat (0x80 + n % 64)

/-- The one to four bytes that spell a character. -/
def encodeChar (c : Char) : Bytes :=
  let n := c.toNat
  if n < 0x80 then [UInt8.ofNat n]
  else if n < 0x800 then [UInt8.ofNat (0xC0 + n / 64), tailByte n]
  else if n < 0x10000 then [UInt8.ofNat (0xE0 + n / 4096), tailByte (n / 64), tailByte n]
  else [UInt8.ofNat (0xF0 + n / 262144), tailByte (n / 4096), tailByte (n / 64), tailByte n]

def encodeChars (cs : List Char) : Bytes :=
  cs.flatMap encodeChar

def encode (s : String) : Bytes :=
  encodeChars s.toList

/-! ### Reading one character -/

def isTail (b : UInt8) : Bool :=
  0x80 ≤ b.toNat && b.toNat < 0xC0

/-- The character with the given number, if the number is at least `least` and names one: spellings
that are too long, surrogates and numbers past the last character are refused. -/
def charFrom? (least n : Nat) : Option Char :=
  if h : least ≤ n ∧ n.isValidChar then some (Char.ofNatAux n h.2) else none

/-- The character that the bytes begin with, and the bytes after it. -/
def readChar? : Bytes → Option (Char × Bytes)
  | []     => none
  | a :: s =>
    let a := a.toNat
    if a < 0x80 then
      (charFrom? 0 a).map (·, s)
    else if a < 0xC0 then
      none
    else match s with
      | []     => none
      | b :: s =>
        if !isTail b then none
        else if a < 0xE0 then
          (charFrom? 0x80 ((a - 0xC0) * 64 + b.toNat % 64)).map (·, s)
        else match s with
          | []     => none
          | c :: s =>
            if !isTail c then none
            else if a < 0xF0 then
              (charFrom? 0x800 (((a - 0xE0) * 64 + b.toNat % 64) * 64 + c.toNat % 64)).map (·, s)
            else match s with
              | []     => none
              | d :: s =>
                if !isTail d || 0xF8 ≤ a then none
                else
                  (charFrom? 0x10000 ((((a - 0xF0) * 64 + b.toNat % 64) * 64 + c.toNat % 64) * 64
                    + d.toNat % 64)).map (·, s)

/-! ### Glyphs -/

inductive Glyph
  | char (c : Char)
  /-- A byte that belongs to no well-formed character. -/
  | stray (b : UInt8)
  deriving DecidableEq, Repr

/-- At most `fuel` items of a text. -/
def glyphsUpTo : (fuel : Nat) → Bytes → List Glyph
  | 0,     _      => []
  | _,     []     => []
  | n + 1, b :: s =>
    match readChar? (b :: s) with
    | some (c, rest) => .char c  :: glyphsUpTo n rest
    | none           => .stray b :: glyphsUpTo n s

/-- The items of a text given as bytes. Each takes at least one byte, so their number is bounded
by the number of bytes. -/
def glyphs (bytes : Bytes) : List Glyph :=
  glyphsUpTo bytes.length bytes

/-- The items of a text that is made of characters already. -/
def glyphsOf (s : String) : List Glyph :=
  s.toList.map Glyph.char

/-- The characters of a list of items, provided that no byte is left over. -/
def chars? : List Glyph → Option (List Char)
  | []            => some []
  | .char c :: gs => (chars? gs).map (c :: ·)
  | .stray _ :: _ => none

/-- The text that the bytes spell, if they are well-formed throughout. -/
def decode? (bytes : Bytes) : Option String :=
  (chars? (glyphs bytes)).map String.ofList

/-! ### Reading with replacements -/

/-- The character shown for bytes that spell nothing. -/
def replacement : Char := '\uFFFD'

/-- The bytes that may come second after the lead byte `a`, for leads of more than two bytes. -/
def allowsSecond (a b : UInt8) : Bool :=
  let low  := if a = 0xE0 then 0xA0 else if a = 0xF0 then 0x90 else 0x80
  let high := if a = 0xED then 0x9F else if a = 0xF4 then 0x8F else 0xBF
  low ≤ b && b ≤ high

/-- How many bytes of a text that begins with no character are shown as one replacement: the
longest beginning of a character, and at least one byte. -/
def brokenLength : Bytes → Nat
  | a :: b :: s =>
    if 0xE0 ≤ a && a ≤ 0xF4 && allowsSecond a b then
      match s with
      | c :: _ => if 0xF0 ≤ a && isTail c then 3 else 2
      | []     => 2
    else 1
  | _ => 1

/-- At most `fuel` characters of a text, with replacements. -/
def lossyUpTo : (fuel : Nat) → Bytes → List Char
  | 0,     _      => []
  | _,     []     => []
  | n + 1, b :: s =>
    match readChar? (b :: s) with
    | some (c, rest) => c :: lossyUpTo n rest
    | none           => replacement :: lossyUpTo n ((b :: s).drop (brokenLength (b :: s)))

/-- The text that bytes spell, with one replacement character for each maximal broken spelling. -/
def decodeLossy (bytes : Bytes) : String :=
  String.ofList (lossyUpTo bytes.length bytes)

/-! ### Basic lemmas -/

theorem charFrom?_toNat {least : Nat} {c : Char} (h : least ≤ c.toNat) :
    charFrom? least c.toNat = some c := by
  have hv : c.toNat.isValidChar := c.valid
  rw [charFrom?, dif_pos ⟨h, hv⟩]
  rfl

theorem isTail_tailByte (n : Nat) : isTail (tailByte n) = true := by
  have : (tailByte n).toNat = 0x80 + n % 64 := by
    rw [tailByte, UInt8.toNat_ofNat']
    omega
  simp only [isTail, this, Bool.and_eq_true, decide_eq_true_eq]
  omega

theorem toNat_tailByte_mod (n : Nat) : (tailByte n).toNat % 64 = n % 64 := by
  rw [tailByte, UInt8.toNat_ofNat']
  omega

theorem toNat_ofNat_of_lt {n : Nat} (h : n < 256) : (UInt8.ofNat n).toNat = n := by
  rw [UInt8.toNat_ofNat']
  exact Nat.mod_eq_of_lt h

/-- Reading a character undoes writing it, whatever follows. -/
theorem readChar?_encodeChar_append (c : Char) (s : Bytes) :
    readChar? (encodeChar c ++ s) = some (c, s) := by
  have hv : c.toNat < 0x110000 := by
    rcases c.valid with h | h
    · exact Nat.lt_trans h (by decide)
    · exact h.2
  simp only [encodeChar]
  split
  · rename_i h
    simp only [List.cons_append, List.nil_append, readChar?,
      toNat_ofNat_of_lt (show c.toNat < 256 by omega)]
    rw [if_pos h, charFrom?_toNat (Nat.zero_le _)]
    rfl
  · split
    · rename_i h₁ h₂
      simp only [List.cons_append, List.nil_append, readChar?,
        toNat_ofNat_of_lt (show 0xC0 + c.toNat / 64 < 256 by omega)]
      rw [if_neg (by omega), if_neg (by omega), isTail_tailByte, if_neg (by simp),
        if_pos (by omega), toNat_tailByte_mod,
        show (0xC0 + c.toNat / 64 - 0xC0) * 64 + c.toNat % 64 = c.toNat by omega,
        charFrom?_toNat (by omega)]
      rfl
    · split
      · rename_i h₁ h₂ h₃
        simp only [List.cons_append, List.nil_append, readChar?,
          toNat_ofNat_of_lt (show 0xE0 + c.toNat / 4096 < 256 by omega)]
        rw [if_neg (by omega), if_neg (by omega), isTail_tailByte, if_neg (by simp),
          if_neg (by omega), isTail_tailByte, if_neg (by simp), if_pos (by omega),
          toNat_tailByte_mod, toNat_tailByte_mod,
          show ((0xE0 + c.toNat / 4096 - 0xE0) * 64 + c.toNat / 64 % 64) * 64 + c.toNat % 64
            = c.toNat by omega,
          charFrom?_toNat (by omega)]
        rfl
      · rename_i h₁ h₂ h₃
        simp only [List.cons_append, List.nil_append, readChar?,
          toNat_ofNat_of_lt (show 0xF0 + c.toNat / 262144 < 256 by omega)]
        rw [if_neg (by omega), if_neg (by omega), isTail_tailByte, if_neg (by simp),
          if_neg (by omega), isTail_tailByte, if_neg (by simp), if_neg (by omega),
          isTail_tailByte, if_neg (by simp; omega),
          toNat_tailByte_mod, toNat_tailByte_mod, toNat_tailByte_mod,
          show (((0xF0 + c.toNat / 262144 - 0xF0) * 64 + c.toNat / 4096 % 64) * 64
            + c.toNat / 64 % 64) * 64 + c.toNat % 64 = c.toNat by omega,
          charFrom?_toNat (by omega)]
        rfl

theorem encodeChar_ne_nil (c : Char) : encodeChar c ≠ [] := by
  simp only [encodeChar]
  split
  · simp
  · split
    · simp
    · split <;> simp

theorem glyphsUpTo_encodeChars (cs : List Char) {n : Nat} (h : (encodeChars cs).length ≤ n) :
    glyphsUpTo n (encodeChars cs) = cs.map Glyph.char := by
  induction cs generalizing n with
  | nil => cases n <;> rfl
  | cons c cs ih =>
    have hc : encodeChars (c :: cs) = encodeChar c ++ encodeChars cs := rfl
    have hlen : 1 ≤ (encodeChar c).length := List.length_pos_iff.2 (encodeChar_ne_nil c)
    rw [hc, List.length_append] at h
    obtain ⟨b, r, hr⟩ : ∃ b r, encodeChar c ++ encodeChars cs = b :: r := by
      cases he : encodeChar c with
      | nil => exact absurd he (encodeChar_ne_nil c)
      | cons b r => exact ⟨b, r ++ encodeChars cs, rfl⟩
    obtain ⟨n, rfl⟩ : ∃ m, n = m + 1 := ⟨n - 1, by omega⟩
    rw [hc, hr, glyphsUpTo, ← hr, readChar?_encodeChar_append]
    simp only [List.map_cons]
    rw [ih (by omega)]

/-- Splitting what was written gives the characters back. -/
theorem glyphs_encode (s : String) : glyphs (encode s) = glyphsOf s :=
  glyphsUpTo_encodeChars s.toList (Nat.le_refl _)

theorem chars?_map_char (cs : List Char) : chars? (cs.map Glyph.char) = some cs := by
  induction cs with
  | nil => rfl
  | cons c cs ih => simp [chars?, ih]

theorem decode?_encode (s : String) : decode? (encode s) = some s := by
  rw [decode?, glyphs_encode, glyphsOf, chars?_map_char]
  simp

theorem lossyUpTo_encodeChars (cs : List Char) {n : Nat} (h : (encodeChars cs).length ≤ n) :
    lossyUpTo n (encodeChars cs) = cs := by
  induction cs generalizing n with
  | nil => cases n <;> rfl
  | cons c cs ih =>
    have some' : 1 ≤ (encodeChar c).length := List.length_pos_iff.2 (encodeChar_ne_nil c)
    rw [encodeChars, List.flatMap_cons, List.length_append, ← encodeChars] at h
    obtain ⟨b, r, hr⟩ : ∃ b r, encodeChar c ++ encodeChars cs = b :: r :=
      List.exists_cons_of_ne_nil (List.append_ne_nil_of_left_ne_nil (encodeChar_ne_nil c) _)
    obtain ⟨n, rfl⟩ : ∃ m, n = m + 1 := ⟨n - 1, by omega⟩
    rw [encodeChars, List.flatMap_cons, ← encodeChars, hr, lossyUpTo, ← hr,
      readChar?_encodeChar_append]
    exact congrArg (c :: ·) (ih (by omega))

/-- Nothing is replaced in what was written. -/
theorem decodeLossy_encode (s : String) : decodeLossy (encode s) = s := by
  rw [decodeLossy, encode, lossyUpTo_encodeChars _ (Nat.le_refl _), String.ofList_toList]

end Utf8

end StagedTransfer
