/-!
# Blank characters

The characters with the Unicode property `White_Space`, and texts without them at either end.
A field that holds nothing else counts as left out, and a job state is compared without them.
-/

namespace StagedTransfer.Text

/-- The twenty-five characters with the property `White_Space`. -/
def isBlank (c : Char) : Bool :=
  let n := c.toNat
  (0x09 ≤ n && n ≤ 0x0D) || n == 0x20 || n == 0x85 || n == 0xA0 || n == 0x1680
    || (0x2000 ≤ n && n ≤ 0x200A) || n == 0x2028 || n == 0x2029 || n == 0x202F
    || n == 0x205F || n == 0x3000

def trimLeft (cs : List Char) : List Char :=
  cs.dropWhile isBlank

def trimRight (cs : List Char) : List Char :=
  (cs.reverse.dropWhile isBlank).reverse

/-- A text without the blank characters at its two ends; those inside stay. -/
def trim (s : String) : String :=
  String.ofList (trimRight (trimLeft s.toList))

/-- No character of the text is visible: it is empty once trimmed. -/
def isAllBlank (s : String) : Bool :=
  s.toList.all isBlank

/-- The blank characters of ASCII in the narrow sense are blank here as well. -/
theorem isBlank_of_isWhitespace {c : Char} (h : c.isWhitespace = true) : isBlank c = true := by
  simp only [Char.isWhitespace, Bool.or_eq_true, decide_eq_true_eq] at h
  rcases h with ((h | h) | h) | h <;> subst h <;> decide

@[simp]
theorem trimLeft_nil : trimLeft [] = [] := rfl

@[simp]
theorem trimRight_nil : trimRight [] = [] := rfl

end StagedTransfer.Text
