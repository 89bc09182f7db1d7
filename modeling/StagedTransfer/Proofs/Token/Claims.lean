import Mathlib.Data.List.TakeWhile
import StagedTransfer.Proofs.Encoding.Base64Url
import StagedTransfer.Proofs.Json.Meaning
import StagedTransfer.Proofs.Json.Printing
import StagedTransfer.Proofs.Token.Signed

/-!
# Claims read back

Whoever signs a set of claims writes them in base64 after a header and a dot. The token is accepted
up to the second that the last `exp` among the claims tells, if it is an integer and a calendar
tells that second, and is malformed otherwise, however the claims are spelled and padded and
whatever follows. Claims that begin with the key of an embedded text are no claims.
-/

namespace StagedTransfer.AccessToken

open Instant Json

variable {header payload claims suffix : List Char} {members : List (Option String × Reading)}
  {named : List (String × Value)} {n : Int}

/-- Claims after a header, written in base64, with padding and whatever comes after it. -/
def signedText (header claims : List Char) (pads : Nat) (suffix : List Char) : String :=
  String.ofList (header ++ '.' ::
    ((Base64Url.encode (Utf8.encodeChars claims) ++ List.replicate pads '=') ++ suffix))

/-! ### Sections -/

lemma secondSection?_append (undotted : '.' ∉ header) (undotted' : '.' ∉ payload)
    (ends : ∀ c ∈ suffix.head?, c = '.') :
    secondSection? (header ++ '.' :: (payload ++ suffix)) = some payload := by
  have other {cs : List Char} (h : '.' ∉ cs) : ∀ c ∈ cs, decide (c ≠ '.') = true := by
    rintro c hc
    simp only [ne_eq, decide_eq_true_eq]
    rintro rfl
    exact h hc
  have past : suffix.takeWhile (· ≠ '.') = [] := by
    cases suffix with
    | nil => rfl
    | cons c suffix => rw [ends c rfl, List.takeWhile_cons_of_neg (by decide)]
  rw [secondSection?, List.dropWhile_append_of_pos (other undotted),
    List.dropWhile_cons_of_neg (by decide)]
  simp only
  rw [List.takeWhile_append_of_pos (other undotted'), past, List.append_nil]

/-- Padding is taken off, however much there is. -/
lemma trimPadding_append (unpadded : '=' ∉ payload) (pads : Nat) :
    trimPadding (payload ++ List.replicate pads '=') = payload := by
  have pad : ∀ c ∈ List.replicate pads '=', decide (c = '=') = true := fun c hc => by
    simpa using List.eq_of_mem_replicate hc
  have rest : payload.reverse.dropWhile (· = '=') = payload.reverse := by
    refine List.dropWhile_eq_self_iff.2 fun hl same => unpadded ?_
    rw [← of_decide_eq_true same]
    exact List.mem_reverse.1 (List.getElem_mem hl)
  rw [trimPadding, List.reverse_append, List.reverse_replicate, List.dropWhile_append_of_pos pad,
    rest, List.reverse_reverse]

/-! ### Claims -/

lemma isWord_of_isDated (dated : isDated n = true) : isWord n = true := by
  have bound : Int.pow 2 63 = 9223372036854775808 := by decide
  obtain ⟨least, greatest⟩ := isDated_iff.1 dated
  simp only [isWord, bound, Bool.and_eq_true, decide_eq_true_eq]
  omega

lemma expiryClaim?_eq_some_iff (dated : isDated n = true) :
    expiryClaim? (.object named) = some n ↔ LastUnder "exp" named (.number (.integer n)) := by
  rw [← member?_eq_some_iff, expiryClaim?]
  constructor
  · intro claimed
    split at claimed
    · rename_i m found
      split at claimed
      · rwa [Option.some.inj claimed] at found
      · cases claimed
    · cases claimed
  · intro found
    simp only [found, isWord_of_isDated dated, if_true]

/-- What is signed is what the claims say. -/
lemma signs_signedText (pads : Nat) (undotted : '.' ∉ header) (ends : ∀ c ∈ suffix.head?, c = '.')
    (spells : SpellsText claims (.object members none)) (plain : embedding? members = none)
    (means : MeansUnder members (depthLimit - 1) named) :
    Signs (signedText header claims pads suffix) n ↔ expiryClaim? (.object named) = some n := by
  have undotted' : '.' ∉ Base64Url.encode (Utf8.encodeChars claims) ++ List.replicate pads '=' := by
    intro dot
    rcases List.mem_append.1 dot with dot | dot
    · exact (Base64Url.ne_of_mem_encode dot).1 rfl
    · exact absurd (List.eq_of_mem_replicate dot) (by decide)
  have unpadded : '=' ∉ Base64Url.encode (Utf8.encodeChars claims) := fun pad =>
    (Base64Url.ne_of_mem_encode pad).2 rfl
  have stands : secondSection? (signedText header claims pads suffix).toList =
      some (Base64Url.encode (Utf8.encodeChars claims) ++ List.replicate pads '=') := by
    rw [signedText, String.toList_ofList, secondSection?_append undotted undotted' ends]
  have decodes : Base64Url.decode? (trimPadding
      (Base64Url.encode (Utf8.encodeChars claims) ++ List.replicate pads '=')) =
      some (Utf8.encodeChars claims) := by
    rw [trimPadding_append unpadded, Base64Url.decode?_encode]
  have parses : parse (Utf8.glyphs (Utf8.encodeChars claims)) = .ok (.object named) := by
    rw [Utf8.glyphs, Utf8.glyphsUpTo_encodeChars claims (Nat.le_refl _)]
    exact parse_of_means spells (.object plain means)
  exact signs_iff stands decodes parses

/-- Claims are accepted up to the second that the last `exp` among them tells, if it is an integer
and a calendar tells that second, and are malformed otherwise. -/
theorem ofJwt_signedText (pads : Nat) (undotted : '.' ∉ header)
    (ends : ∀ c ∈ suffix.head?, c = '.') (spells : SpellsText claims (.object members none))
    (plain : embedding? members = none) (means : MeansUnder members (depthLimit - 1) named) :
    let text := signedText header claims pads suffix
    let tells (n : Int) := LastUnder "exp" named (.number (.integer n)) ∧
      -8334601228800 ≤ n ∧ n ≤ 8210266876799
    (∀ n, tells n → ofJwt text = .ok ⟨text, .ofSeconds n⟩) ∧
      ((¬∃ n, tells n) → ∃ what, ofJwt text = .error (.malformed what)) := by
  intro text tells
  have signs n : Signs text n ↔ expiryClaim? (.object named) = some n :=
    signs_signedText pads undotted ends spells plain means
  constructor
  · rintro n ⟨last, range⟩
    have dated := isDated_iff.2 range
    exact ofJwt_of_signs ((signs n).2 ((expiryClaim?_eq_some_iff dated).2 last)) dated
  · intro untold
    refine ofJwt_of_not_isSigned fun ⟨n, signed, dated⟩ => untold ⟨n, ?_⟩
    exact ⟨(expiryClaim?_eq_some_iff dated).1 ((signs n).1 signed), isDated_iff.1 dated⟩

/-- The second `exp` counts, and padding does not. -/
theorem ofJwt_signedText_twice :
    let named : List (String × Value) :=
      [("exp", .null), ("sub", .string "s"), ("exp", .number (.integer 5))]
    let text := signedText "head".toList (Value.object named).chars 2 ".sig".toList
    ofJwt text = .ok ⟨text, .ofSeconds 5⟩ := by
  intro named text
  have fits : (Value.object named).Fits := ⟨trivial, trivial, ⟨by decide, by decide⟩, trivial⟩
  have means : MeansUnder (membersAsWritten named) (depthLimit - 1) named :=
    .cons .null (.cons (.string "s") (.cons (.number _) .nil))
  have last : LastUnder "exp" named (.number (.integer 5)) := ⟨named.take 2, [], rfl, nofun⟩
  exact (ofJwt_signedText 2 (by decide) (by simp) (Value.spells _ fits).alone rfl means).1 5
    ⟨last, by decide, by decide⟩

/-- Claims that begin with the key of an embedded text are malformed, though `exp` is among them. -/
theorem ofJwt_signedText_embedding :
    let named : List (String × Value) :=
      [(embeddingKey, .string "\x7b\x7d"), ("exp", .number (.integer 5))]
    let claims := (Value.object named).chars
    SpellsText claims (.object (membersAsWritten named) none) ∧
      MeansUnder (membersAsWritten named) (depthLimit - 1) named ∧
      LastUnder "exp" named (.number (.integer 5)) ∧
      ∃ what, ofJwt (signedText "head".toList claims 0 ".sig".toList) =
        .error (.malformed what) := by
  intro named claims
  have fits : (Value.object named).Fits := ⟨trivial, ⟨by decide, by decide⟩, trivial⟩
  refine ⟨(Value.spells _ fits).alone, .cons (.string _) (.cons (.number _) .nil),
    ⟨named.take 1, [], rfl, nofun⟩, ofJwt_of_not_isSigned ?_⟩
  rw [isSigned_iff]
  decide +kernel

end StagedTransfer.AccessToken
