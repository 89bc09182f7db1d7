import Mathlib.Tactic.Lemma
import StagedTransfer.Token.Access

/-!
# Signed claims

A text is a signed set of claims if what stands between its first two dots encodes claims of which
`exp` is an integer. It is accepted as a token if a calendar tells that second; of any other text
the error says that it is malformed.
-/

namespace StagedTransfer

lemma Instant.isDated_iff {n : Int} :
    isDated n = true ↔ -8334601228800 ≤ n ∧ n ≤ 8210266876799 := by
  simp only [isDated, Bool.and_eq_true, decide_eq_true_eq]
  exact Iff.rfl

namespace AccessToken

open Instant

/-- The text is a signed set of claims, and `exp` is the integer `n` among them. -/
inductive Signs (text : String) (n : Int) : Prop
  | intro {payload : List Char} {bytes : Bytes} {claims : Json.Value}
    (stands : secondSection? text.toList = some payload)
    (decodes : Base64Url.decode? (trimPadding payload) = some bytes)
    (parses : Json.parse (Utf8.glyphs bytes) = .ok claims)
    (claimed : expiryClaim? claims = some n)

/-- The text is a signed set of claims up to an instant that a calendar tells. -/
def IsSigned (text : String) : Prop :=
  ∃ n, Signs text n ∧ isDated n = true

variable {text : String} {n : Int}

/-- What is signed is told by the claims alone. -/
lemma signs_iff {payload : List Char} {bytes : Bytes} {claims : Json.Value}
    (stands : secondSection? text.toList = some payload)
    (decodes : Base64Url.decode? (trimPadding payload) = some bytes)
    (parses : Json.parse (Utf8.glyphs bytes) = .ok claims) :
    Signs text n ↔ expiryClaim? claims = some n := by
  refine ⟨?_, .intro stands decodes parses⟩
  rintro ⟨stands', decodes', parses', claimed⟩
  obtain rfl := Option.some.inj (stands.symm.trans stands')
  obtain rfl := Option.some.inj (decodes.symm.trans decodes')
  obtain rfl := Except.ok.inj (parses.symm.trans parses')
  exact claimed

lemma jwtExpiry_of_signs (signs : Signs text n) (dated : isDated n = true) :
    jwtExpiry text = .ok (.ofSeconds n) := by
  obtain ⟨stands, decodes, parses, claimed⟩ := signs
  simp only [jwtExpiry, stands, decodes, parses, claimed, ofSeconds?, dated, if_true]

lemma jwtExpiry_of_undated (signs : Signs text n) (undated : isDated n = false) :
    jwtExpiry text = .error (.malformed ("exp out of range: " ++ toString n)) := by
  obtain ⟨stands, decodes, parses, claimed⟩ := signs
  simp only [jwtExpiry, stands, decodes, parses, claimed, ofSeconds?, undated, Bool.false_eq_true,
    if_false]

lemma jwtExpiry_of_not_signs (unsigned : ∀ n, ¬Signs text n) :
    ∃ what, jwtExpiry text = .error (.malformed what) := by
  rw [jwtExpiry]
  split
  · rename_i payload stands
    split
    · rename_i bytes decodes
      split
      · rename_i claims parses
        split
        · rename_i n claimed
          exact absurd ⟨stands, decodes, parses, claimed⟩ (unsigned n)
        · exact ⟨_, rfl⟩
      · exact ⟨_, rfl⟩
    · exact ⟨_, rfl⟩
  · exact ⟨_, rfl⟩

/-- A signed text is accepted as it is, up to the instant that it tells. -/
lemma ofJwt_of_signs (signs : Signs text n) (dated : isDated n = true) :
    ofJwt text = .ok ⟨text, .ofSeconds n⟩ := by
  rw [ofJwt, jwtExpiry_of_signs signs dated]
  rfl

lemma ofJwt_of_not_isSigned (unsigned : ¬IsSigned text) :
    ∃ what, ofJwt text = .error (.malformed what) := by
  by_cases signs : ∃ n, Signs text n
  · obtain ⟨n, signs⟩ := signs
    have undated : isDated n = false := eq_false_of_ne_true fun dated => unsigned ⟨n, signs, dated⟩
    rw [ofJwt, jwtExpiry_of_undated signs undated]
    exact ⟨_, rfl⟩
  · obtain ⟨what, malformed⟩ := jwtExpiry_of_not_signs fun n h => signs ⟨n, h⟩
    rw [ofJwt, malformed]
    exact ⟨what, rfl⟩

lemma isSigned_iff : IsSigned text ↔ (ofJwt text).toOption.isSome = true := by
  constructor
  · rintro ⟨n, signs, dated⟩
    rw [ofJwt_of_signs signs dated]
    rfl
  · intro accepted
    refine Classical.byContradiction fun unsigned => ?_
    obtain ⟨what, malformed⟩ := ofJwt_of_not_isSigned unsigned
    rw [malformed] at accepted
    cases accepted

end AccessToken

end StagedTransfer
