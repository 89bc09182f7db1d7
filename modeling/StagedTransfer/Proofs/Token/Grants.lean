import StagedTransfer.Proofs.Json.Gathering
import StagedTransfer.Proofs.Token.Signed
import StagedTransfer.Session.Client

/-!
# What the token endpoint grants

Every response of the token endpoint is answered, with a token or with an error, but for one: if the
token is not signed, the endpoint says how long it is accepted, and no calendar tells the instant up
to which that would be, then the program ends.
-/

namespace StagedTransfer

open Http
open Instant (isDated)
open Json (Message)

/-! ### Instants -/

/-- From an instant that a calendar tells one can go on to any other one, so that nothing but the
calendar limits how far. -/
lemma Instant.after?_of_isDated {now : Instant} (present : isDated now.seconds = true) (n : Int) :
    now.after? n = if isDated (now.seconds + n) then
      some ⟨now.nanos + n * Span.nanosPerSecond⟩ else none := by
  have shift : Instant.seconds ⟨now.nanos + n * Span.nanosPerSecond⟩ = now.seconds + n :=
    Int.add_mul_fdiv_right _ _ (by decide)
  simp only [after?, shift]
  by_cases later : isDated (now.seconds + n) = true
  · have near : n.natAbs ≤ greatestShift := by
      rw [isDated_iff] at present later
      rw [greatestShift]
      omega
    rw [if_pos ⟨near, later⟩, if_pos later]
  · rw [if_neg fun h => later h.2, if_neg later]

/-! ### Responses -/

namespace AccessToken

/-- What comes of a response at the token endpoint, for each response there is. -/
inductive Grants (r : Response) (now : Instant) : Reply TokenError AccessToken → Prop
  | refused (failure : r.isSuccess = false) :
    Grants r now (.fail (.endpoint r.status r.report))
  | brokenOff (success : r.isSuccess = true) (broken : r.whole = false) :
    Grants r now (.fail (.http Response.brokenOff))
  | illegible {e : Json.ReadError} (success : r.isSuccess = true) (whole : r.whole = true)
    (holds : Message.decodeBytes (α := TokenResponse) r.body = .error e) :
    Grants r now (.fail (.malformed "token response"))
  | missing {expiresIn : Option Int64} (success : r.isSuccess = true) (whole : r.whole = true)
    (holds : Message.decodeBytes r.body = .ok (⟨none, expiresIn⟩ : TokenResponse)) :
    Grants r now (.fail (.malformed "access_token not found"))
  /-- A signed text tells by itself up to when it is accepted. -/
  | signed {text : String} {expiresIn : Option Int64} {n : Int} (success : r.isSuccess = true)
    (whole : r.whole = true)
    (holds : Message.decodeBytes r.body = .ok (⟨some text, expiresIn⟩ : TokenResponse))
    (signs : Signs text n) (dated : isDated n = true) :
    Grants r now (.ok ⟨text, .ofSeconds n⟩)
  /-- Any other text is accepted for as long as the endpoint says. -/
  | timed {text : String} {n : Int64} (success : r.isSuccess = true) (whole : r.whole = true)
    (holds : Message.decodeBytes r.body = .ok (⟨some text, some n⟩ : TokenResponse))
    (unsigned : ¬IsSigned text) (dated : isDated (now.seconds + n.toInt) = true) :
    Grants r now (.ok ⟨text, ⟨now.nanos + n.toInt * Span.nanosPerSecond⟩⟩)
  | endless {text : String} {n : Int64} (success : r.isSuccess = true) (whole : r.whole = true)
    (holds : Message.decodeBytes r.body = .ok (⟨some text, some n⟩ : TokenResponse))
    (unsigned : ¬IsSigned text) (undated : isDated (now.seconds + n.toInt) = false) :
    Grants r now (.overrun .expiry)
  | timeless {text what : String} (success : r.isSuccess = true) (whole : r.whole = true)
    (holds : Message.decodeBytes r.body = .ok (⟨some text, none⟩ : TokenResponse))
    (unsigned : ¬IsSigned text) (malformed : ofJwt text = .error (.malformed what)) :
    Grants r now (.fail (.malformed what))

section

variable {r : Response} {now : Instant} {reply : Reply TokenError AccessToken}

lemma ofResponse_eq_ofGrant {text : String} {expiresIn : Option Int64}
    (success : r.isSuccess = true) (whole : r.whole = true)
    (holds : Message.decodeBytes r.body = .ok (⟨some text, expiresIn⟩ : TokenResponse)) :
    ofResponse r now = ofGrant text expiresIn now := by
  simp [ofResponse, success, Response.bytes, whole, holds]

lemma ofGrant_of_signs {text : String} {n : Int} (signs : Signs text n) (dated : isDated n = true)
    (expiresIn : Option Int64) : ofGrant text expiresIn now = .ok ⟨text, .ofSeconds n⟩ := by
  simp only [ofGrant, ofJwt_of_signs signs dated]

lemma ofGrant_of_not_isSigned {text : String} (present : isDated now.seconds = true)
    (unsigned : ¬IsSigned text) (n : Int64) :
    ofGrant text (some n) now = if isDated (now.seconds + n.toInt) then
      .ok ⟨text, ⟨now.nanos + n.toInt * Span.nanosPerSecond⟩⟩ else .overrun .expiry := by
  obtain ⟨what, malformed⟩ := ofJwt_of_not_isSigned unsigned
  simp only [ofGrant, malformed, Instant.after?_of_isDated present]
  cases isDated (now.seconds + n.toInt) <;> rfl

/-- What comes of a response is granted. -/
lemma Grants.eq_ofResponse (present : isDated now.seconds = true) (h : Grants r now reply) :
    ofResponse r now = reply := by
  cases h with
  | refused failure => simp [ofResponse, failure]
  | brokenOff success broken => simp [ofResponse, success, Response.bytes, broken]
  | illegible success whole holds => simp [ofResponse, success, Response.bytes, whole, holds]
  | missing success whole holds => simp [ofResponse, success, Response.bytes, whole, holds]
  | signed success whole holds signs dated =>
    rw [ofResponse_eq_ofGrant success whole holds, ofGrant_of_signs signs dated]
  | timed success whole holds unsigned dated =>
    rw [ofResponse_eq_ofGrant success whole holds, ofGrant_of_not_isSigned present unsigned,
      if_pos dated]
  | endless success whole holds unsigned undated =>
    rw [ofResponse_eq_ofGrant success whole holds, ofGrant_of_not_isSigned present unsigned,
      if_neg (ne_true_of_eq_false undated)]
  | timeless success whole holds unsigned malformed =>
    rw [ofResponse_eq_ofGrant success whole holds]
    simp only [ofGrant, malformed]

lemma grants_of_text {text : String} {expiresIn : Option Int64} (success : r.isSuccess = true)
    (whole : r.whole = true)
    (holds : Message.decodeBytes r.body = .ok (⟨some text, expiresIn⟩ : TokenResponse)) :
    ∃ reply, Grants r now reply := by
  by_cases signed : IsSigned text
  · obtain ⟨n, signs, dated⟩ := signed
    exact ⟨_, .signed success whole holds signs dated⟩
  cases expiresIn with
  | none =>
    obtain ⟨what, malformed⟩ := ofJwt_of_not_isSigned signed
    exact ⟨_, .timeless success whole holds signed malformed⟩
  | some n =>
    cases dated : isDated (now.seconds + n.toInt) with
    | true => exact ⟨_, .timed success whole holds signed dated⟩
    | false => exact ⟨_, .endless success whole holds signed dated⟩

/-- Something is granted for every response. -/
lemma exists_grants (r : Response) (now : Instant) : ∃ reply, Grants r now reply := by
  cases success : r.isSuccess with
  | false => exact ⟨_, .refused success⟩
  | true =>
  cases whole : r.whole with
  | false => exact ⟨_, .brokenOff success whole⟩
  | true =>
  cases holds : Message.decodeBytes (α := TokenResponse) r.body with
  | error e => exact ⟨_, .illegible success whole holds⟩
  | ok t =>
    obtain ⟨text, expiresIn⟩ := t
    cases text with
    | none => exact ⟨_, .missing success whole holds⟩
    | some text => exact grants_of_text success whole holds

end

end AccessToken

/-! ### Requests for a token -/

namespace Credentials

variable {S : Type} (c : Credentials) (around : Surroundings (StateM S)) (x : S)

/-- What comes of a request for a token. -/
inductive Obtains : Reply TokenError AccessToken → Prop
  | unaddressed (none' : c.request? = none) : Obtains (.fail (.http "builder error"))
  | lost {request : Request} {reason : String} (addressed : c.request? = some request)
    (lost : (around.exchange request x).1 = .lost reason) : Obtains (.fail (.http reason))
  | answered {request : Request} {r : Response} {reply : Reply TokenError AccessToken}
    (addressed : c.request? = some request)
    (answered : (around.exchange request x).1 = .answered r)
    (grants : AccessToken.Grants r (around.now (around.exchange request x).2).1 reply) :
    Obtains reply

variable {c around x}

lemma fetch_unaddressed (none' : c.request? = none) :
    (c.fetch around x).1 = .fail (.http "builder error") := by
  simp only [fetch, none']
  rfl

lemma fetch_lost {request : Request} {reason : String} (addressed : c.request? = some request)
    (lost : (around.exchange request x).1 = .lost reason) :
    (c.fetch around x).1 = .fail (.http reason) := by
  simp only [fetch, addressed, bind, StateT.bind]
  generalize around.exchange request x = comes at lost ⊢
  obtain ⟨outcome, y⟩ := comes
  cases lost
  rfl

lemma fetch_answered {request : Request} {r : Response} (addressed : c.request? = some request)
    (answered : (around.exchange request x).1 = .answered r) :
    (c.fetch around x).1 =
      AccessToken.ofResponse r (around.now (around.exchange request x).2).1 := by
  simp only [fetch, addressed, bind, StateT.bind]
  generalize around.exchange request x = comes at answered ⊢
  obtain ⟨outcome, y⟩ := comes
  cases answered
  rfl

lemma exists_obtains : ∃ reply, c.Obtains around x reply := by
  cases addressed : c.request? with
  | none => exact ⟨_, .unaddressed addressed⟩
  | some request =>
    cases comes : (around.exchange request x).1 with
    | lost reason => exact ⟨_, .lost addressed comes⟩
    | answered r =>
      obtain ⟨reply, grants⟩ := AccessToken.exists_grants r
        (around.now (around.exchange request x).2).1
      exact ⟨reply, .answered addressed comes grants⟩

lemma Obtains.eq_fetch {reply : Reply TokenError AccessToken}
    (present : ∀ y, isDated (around.now y).1.seconds = true) (h : c.Obtains around x reply) :
    (c.fetch around x).1 = reply := by
  cases h with
  | unaddressed none' => exact fetch_unaddressed none'
  | lost addressed lost => exact fetch_lost addressed lost
  | answered addressed answered grants =>
    rw [fetch_answered addressed answered, grants.eq_ofResponse (present _)]

variable (c around x)

/-- Every request for a token ends with a token or with an error, as the response says, unless a
text that is not signed is to be accepted up to an instant that no calendar tells. An error tells
the text of the response as it has been sent. -/
theorem fetch_obtains (present : ∀ y, isDated (around.now y).1.seconds = true) :
    (∀ reply, c.Obtains around x reply ↔ (c.fetch around x).1 = reply) ∧
      ∀ r : Response, r.whole = true → ∀ s, r.body = Utf8.encode s → r.report = s := by
  refine ⟨fun reply => ⟨fun h => h.eq_fetch present, ?_⟩, fun r whole s spells => ?_⟩
  · rintro rfl
    obtain ⟨reply, h⟩ := exists_obtains (c := c) (x := x)
    rwa [h.eq_fetch present]
  · rw [Response.report, if_pos whole, spells, Utf8.decodeLossy_encode]

/-- A token endpoint at the start of 1970 that answers every request with the same text. -/
def parrot (text : String) : Surroundings (StateM Unit) where
  exchange  := fun _ => pure (.answered ⟨200, [], Utf8.encode text, true⟩)
  now       := pure ⟨0⟩
  pause     := fun _ => pure ()
  cancelled := pure false
  size      := fun _ => pure (.error .earlyEnd)
  content   := fun _ => pure (.error .earlyEnd)
  write     := fun _ _ => pure (.error .earlyEnd)
  prefer    := pure 0
  listen    := fun _ => pure ()
  enter     := fun _ => pure ()

/-- A text that is not signed, accepted for five minutes, and for the longest time there is. -/
theorem fetch_obtains_longest :
    let c : Credentials := ⟨"id", "secret", "http://endpoint/token"⟩
    (c.fetch (parrot "\x7b\"access_token\":\"t\",\"expires_in\":300\x7d") ()).1
      = .ok ⟨"t", .ofSeconds 300⟩ ∧
    (c.fetch (parrot "\x7b\"access_token\":\"t\",\"expires_in\":9223372036854775807\x7d") ()).1
      = .overrun .expiry := by
  intro c
  have present : isDated (Instant.seconds ⟨0⟩) = true := by decide
  obtain ⟨request, addressed⟩ : ∃ request, c.request? = some request :=
    Option.isSome_iff_exists.1 (by decide +kernel)
  have unsigned : ¬AccessToken.IsSigned "t" := by
    rw [AccessToken.isSigned_iff]
    decide +kernel
  constructor
  · refine ((fetch_obtains c _ () fun _ => present).1 _).1 (.answered addressed rfl ?_)
    exact .timed (n := 300) rfl rfl (Json.toOption_eq_some_iff.1 (by decide +kernel)) unsigned rfl
  · refine ((fetch_obtains c _ () fun _ => present).1 _).1 (.answered addressed rfl ?_)
    exact .endless (n := 9223372036854775807) rfl rfl
      (Json.toOption_eq_some_iff.1 (by decide +kernel)) unsigned rfl

end Credentials

end StagedTransfer
