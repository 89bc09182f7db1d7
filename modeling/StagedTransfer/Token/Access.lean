import StagedTransfer.Encoding.Base64Url
import StagedTransfer.Json.Parsing
import StagedTransfer.Time.Instant
import StagedTransfer.Token.Error

/-!
# Access tokens

A token is a text that the gateway accepts up to an instant. If the text is a signed set of claims,
the instant is the claim `exp`, in seconds; the signature is the gateway's business.
-/

namespace StagedTransfer

structure AccessToken where
  text      : String
  expiresAt : Instant
  deriving DecidableEq, Repr

namespace AccessToken

def hasExpired (t : AccessToken) (now : Instant) : Bool :=
  t.expiresAt ≤ now

/-! ### Signed claims -/

/-- What follows the first dot of a text, up to the next one. -/
def secondSection? (cs : List Char) : Option (List Char) :=
  match cs.dropWhile (· ≠ '.') with
  | []     => none
  | _ :: s => some (s.takeWhile (· ≠ '.'))

/-- A text without the padding at its end. -/
def trimPadding (cs : List Char) : List Char :=
  (cs.reverse.dropWhile (· = '=')).reverse

/-- The integers of sixty-four bits with a sign. -/
def isWord (n : Int) : Bool :=
  -Int.pow 2 63 ≤ n && n < Int.pow 2 63

/-- The claim `exp`, if it is an integer. -/
def expiryClaim? (claims : Json.Value) : Option Int :=
  match claims.member? "exp" with
  | some (.number (.integer n)) => if isWord n then some n else none
  | _                           => none

def jwtExpiry (text : String) : Except TokenError Instant := do
  let some payload := secondSection? text.toList | .error (.malformed "not a JWT")
  let some bytes := Base64Url.decode? (trimPadding payload) | .error (.malformed "payload")
  let .ok claims := Json.parse (Utf8.glyphs bytes) | .error (.malformed "claims")
  let some n := expiryClaim? claims | .error (.malformed "missing exp claim")
  match Instant.ofSeconds? n with
  | some t => .ok t
  | none   => .error (.malformed ("exp out of range: " ++ toString n))

def ofJwt (text : String) : Except TokenError AccessToken :=
  (jwtExpiry text).map fun t => ⟨text, t⟩

end AccessToken

end StagedTransfer
