import StagedTransfer.Http.Message
import StagedTransfer.Reply
import StagedTransfer.Token.Access
import StagedTransfer.Token.Credentials

/-!
# The token endpoint

A new access token is asked for with the credentials, as a form. If the token that comes is a signed
set of claims it tells by itself until when it is accepted; else the endpoint has to say for how many
seconds.
-/

namespace StagedTransfer

open Http
open Json (Message)

structure TokenResponse where
  accessToken : Option String
  /-- For how many seconds the token is accepted. -/
  expiresIn   : Option Int64
  deriving DecidableEq

instance : Message TokenResponse where
  shape := .record "TokenResponse" <|
    .cons "access_token" .objectOnly (Message.shape (Option String)) <|
    .cons "expires_in" .defaulted (Message.shape (Option Int64)) .nil
  carry a :=
    (Message.carry a.accessToken, Message.carry a.expiresIn, ())
  ofCarried c :=
    ⟨Message.ofCarried c.1, Message.ofCarried c.2.1⟩
  ofCarried_carry _ := by simp only [Message.ofCarried_carry]
  carry_ofCarried _ := by simp only [Message.carry_ofCarried]; rfl

namespace Credentials

def form (c : Credentials) : List (String × String) :=
  [("grant_type", "client_credentials"), ("client_id", c.clientId),
    ("client_secret", c.clientSecret)]

/-- The request for a token, unless the address of the endpoint is none. -/
def request? (c : Credentials) : Option Request := do
  let url ← Url.parse? c.tokenUrl
  let body := Utf8.encodeChars (Form.encode c.form)
  return ⟨.post, url, none, .content (some "application/x-www-form-urlencoded") body⟩

end Credentials

namespace AccessToken

/-- The token of a text, for which the endpoint may have told how long it is accepted. -/
def ofGrant (text : String) (expiresIn : Option Int64) (now : Instant) :
    Reply TokenError AccessToken :=
  match ofJwt text, expiresIn with
  | .ok t,    _            => .ok t
  | .error e, none         => .fail e
  -- the text is no set of claims, so the endpoint has the say
  | .error _, some seconds =>
    match now.after? seconds.toInt with
    | some t => .ok ⟨text, t⟩
    | none   => .overrun .expiry

def ofResponse (r : Response) (now : Instant) : Reply TokenError AccessToken :=
  if !r.isSuccess then .fail (.endpoint r.status r.report)
  else match r.bytes with
    | .error reason => .fail (.http reason)
    | .ok body      =>
      match Message.decodeBytes (α := TokenResponse) body with
      | .error _ => .fail (.malformed "token response")
      | .ok t    =>
        match t.accessToken with
        | none      => .fail (.malformed "access_token not found")
        | some text => ofGrant text t.expiresIn now

end AccessToken

end StagedTransfer
