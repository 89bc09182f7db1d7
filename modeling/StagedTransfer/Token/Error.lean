import StagedTransfer.Disk
import StagedTransfer.Json.Shape

/-!
# Errors of access tokens
-/

namespace StagedTransfer

inductive TokenError
  | io (e : IoError)
  | invalidCredentials (e : Json.ReadError)
  | missingField (name : String)
  /-- No answer came from the token endpoint. -/
  | http (reason : String)
  | endpoint (status : Nat) (body : String)
  | malformed (what : String)
  deriving DecidableEq, Repr

def TokenError.message : TokenError → String
  | io e                 => "I/O error: " ++ e.text
  | invalidCredentials e => "invalid credentials file: " ++ e.message
  | missingField name    => "credentials " ++ name ++ " not set"
  | http reason          => "HTTP error: " ++ reason
  | endpoint status body => "token endpoint returned " ++ toString status ++ ": " ++ body
  | malformed what       => "malformed token: " ++ what

end StagedTransfer
