import StagedTransfer.Token.Error

/-!
# Errors of the gateway and the object store
-/

namespace StagedTransfer

inductive GatewayError
  /-- No answer came, or it broke off. -/
  | http (reason : String)
  /-- An answer with another status than the two that are told apart. -/
  | api (status : Nat) (body : String)
  | notFound (what : String)
  | json (e : Json.ReadError)
  | auth (e : TokenError)
  | io (e : IoError)
  | missingHeader (name : String)
  | fileTooLarge (size limit : Nat)
  deriving DecidableEq, Repr

def tooLargeMessage (size limit : Nat) : String :=
  "file size " ++ toString size ++ " exceeds the " ++ toString limit
    ++ " byte limit of the direct path"

def GatewayError.message : GatewayError → String
  | http reason             => "HTTP error: " ++ reason
  | api status body         => "API error " ++ toString status ++ ": " ++ body
  | notFound what           => "not found: " ++ what
  | json e                  => "JSON error: " ++ e.message
  | auth e                  => "authentication error: " ++ e.message
  | io e                    => "I/O error: " ++ e.text
  | missingHeader name      => "response missing " ++ name ++ " header"
  | fileTooLarge size limit => tooLargeMessage size limit

end StagedTransfer
