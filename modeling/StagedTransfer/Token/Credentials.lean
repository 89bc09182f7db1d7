import StagedTransfer.Json.Message
import StagedTransfer.Text.Blank
import StagedTransfer.Token.Error

/-!
# Credentials

The name and the secret under which tokens are asked for, and the address that gives them. They are
kept in a JSON file; a field that is blank counts as missing.
-/

namespace StagedTransfer

open Json (Message)

structure Credentials where
  clientId     : String
  clientSecret : String
  tokenUrl     : String
  deriving DecidableEq, Repr

/-- The file as it is written. -/
structure CredentialsFile where
  clientId     : Option String
  clientSecret : Option String
  url          : Option String

instance : Message CredentialsFile where
  shape := .record "CredentialsFile" <|
    .cons "ClientID" .objectOnly (Message.shape (Option String)) <|
    .cons "ClientSecret" .objectOnly (Message.shape (Option String)) <|
    .cons "Url" .objectOnly (Message.shape (Option String)) .nil
  carry a :=
    (Message.carry a.clientId, Message.carry a.clientSecret, Message.carry a.url, ())
  ofCarried c :=
    ⟨Message.ofCarried c.1, Message.ofCarried c.2.1, Message.ofCarried c.2.2.1⟩
  ofCarried_carry _ := by simp only [Message.ofCarried_carry]
  carry_ofCarried _ := by simp only [Message.carry_ofCarried]; rfl

namespace Credentials

/-- A field that has to be set. -/
def requireField (name : String) : Option String → Except TokenError String
  | none   => .error (.missingField name)
  | some s => if Text.isAllBlank s then .error (.missingField name) else .ok s

def ofJson (text : List Utf8.Glyph) : Except TokenError Credentials :=
  match Message.decode (α := CredentialsFile) text with
  | .error e => .error (.invalidCredentials e)
  | .ok file => do
    let tokenUrl ← requireField "Url" file.url
    let clientId ← requireField "ClientID" file.clientId
    let clientSecret ← requireField "ClientSecret" file.clientSecret
    return ⟨clientId, clientSecret, tokenUrl⟩

/-- The credentials in a file, of which the content is given. -/
def ofFile (content : Except IoError Bytes) : Except TokenError Credentials :=
  match content.bind Disk.textOf with
  | .error e => .error (.io e)
  | .ok s    => ofJson (Utf8.glyphsOf s)

def load (disk : Disk) (path : String) : Except TokenError Credentials :=
  ofFile (disk.content path)

end Credentials

end StagedTransfer
