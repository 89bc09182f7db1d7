import StagedTransfer.Gateway.Answer
import StagedTransfer.Gateway.Demand
import StagedTransfer.Token.Cache
import StagedTransfer.Token.Provider
import StagedTransfer.Transfer.Activity

/-!
# Errands

An errand is what a session does for something that a transfer waits for: it reads a file, asks for a
token, sends a request, writes a file. Each of these legs takes time, and an errand may be given up
after any of them; what is left of it does not happen then. All else is done at once.
-/

namespace StagedTransfer

open Http

inductive Leg
  | size (file : String)
  | content (file : String)
  | token
  /-- The response to a request, to its end. -/
  | exchange (r : Request)
  /-- Creates a local file, or empties it, and fills it. -/
  | write (file : String) (content : Bytes)
  | pause (d : Span)

abbrev Leg.Answer : Leg → Type
  | size _     => Except IoError Nat
  | content _  => Except IoError Bytes
  | token      => Reply TokenError AccessToken
  | exchange _ => Outcome
  | write _ _  => Except IoError Unit
  | pause _    => Unit

inductive Errand (α : Type) : Type
  | done (a : α)
  /-- Looks at the token that the session keeps and at the clock. -/
  | consult (next : Option AccessToken → Instant → Errand α)
  | keep (t : AccessToken) (rest : Errand α)
  | go (l : Leg) (next : l.Answer → Errand α)

namespace Errand

variable {α β : Type}

protected def bind : Errand α → (α → Errand β) → Errand β
  | .done a,      f => f a
  | .consult next, f => .consult fun token now => (next token now).bind f
  | .keep t rest, f => .keep t (rest.bind f)
  | .go l next,   f => .go l fun x => (next x).bind f

instance : Monad Errand where
  pure := .done
  bind := Errand.bind

def leg (l : Leg) : Errand l.Answer :=
  .go l pure

/-! ### Tokens -/

/-- A new token, which is kept. -/
def newToken : Errand (Reply TokenError AccessToken) := do
  (← leg .token).andThen fun t => .keep t (pure (.ok t))

/-- An accepted token, a new one if need be. -/
def currentToken : Errand (Reply TokenError AccessToken) :=
  .consult fun token now =>
    match acceptedToken? token now with
    | some t => pure (.ok t)
    | none   => newToken

/-! ### Requests -/

def ask (d : Demand) (token : Option String) : Errand (Except GatewayError Response) := do
  match d.request? token with
  | none   => return .error (.http "builder error")
  | some r =>
    match ← leg (.exchange r) with
    | .lost reason => return .error (.http reason)
    | .answered r  => return .ok r

def exchange (d : Demand) : Errand (Reply GatewayError Response) := do
  if d.authorized then
    ((← currentToken).mapError .auth).andThen fun t => do
      return .answered (← ask d (some t.text))
  else return .answered (← ask d none)

/-! ### Calls -/

/-- The content of a file that is small enough for a single request. -/
def smallContent (limit : Nat) (file : String) : Errand (Except GatewayError Bytes) := do
  match ← leg (.size file) with
  | .error e => return .error (.io e)
  | .ok size =>
    if limit < size then return .error (.fileTooLarge size limit)
    else return (← leg (.content file)).mapError .io

/-- The content that a call sends along. -/
def load (g : Gateway) : Call → Errand (Except GatewayError Bytes)
  | .uploadSmall file _ _ => smallContent g.smallLimit file
  | _                     => pure (.ok [])

/-- The answer in the response to a call. What a call fetches goes into its file, which is not touched
before a success is reported. -/
def receive (call : Call) (r : Response) : Errand (Reply GatewayError call.Answer) := do
  match call.destination?, r.isSuccess with
  | some file, true =>
    match ← leg (.write file r.body) with
    | .error e => return .fail (.io e)
    | .ok ()   => return .answered (call.read r)
  | _,         _    => return .answered (call.read r)

def perform (g : Gateway) (call : Call) : Errand (Reply GatewayError call.Answer) := do
  match ← load g call with
  | .error e    => return .fail e
  | .ok content => (← exchange (g.demand content call)).andThen (receive call)

def await (g : Gateway) : (w : Await) → Errand (Reply TransferError w.Answer)
  | .call call    => do return (← perform g call).mapError .ofGateway
  | .tokenExpired => .consult fun token now => pure (.ok (tokenMissing token now))
  | .refresh      => do return ((← newToken).mapError .auth).map fun _ => ()
  | .pause d      => do
    leg (.pause d)
    return .ok ()

end Errand

end StagedTransfer
