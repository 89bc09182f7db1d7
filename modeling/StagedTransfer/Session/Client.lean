import StagedTransfer.Session.Errand
import StagedTransfer.Session.Surroundings

/-!
# Sessions

A session runs the errands of a transfer over the network. It keeps the access token from one to the
next, asks for a new one when there is none that is accepted, and sends it with each request to the
gateway. The errands of a transfer come one after the other, and each of them is given up once the
transfer has been cancelled; only the parts of a file are on their way together, need no token and go
their way to the end.
-/

namespace StagedTransfer

open Http

structure Session where
  token   : Option AccessToken
  /-- What became of the parts that are on their way. -/
  flights : List (Nat × Except TransferError String)

def Session.start : Session :=
  ⟨none, []⟩

/-- A step of a session among its surroundings. -/
abbrev Visit (m : Type → Type) : Type → Type := StateT Session m

structure Client (m : Type → Type) where
  around  : Surroundings m
  gateway : Gateway
  /-- Where a new access token comes from. -/
  source  : m (Reply TokenError AccessToken)

def Credentials.fetch {m : Type → Type} [Monad m] (c : Credentials) (around : Surroundings m) :
    m (Reply TokenError AccessToken) := do
  match c.request? with
  | none   => return .fail (.http "builder error")
  | some r =>
    match ← around.exchange r with
    | .lost reason => return .fail (.http reason)
    | .answered r  => return AccessToken.ofResponse r (← around.now)

namespace Client

variable {m : Type → Type} [Monad m] (c : Client m)

/-! ### Errands -/

def meet : (l : Leg) → m l.Answer
  | .size file          => c.around.size file
  | .content file       => c.around.content file
  | .token              => c.source
  | .exchange r         => c.around.exchange r
  | .write file content => c.around.write file content
  | .pause d            => c.around.pause d

/-- The course of an errand. -/
def carry {α : Type} : Errand α → Visit m α
  | .done a      => return a
  | .consult next => do carry (next (← get).token (← c.around.now))
  | .keep t rest => do
    modify fun s => { s with token := some t }
    carry rest
  | .go l next   => do carry (next (← c.meet l))

/-- The course of an errand that is given up once the transfer has been cancelled. Nobody looks for
that but after a leg, when what has come of it is dropped. -/
def heed {α : Type} : Errand α → Visit m (Option α)
  | .done a      => return some a
  | .consult next => do heed (next (← get).token (← c.around.now))
  | .keep t rest => do
    modify fun s => { s with token := some t }
    heed rest
  | .go l next   => do
    let x ← c.meet l
    if ← c.around.cancelled then return none else heed (next x)

/-! ### Calls that nobody gives up -/

def exchange (d : Demand) : Visit m (Reply GatewayError Response) :=
  c.carry (.exchange d)

def perform (call : Call) : Visit m (Reply GatewayError call.Answer) :=
  c.carry (.perform c.gateway call)

def sendPart (url : String) (data : Bytes) : Visit m (Except TransferError String) := do
  return ((← c.carry (.ask (Store.put url data) none)).bind Response.etag).mapError .ofGateway

/-! ### The environment of a transfer -/

def await (w : Await) : Visit m (Reply TransferError w.Answer) := do
  return (← c.heed (.await c.gateway w)).getD (.fail .cancelled)

def act : (a : Act) → Visit m a.Answer
  | .size file    => c.around.size file
  | .content file => c.around.content file
  | .emit e       => c.around.listen e
  | .enter p      => c.around.enter p

inductive Turn
  | proceed
  | begin (h : Sending.Held)
  | finish (number : Nat)

/-- All that may come next. There is something until the sending is over. -/
def turns (s : Sending.State) (cancelled : Bool) : List Turn :=
  s.held.map (fun h => if h.begun then .finish h.number else .begin h)
    ++ if cancelled || s.canProceed then [.proceed] else []

/-- A part goes on its way or its answer comes. -/
def take : Turn → Visit m Sending.Choice
  | .proceed  => return .proceed
  | .begin h  => do
    -- the answer is fetched at once and given out when its turn comes
    let outcome ← c.sendPart h.url h.data
    modify fun s => { s with flights := (h.number, outcome) :: s.flights }
    return .begin h.number
  | .finish n => do
    match (← get).flights.lookup n with
    | some outcome => return .finish n outcome
    | none         => return .proceed

def choose (s : Sending.State) : Visit m Sending.Choice := do
  let open' := turns s (← c.around.cancelled)
  c.take (open'.getD ((← c.around.prefer) % open'.length) .proceed)

def environment : Environment (Visit m) where
  cancelled := c.around.cancelled
  await     := c.await
  act       := c.act
  choose    := c.choose

def run {α : Type} (a : Activity α) : Visit m (Except Stop α) :=
  a.run c.environment

end Client

end StagedTransfer
