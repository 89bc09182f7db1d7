import StagedTransfer.Token.Access

/-!
# The shared access token

All callers share one cached token. A caller that finds it accepted takes it. Otherwise it queues for
the lock, looks again once it has the lock, and only then asks for a new token, so that of many
callers who find the same token expired one asks and the others take what it got. Whoever wants a new
token in any case asks without looking.

The cache is described by the moves of its callers, one at a time and in any order; a caller may be
given up at any moment.
-/

namespace StagedTransfer

/-- The cached token, if it is still accepted. -/
def acceptedToken? (cached : Option AccessToken) (now : Instant) : Option AccessToken :=
  cached.filter fun t => !t.hasExpired now

/-- There is no cached token or it is not accepted any more. -/
def tokenMissing (cached : Option AccessToken) (now : Instant) : Bool :=
  match cached with
  | none   => true
  | some t => t.hasExpired now

namespace TokenCache

inductive Wish
  | current
  | refresh
  /-- A new token if there is no accepted one, as it is found by a look before the lock. -/
  | renewal
  deriving DecidableEq, Repr

abbrev Answer := Except TokenError (Option AccessToken)

/-- How far a caller has come. -/
inductive Stage
  | called
  /-- It has found no accepted token and has not asked for the lock yet. -/
  | missed
  | queued
  /-- It has the lock and has not decided yet. -/
  | locked
  | fetching
  /-- It has got a new token and not stored it yet. -/
  | fetched (t : AccessToken)
  /-- It has its answer; a renewal that was not needed has no token. -/
  | finished (a : Answer)
  | dropped

structure Caller where
  wish  : Wish
  stage : Stage

structure State where
  token   : Option AccessToken
  /-- The callers so far; a caller is known by its place. -/
  callers : List Caller
  /-- The callers that wait for the lock, the first to come first. -/
  queue   : List Nat
  holder  : Option Nat
  fetches : Nat

inductive Move
  | call (w : Wish)
  /-- A caller goes on by itself: it looks at the cache, takes the lock, asks, or stores. -/
  | advance (caller : Nat) (now : Instant)
  /-- The answer to the question for a new token comes. -/
  | provide (caller : Nat) (r : Except TokenError AccessToken)
  /-- A token from elsewhere is stored. -/
  | store (t : AccessToken)
  | drop (caller : Nat)

namespace State

def empty : State := ⟨none, [], [], none, 0⟩

def caller? (s : State) (i : Nat) : Option Caller :=
  s.callers[i]?

def setStage (s : State) (i : Nat) (stage : Stage) : State :=
  { s with callers := s.callers.modify i fun c => { c with stage } }

/-- The lock goes to the first caller that waits for it. -/
def handOver (s : State) : State :=
  match s.queue with
  | []     => { s with holder := none }
  | i :: q => { s with holder := some i, queue := q }.setStage i .locked

/-- A caller asks for the lock. -/
def enqueue (s : State) (i : Nat) : State :=
  if s.holder.isNone then { s with holder := some i }.setStage i .locked
  else { s with queue := s.queue ++ [i] }.setStage i .queued

/-- A caller with the lock has its answer and gives the lock back. -/
def conclude (s : State) (i : Nat) (a : Answer) : State :=
  (s.setStage i (.finished a)).handOver

def ask (s : State) (i : Nat) : State :=
  { s with fetches := s.fetches + 1 }.setStage i .fetching

/-- A caller goes on by itself, if it can. -/
def advance (s : State) (i : Nat) (now : Instant) : State :=
  match s.caller? i with
  | some ⟨.current, .called⟩ =>
    match acceptedToken? s.token now with
    | some t => s.setStage i (.finished (.ok (some t)))
    | none   => s.setStage i .missed
  | some ⟨.refresh, .called⟩ => s.enqueue i
  | some ⟨.renewal, .called⟩ =>
    if tokenMissing s.token now then s.setStage i .missed
    else s.setStage i (.finished (.ok none))
  | some ⟨_, .missed⟩        => s.enqueue i
  -- the second look: another caller may have stored a token meanwhile
  | some ⟨.current, .locked⟩ =>
    match acceptedToken? s.token now with
    | some t => s.conclude i (.ok (some t))
    | none   => s.ask i
  -- no second look, even if the first one was before the lock
  | some ⟨_, .locked⟩        => s.ask i
  | some ⟨_, .fetched t⟩     => { s with token := some t }.conclude i (.ok (some t))
  | _                        => s

/-- The answer of the provider comes to the caller that has asked. -/
def provide (s : State) (i : Nat) (r : Except TokenError AccessToken) : State :=
  match s.caller? i with
  | some ⟨_, .fetching⟩ =>
    match r with
    | .ok t    => s.setStage i (.fetched t)
    | .error e => s.conclude i (.error e)
  | _                   => s

/-- A caller is given up; the lock passes on if it had it. -/
def drop (s : State) (i : Nat) : State :=
  match s.caller? i with
  | some ⟨_, .finished _⟩ => s
  | some _                =>
    let s := { s with queue := s.queue.filter (· ≠ i) }.setStage i .dropped
    if s.holder = some i then s.handOver else s
  | none                  => s

def step (s : State) : Move → State
  | .call w        => { s with callers := s.callers ++ [⟨w, .called⟩] }
  | .advance i now => s.advance i now
  | .provide i r   => s.provide i r
  | .store t       => { s with token := some t }
  | .drop i        => s.drop i

def steps (s : State) (moves : List Move) : State :=
  moves.foldl step s

def canAdvance (s : State) (i : Nat) : Bool :=
  match s.caller? i with
  | some ⟨_, .called⟩    => true
  | some ⟨_, .missed⟩    => true
  | some ⟨_, .locked⟩    => true
  | some ⟨_, .fetched _⟩ => true
  | _                    => false

def answer? (s : State) (i : Nat) : Option Answer :=
  match s.caller? i with
  | some ⟨_, .finished a⟩ => some a
  | _                     => none

end State

end TokenCache

end StagedTransfer
