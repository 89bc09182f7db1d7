import StagedTransfer.Rehearsal.Script
import StagedTransfer.Token.Cache

/-!
# A rehearsal of the shared token

The callers of a token cache on a virtual clock. Each goes on until it has to wait, the first to come
first; when all wait, the clock goes on to the next answer.
-/

namespace StagedTransfer.Rehearsal

structure PendingToken where
  caller : Nat
  due    : Nat
  answer : Except TokenError AccessToken

structure Tokens where
  cache   : TokenCache.State
  /-- The instant that counts as the present. -/
  today   : Instant
  clock   : Nat
  script  : TokenScript
  pending : List PendingToken

namespace Tokens

def start (today : Instant) (script : TokenScript) : Tokens :=
  ⟨.empty, today, 0, script, []⟩

/-- A caller goes on; if it asks for a new token its answer is on the way. -/
def advance (r : Tokens) (i : Nat) : Tokens :=
  let cache := r.cache.advance i r.today
  if r.cache.fetches < cache.fetches then
    let (e, script) := r.script.next
    { r with
      cache, script
      pending := r.pending ++ [⟨i, r.clock + e.delay, e.value cache.fetches⟩] }
  else { r with cache }

def deliver (r : Tokens) (p : PendingToken) : Tokens :=
  { r with
    cache   := r.cache.provide p.caller p.answer
    pending := r.pending.filter fun q => q.caller ≠ p.caller }

def ready? (r : Tokens) : Option Nat :=
  (List.range r.cache.callers.length).find? r.cache.canAdvance

def nextDue? (r : Tokens) : Option Nat :=
  (r.pending.map (·.due)).min?

/-- All that happens until every caller has its answer, of at most `fuel` moves. -/
def runUpTo : (fuel : Nat) → Tokens → Tokens
  | 0,     r => r
  | n + 1, r =>
    match r.pending.find? fun p => p.due ≤ r.clock with
    | some p => runUpTo n (r.deliver p)
    | none   =>
      match r.ready? with
      | some i => runUpTo n (r.advance i)
      | none   =>
        match r.nextDue? with
        | some t => runUpTo n { r with clock := t }
        | none   => r

/-- Several callers come at once, and all get their answers. -/
def run (r : Tokens) (wishes : List TokenCache.Wish) : Tokens × List (Option TokenCache.Answer) :=
  let first := r.cache.callers.length
  let r := { r with cache := r.cache.steps (wishes.map .call) }
  let r := runUpTo (8 * r.cache.callers.length + 8) r
  (r, (List.range wishes.length).map fun i => r.cache.answer? (first + i))

def store (r : Tokens) (t : AccessToken) : Tokens :=
  { r with cache := r.cache.step (.store t) }

def missing (r : Tokens) : Bool :=
  tokenMissing r.cache.token r.today

end Tokens

end StagedTransfer.Rehearsal
