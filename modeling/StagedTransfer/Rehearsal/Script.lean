import StagedTransfer.Token.Access
import StagedTransfer.Transfer.Call

/-!
# Scripts

A script says in advance what the other sides of a transfer answer and after how many milliseconds.
The answers to one kind of call are used in order.
-/

namespace StagedTransfer.Rehearsal

/-- Something that comes after a delay in milliseconds. -/
structure Timed (α : Type) where
  delay : Nat
  value : α

/-! ### Tokens -/

/-- The answer to the question for a token with a number, counted from one. -/
abbrev TokenAnswer := Nat → Except TokenError AccessToken

/-- The answer when the script says nothing: a token that is accepted for a long time. -/
def usualToken : TokenAnswer := fun n =>
  .ok ⟨"tok-" ++ toString n, .ofSeconds 4102444800⟩

abbrev TokenScript := List (Timed TokenAnswer)

/-- The next answer and the rest of a script. -/
def TokenScript.next : TokenScript → Timed TokenAnswer × TokenScript
  | []     => (⟨0, usualToken⟩, [])
  | e :: s => (e, s)

/-! ### Calls -/

/-- What the other side serves for a call: contents for those that fill a file, and for a fetch also
how much of it comes if the connection breaks. -/
abbrev Served : CallKind → Type
  | .downloadSmall => Bytes
  | .fetch         => Bytes × Option Nat
  | k              => k.Answer

structure Serving (k : CallKind) where
  answer  : Call → Except TransferError (Served k)
  /-- The cached token is not accepted any more when the answer comes. -/
  expires : Bool

/-- The answers to the calls of each kind. There is no answer to a call of a kind whose answers are
used up, except that a completion always succeeds if the script leaves completions out. -/
structure CallScript where
  answers   : (k : CallKind) → List (Timed (Serving k))
  completes : Bool

def CallScript.drop (s : CallScript) (k : CallKind) : CallScript :=
  { s with answers := fun k' => if k' = k then (s.answers k').drop 1 else s.answers k' }

def exhausted : TransferError :=
  .http "script exhausted"

/-! ### Parts -/

/-- What becomes of a part that is sent to an address. -/
structure PutRule where
  url     : String
  delay   : Nat
  /-- The tag, if it is not the usual one. -/
  etag    : Option String
  error   : Option TransferError
  /-- A file that is resized when the answer comes. -/
  resize  : Option (String × Nat)

end StagedTransfer.Rehearsal
