import StagedTransfer.Reply
import StagedTransfer.Time.Span
import StagedTransfer.Transfer.Call
import StagedTransfer.Transfer.Phase
import StagedTransfer.Transfer.Sending

/-!
# Activities

An activity is what a transfer does, one step after the other, where each step may depend on the
answers to those before. It says nothing about the other sides: an environment answers, lets time
pass and tells whether the transfer has been cancelled. What holds for every environment holds
whatever the other sides do.

Whatever an activity waits for is given up once the transfer is cancelled, and nothing is waited
for that has not been started before.
-/

namespace StagedTransfer

inductive Stop
  | failed (e : TransferError)
  | overrun (o : Overrun)
  /-- The activity was not followed to its end. -/
  | unfinished
  deriving DecidableEq

/-! ### Steps -/

inductive Await
  | call (c : Call)
  /-- Whether there is no access token or it is not accepted any more. -/
  | tokenExpired
  | refresh
  | pause (d : Span)

abbrev Await.Answer : Await → Type
  | call c       => c.Answer
  | tokenExpired => Bool
  | refresh      => Unit
  | pause _      => Unit

/-- What is done at once. -/
inductive Act
  | size (file : String)
  | content (file : String)
  | emit (e : Event)
  | enter (p : Phase)

abbrev Act.Answer : Act → Type
  | size _    => Except IoError Nat
  | content _ => Except IoError Bytes
  | emit _    => Unit
  | enter _   => Unit

structure Batch where
  file   : String
  slots  : Nat
  reader : PartReader
  urls   : List String

inductive Activity (α : Type) : Type
  | done (r : Except Stop α)
  | act (a : Act) (next : a.Answer → Activity α)
  | await (w : Await) (next : Except TransferError w.Answer → Activity α)
  | send (b : Batch) (next : Sending.Result → Activity α)

namespace Activity

variable {α β : Type}

/-! ### Composition -/

/-- The activity that goes on with the value of the first; it ends where that one ends. -/
protected def bind : Activity α → (α → Activity β) → Activity β
  | .done (.ok a),    f => f a
  | .done (.error s), _ => .done (.error s)
  | .act a next,      f => .act a fun x => (next x).bind f
  | .await w next,    f => .await w fun x => (next x).bind f
  | .send b next,     f => .send b fun x => (next x).bind f

instance : Monad Activity where
  pure a := .done (.ok a)
  bind := Activity.bind

def fail (e : TransferError) : Activity α :=
  .done (.error (.failed e))

def overrun (o : Overrun) : Activity α :=
  .done (.error (.overrun o))

def ofExcept : Except TransferError α → Activity α
  | .ok a    => pure a
  | .error e => fail e

/-- The activity that goes on with the error of the first as well. -/
def attempt : Activity α → Activity (Except TransferError α)
  | .done (.ok a)              => .done (.ok (.ok a))
  | .done (.error (.failed e)) => .done (.ok (.error e))
  | .done (.error s)           => .done (.error s)
  | .act a next                => .act a fun x => (next x).attempt
  | .await w next              => .await w fun x => (next x).attempt
  | .send b next               => .send b fun x => (next x).attempt

def perform (a : Act) : Activity a.Answer :=
  .act a pure

/-- Waits for something and fails with its error. -/
def awaiting (w : Await) : Activity w.Answer :=
  .await w ofExcept

def call (c : Call) : Activity c.Answer :=
  awaiting (.call c)

def emit (e : Event) : Activity Unit :=
  perform (.emit e)

end Activity

/-! ### Environments -/

structure Environment (m : Type → Type) where
  cancelled : m Bool
  /-- What comes of something waited for. If the transfer is cancelled before the answer comes, that
  is the answer. -/
  await : (w : Await) → m (Reply TransferError w.Answer)
  act : (a : Act) → m a.Answer
  /-- What comes next while parts are sent. -/
  choose : Sending.State → m Sending.Choice

namespace Environment

variable {m : Type → Type} [Monad m] (env : Environment m)

/-- The move that a choice amounts to now. -/
def moveOf (file : String) : Sending.Choice → m Sending.Move
  | .proceed          => do return .proceed (← env.cancelled) (← env.act (.content file))
  | .begin n          => pure (.begin n)
  | .finish n outcome => pure (.finish n outcome)

/-- The sending of parts from a state on, for at most `fuel` moves. -/
def sendFrom (file : String) : (fuel : Nat) → Sending.State → m (Option Sending.Result)
  | 0,     s => pure s.result
  | n + 1, s =>
    match s.result with
    | some r => pure (some r)
    | none   => do
      let move ← env.moveOf file (← env.choose s)
      let (t, e) := s.step move
      match e with
      | some e => env.act (.emit e)
      | none   => pure ()
      sendFrom file n t

def send (b : Batch) : m (Option Sending.Result) :=
  let s := Sending.State.start b.slots b.reader b.urls
  env.sendFrom b.file s.moveBound s

end Environment

/-- The course of an activity in an environment. Nothing is started after a cancellation. -/
def Activity.run {m : Type → Type} [Monad m] {α : Type} (env : Environment m) :
    Activity α → m (Except Stop α)
  | .done r       => pure r
  | .act a next   => do (next (← env.act a)).run env
  | .await w next => do
    if ← env.cancelled then (next (.error .cancelled)).run env
    else
      match ← env.await w with
      | .answered r => (next r).run env
      | .overrun o  => pure (.error (.overrun o))
  | .send b next  => do
    if ← env.cancelled then (next (.error .cancelled)).run env
    else
      match ← env.send b with
      | some r => (next r).run env
      | none   => pure (.error .unfinished)

end StagedTransfer
