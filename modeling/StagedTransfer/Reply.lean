/-!
# Replies

What comes of something waited for: a value, an error, or the end of the whole program, because a
quantity that is computed from the answer has left its range.
-/

namespace StagedTransfer

/-- A quantity has left its range. -/
inductive Overrun
  /-- A pause that is no span of time. -/
  | pause
  /-- More slots than can be counted. -/
  | slots
  /-- An instant that no calendar tells. -/
  | expiry
  /-- A payload whose size is no number of sixty-four bits. -/
  | payload
  /-- More parts than a list has room for. -/
  | parts
  deriving DecidableEq, Repr

inductive Reply (ε α : Type)
  | answered (r : Except ε α)
  | overrun (o : Overrun)

namespace Reply

variable {ε ε' α β : Type}

def ok (a : α) : Reply ε α :=
  answered (.ok a)

def fail (e : ε) : Reply ε α :=
  answered (.error e)

/-- The same reply with another account of the error. -/
def mapError (f : ε → ε') : Reply ε α → Reply ε' α
  | answered (.ok a)    => ok a
  | answered (.error e) => fail (f e)
  | overrun o           => overrun o

def map (f : α → β) : Reply ε α → Reply ε β
  | answered (.ok a)    => ok (f a)
  | answered (.error e) => fail e
  | overrun o           => overrun o

/-- Goes on with the value of a reply. -/
def andThen {m : Type → Type} [Monad m] (r : Reply ε α) (next : α → m (Reply ε β)) :
    m (Reply ε β) :=
  match r with
  | answered (.ok a)    => next a
  | answered (.error e) => pure (fail e)
  | overrun o           => pure (overrun o)

end Reply

end StagedTransfer
