import StagedTransfer.Time.Span

/-!
# Waiting times

How long a wait for a job pauses between two questions. While the job is not found the pause may
grow by a factor, up to a bound that is never below the usual pause.
-/

namespace StagedTransfer

structure WaitPlan where
  interval    : Span
  /-- How often in all the job may be not found. -/
  attempts    : UInt32
  /-- The factor by which the pause grows while the job is not found. -/
  backoff     : Binary64
  /-- The longest pause that the factor leads to. -/
  maxInterval : Span
  deriving DecidableEq

namespace WaitPlan

/-- One second between questions, without growth. -/
def default : WaitPlan :=
  ⟨.ofMillis 1000, 10, .one, .ofMillis 30000⟩

/-- The longest pause of all. -/
def cap (w : WaitPlan) : Span :=
  Span.max w.maxInterval w.interval

/-- The pause after the job has not been found once more. There is none if the product is no span
of time. -/
def nextDelay? (w : WaitPlan) (current : Span) : Option Span :=
  if w.backoff.le .one then some w.interval
  else (current.scale? w.backoff).map fun d => Span.min d w.cap

/-- The pauses that follow `current` while the job is not found, or none if one of them is no span
of time. -/
def delays? (w : WaitPlan) : (steps : Nat) → (current : Span) → Option (List Span)
  | 0,     _       => some []
  | n + 1, current => do
    let d ← w.nextDelay? current
    return d :: (← w.delays? n d)

end WaitPlan

end StagedTransfer
