import Mathlib.Tactic.Lemma
import StagedTransfer.Transfer.Wait

/-!
# Pauses while a job is not found

While a job is not found one pause is computed from the other. Whatever the factor and the spans of
a wait are, none of these pauses is above its bound.
-/

namespace StagedTransfer.WaitPlan

variable {w : WaitPlan} {k : Nat} {d d' : Span}

/-- The pause that is due if the job is not found once more after it has been so `k` times in a row,
if it is a span. -/
def delayAfter? (w : WaitPlan) : (k : Nat) → Option Span
  | 0     => some w.interval
  | k + 1 => (w.delayAfter? k).bind w.nextDelay?

lemma interval_le_cap : w.interval ≤ w.cap :=
  Nat.le_max_right w.maxInterval.nanos w.interval.nanos

/-- Without growth the next pause is the usual one. -/
lemma nextDelay?_of_le (steady : w.backoff.le .one = true) : w.nextDelay? d = some w.interval :=
  if_pos steady

/-- With growth the next pause is the product, but not above the bound. -/
lemma nextDelay?_of_not_le (grows : w.backoff.le .one = false) :
    w.nextDelay? d = (d.scale? w.backoff).map fun d' => Span.min d' w.cap :=
  if_neg (by simp [grows])

lemma le_cap_of_nextDelay? (next : w.nextDelay? d = some d') : d' ≤ w.cap := by
  cases growth : w.backoff.le .one with
  | true =>
    rw [nextDelay?_of_le growth] at next
    obtain rfl := Option.some.inj next
    exact interval_le_cap
  | false =>
    rw [nextDelay?_of_not_le growth, Option.map_eq_some_iff] at next
    obtain ⟨product, -, rfl⟩ := next
    exact Nat.min_le_right product.nanos w.cap.nanos

/-- No pause is above the bound. -/
theorem le_cap_of_delayAfter? (after : w.delayAfter? k = some d) : d ≤ w.cap := by
  cases k with
  | zero =>
    obtain rfl := Option.some.inj after
    exact interval_le_cap
  | succ k =>
    obtain ⟨before, -, next⟩ := Option.bind_eq_some_iff.1 after
    exact le_cap_of_nextDelay? next

/-- Without growth every pause is the usual one. -/
theorem delayAfter?_of_le (steady : w.backoff.le .one = true) (k : Nat) :
    w.delayAfter? k = some w.interval := by
  induction k with
  | zero => rfl
  | succ k ih => rw [delayAfter?, ih, Option.bind_some, nextDelay?_of_le steady]

end StagedTransfer.WaitPlan
