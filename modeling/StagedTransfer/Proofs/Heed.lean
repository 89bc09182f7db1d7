import Mathlib.Tactic.Lemma
import StagedTransfer.Proofs.Course
import StagedTransfer.Transfer.Operations

/-!
# Activities that heed a cancellation

Wherever an activity waits for something, it may learn that the transfer has been cancelled. Each
operation then gives up: it ends as cancelled and waits for nothing more, though it may still tell of
its end.
-/

namespace StagedTransfer

open Activity Wire

namespace Activity

variable {α β : Type}

/-- The activity ends as cancelled and waits for nothing before. -/
inductive GivesUp : Activity α → Prop
  | done : GivesUp (.done (.error (.failed .cancelled)))
  | act {a : Act} {next : a.Answer → Activity α} (rest : ∀ x, GivesUp (next x)) :
    GivesUp (.act a next)

/-- Wherever the activity waits it gives up once it is told of a cancellation. It may be left
unfinished only if `lax`, or right after a pause. -/
inductive Heedful (lax : Prop) : Activity α → Prop
  | done {r : Except Stop α} (ended : r = .error .unfinished → lax) : Heedful lax (.done r)
  | act {a : Act} {next : a.Answer → Activity α} (rest : ∀ x, Heedful lax (next x)) :
    Heedful lax (.act a next)
  | await {w : Await} {next : Except TransferError w.Answer → Activity α}
    (up : (next (.error .cancelled)).GivesUp)
    (rest : ∀ x, (next x = .done (.error .unfinished) → ∀ d, w ≠ .pause d) →
      Heedful lax (next x)) :
    Heedful lax (.await w next)
  | send {b : Batch} {next : Sending.Result → Activity α} (some' : 0 < b.slots)
    (up : (next (.error .cancelled)).GivesUp) (rest : ∀ x, Heedful lax (next x)) :
    Heedful lax (.send b next)

/-! ### Giving up -/

namespace GivesUp

variable {a : Activity α}

lemma bind (h : a.GivesUp) (f : α → Activity β) : (a.bind f).GivesUp := by
  induction h with
  | done => exact .done
  | act _ ih => exact .act ih

lemma attempt_bind (h : a.GivesUp) {f : Except TransferError α → Activity β}
    (hf : (f (.error .cancelled)).GivesUp) : (a.attempt.bind f).GivesUp := by
  induction h with
  | done => exact hf
  | act _ ih => exact .act ih

/-- An activity that gives up does only what is done at once. -/
lemma of_course (h : a.GivesUp) {log : Log} {r : Except Stop α} (course : a.Course log r) :
    (∀ note ∈ log, ∃ a x, note = .acted a x) ∧ r = .error (.failed .cancelled) := by
  induction h generalizing log with
  | done =>
    cases course
    exact ⟨by simp, rfl⟩
  | @act a next _ ih =>
    cases course with
    | act x rest =>
      obtain ⟨acts, rfl⟩ := ih x rest
      refine ⟨fun note mem => ?_, rfl⟩
      rcases List.mem_cons.1 mem with rfl | mem
      · exact ⟨a, x, rfl⟩
      · exact acts note mem

end GivesUp

/-! ### Heed -/

namespace Heedful

variable {lax : Prop} {a : Activity α}

lemma pure {x : α} : Heedful lax (Pure.pure x : Activity α) :=
  .done (by simp)

lemma fail {e : TransferError} : Heedful lax (Activity.fail e : Activity α) :=
  .done (by simp)

lemma overrun {o : Overrun} : Heedful lax (Activity.overrun o : Activity α) :=
  .done (by simp)

lemma ofExcept {x : Except TransferError α} : Heedful lax (Activity.ofExcept x) := by
  cases x with
  | ok x => exact .pure
  | error e => exact .fail

lemma bind (h : Heedful lax a) {f : α → Activity β} (hf : ∀ x, Heedful lax (f x)) :
    Heedful lax (a >>= f) := by
  change Heedful lax (a.bind f)
  induction h with
  | @done r ended =>
    cases r with
    | ok x => exact hf x
    | error s => exact .done fun unfinished => ended (by simpa using unfinished)
  | act _ ih => exact .act ih
  | await up _ ih =>
    refine .await (up.bind f) fun x ended => ih x fun unfinished => ended ?_
    rw [unfinished]
    rfl
  | send some' up _ ih => exact .send some' (up.bind f) ih

/-- An activity that goes on with the error of another gives up if it does so once that one has. -/
lemma attempt_bind (h : Heedful lax a) {f : Except TransferError α → Activity β}
    (up : (f (.error .cancelled)).GivesUp) (hf : ∀ x, Heedful lax (f x)) :
    Heedful lax (a.attempt >>= f) := by
  change Heedful lax (a.attempt.bind f)
  induction h with
  | @done r ended =>
    rcases r with (e | o | _) | x
    · exact hf (.error e)
    · exact .done (by simp)
    · exact .done fun _ => ended rfl
    · exact hf (.ok x)
  | act _ ih => exact .act ih
  | await up' _ ih =>
    refine .await (up'.attempt_bind up) fun x ended => ih x fun unfinished => ended ?_
    dsimp only
    rw [unfinished]
    rfl
  | send some' up' _ ih => exact .send some' (up'.attempt_bind up) ih

lemma perform_bind {a : Act} {f : a.Answer → Activity β} (hf : ∀ x, Heedful lax (f x)) :
    Heedful lax (perform a >>= f) :=
  .act hf

lemma awaiting_bind {w : Await} {f : w.Answer → Activity β}
    (hf : ∀ x, (f x = .done (.error .unfinished) → ∀ d, w ≠ .pause d) → Heedful lax (f x)) :
    Heedful lax (awaiting w >>= f) := by
  refine .await .done fun x ended => ?_
  cases x with
  | ok x => exact hf x ended
  | error e => exact .fail

lemma awaiting {w : Await} : Heedful lax (Activity.awaiting w) :=
  .await .done fun _ _ => .ofExcept

/-! ### The wait for a job -/

lemma ensureToken : Heedful lax Activity.ensureToken := by
  refine .awaiting_bind fun expired _ => ?_
  cases expired with
  | true => exact .awaiting
  | false => exact .pure

/-- A wait goes on after a pause, or has used up its questions with it. -/
lemma pause_waitFrom {w : WaitPlan} {jobId : Int64} {d : Span} {rounds left : Nat} {delay : Span}
    (ih : (rounds = 0 → lax) → Heedful lax (Activity.waitFrom w jobId rounds left delay))
    (ended : Activity.waitFrom w jobId rounds left delay = .done (.error .unfinished) →
      ∀ d', Await.pause d ≠ .pause d') : Heedful lax (Activity.waitFrom w jobId rounds left delay) := by
  refine ih fun none' => ?_
  subst none'
  exact absurd rfl (ended rfl d)

lemma waitFrom (w : WaitPlan) (jobId : Int64) {rounds : Nat} (some' : rounds = 0 → lax) (left : Nat)
    (delay : Span) : Heedful lax (Activity.waitFrom w jobId rounds left delay) := by
  induction rounds generalizing left delay with
  | zero => exact .done fun _ => some' rfl
  | succ rounds ih =>
    refine .bind .ensureToken fun _ => .attempt_bind .awaiting .done fun answer => ?_
    cases answer with
    | ok job =>
      cases hs : job.jobState? with
      | none => simpa only [hs] using .fail
      | some state =>
        simp only [hs]
        refine .perform_bind fun _ => ?_
        split
        · exact .ofExcept
        · exact .awaiting_bind fun _ ended => pause_waitFrom (fun h => ih h _ _) ended
    | error e =>
      cases e with
      | notFound what =>
        refine .perform_bind fun _ => ?_
        split
        · exact .fail
        · refine .awaiting_bind fun _ ended => ?_
          cases hd : w.nextDelay? delay with
          | none => simpa only [hd] using .overrun
          | some d =>
            simp only [hd] at ended ⊢
            exact pause_waitFrom (fun h => ih h _ _) ended
      | _ => exact .fail

end Heedful

end Activity

/-! ### Operations -/

/-- What can be asked of the program, with what it yields. -/
inductive Operation : Type → Type
  | upload (file remote : String) (wait : Bool) : Operation (Option Int64)
  | uploadLarge (file remote : String) (wait : Bool) : Operation Int64
  | uploadSmall (file remote : String) : Operation Unit
  | download (remote file : String) : Operation Nat
  | downloadLarge (remote file : String) : Operation Nat
  | downloadSmall (remote file : String) : Operation Nat
  | waitForJob (jobId : Int64) : Operation SchedulerJob
  | cancelJob (jobId : Int64) : Operation Unit
  | copy (source target : String) (wait : Bool) : Operation TransferJob
  | move (source target : String) (wait : Bool) : Operation TransferJob
  | remove (path : String) (wait : Bool) : Operation TransferJob
  | compress (source target : String) (pattern : Option String) (dereference wait : Bool) :
    Operation TransferJob
  | extract (source target : String) (wait : Bool) : Operation TransferJob

namespace Profile

variable (p : Profile)

/-- How an operation is carried out. -/
def activity {α : Type} : Operation α → Activity α
  | .upload file remote wait                            => p.upload file remote wait
  | .uploadLarge file remote wait                       => p.uploadLarge file remote wait
  | .uploadSmall file remote                            => uploadSmall file remote
  | .download remote file                               => p.download remote file
  | .downloadLarge remote file                          => p.downloadLarge remote file
  | .downloadSmall remote file                          => downloadSmall remote file
  | .waitForJob jobId                                   => p.waitForJob jobId
  | .cancelJob jobId                                    => cancelJob jobId
  | .copy source target wait                            => p.copy source target wait
  | .move source target wait                            => p.move source target wait
  | .remove path wait                                   => p.remove path wait
  | .compress source target pattern dereference wait    =>
    p.compress source target pattern dereference wait
  | .extract source target wait                         => p.extract source target wait

/-- Operations that wait for a job may use up their questions before they ask one. -/
def Impatient : Prop :=
  p.patience = 0

lemma heedful_sendParts (file : String) (plan : UploadPlan) :
    Heedful p.Impatient (p.sendParts file plan) := by
  simp only [sendParts]
  split
  · exact .fail
  · refine .perform_bind fun size => ?_
    split
    · exact .fail
    · split
      · exact .fail
      · split
        · exact .overrun
        · exact .send (Nat.le_max_left 1 p.parallel) .done fun _ => .ofExcept

lemma heedful_sendFile (file : String) (plan : UploadPlan) :
    Heedful p.Impatient (p.sendFile file plan) := by
  refine .bind (p.heedful_sendParts file plan) fun etags => ?_
  split
  · exact .fail
  · exact .bind .awaiting fun _ => .perform_bind fun _ => .pure

lemma heedful_waitForJob (jobId : Int64) : Heedful p.Impatient (p.waitForJob jobId) :=
  .waitFrom p.wait jobId id _ _

lemma heedful_concluding {α : Type} {a : Activity (Int64 × α)} (h : Heedful p.Impatient a) :
    Heedful p.Impatient (concluding a) := by
  refine .attempt_bind h (.act fun _ => .act fun _ => .done) fun x => ?_
  cases x with
  | ok x => exact .perform_bind fun _ => .perform_bind fun _ => .pure
  | error e => exact .perform_bind fun _ => .perform_bind fun _ => .fail

lemma heedful_uploadLarge (file remote : String) (wait : Bool) :
    Heedful p.Impatient (p.uploadLarge file remote wait) := by
  refine p.heedful_concluding (.bind .ofExcept fun path => .perform_bind fun size => ?_)
  refine .bind .ofExcept fun size => .bind .awaiting fun plan => .perform_bind fun _ => ?_
  refine .perform_bind fun _ => .bind (p.heedful_sendFile file plan) fun _ => .perform_bind fun _ => ?_
  cases wait with
  | true =>
    exact .perform_bind fun _ => .bind (p.heedful_waitForJob _) fun _ => .pure
  | false => exact .pure

lemma heedful_uploadSmall (file remote : String) :
    Heedful p.Impatient (uploadSmall file remote) :=
  .bind .ofExcept fun _ => .awaiting

lemma heedful_downloadLarge (remote file : String) :
    Heedful p.Impatient (p.downloadLarge remote file) := by
  refine p.heedful_concluding (.bind .awaiting fun plan => .perform_bind fun _ => ?_)
  refine .perform_bind fun _ => .bind (p.heedful_waitForJob _) fun _ => .perform_bind fun _ => ?_
  refine .perform_bind fun _ => .attempt_bind .awaiting .done fun x => ?_
  cases x with
  | ok size => exact .pure
  | error e => exact .fail

lemma heedful_following (wait : Bool) {a : Activity TransferJob} (h : Heedful p.Impatient a) :
    Heedful p.Impatient (p.following wait a) := by
  refine .bind h fun job => ?_
  cases wait with
  | true => exact .bind (p.heedful_waitForJob _) fun _ => .pure
  | false => exact .pure

/-- Every operation gives up once it is told of a cancellation. -/
theorem heedful_activity {α : Type} (o : Operation α) : Heedful p.Impatient (p.activity o) := by
  cases o with
  | upload file remote wait =>
    refine .perform_bind fun size => .bind .ofExcept fun size => ?_
    split
    · exact .bind (p.heedful_uploadSmall file remote) fun _ => .pure
    · exact .bind (p.heedful_uploadLarge file remote wait) fun _ => .pure
  | uploadLarge file remote wait => exact p.heedful_uploadLarge file remote wait
  | uploadSmall file remote => exact p.heedful_uploadSmall file remote
  | download remote file =>
    refine .bind .awaiting fun stat => ?_
    split
    · exact .awaiting
    · exact p.heedful_downloadLarge remote file
  | downloadLarge remote file => exact p.heedful_downloadLarge remote file
  | downloadSmall remote file => exact .awaiting
  | waitForJob jobId => exact p.heedful_waitForJob jobId
  | cancelJob jobId => exact .awaiting
  | copy source target wait => exact p.heedful_following wait .awaiting
  | move source target wait => exact p.heedful_following wait .awaiting
  | remove path wait => exact p.heedful_following wait .awaiting
  | compress source target pattern dereference wait => exact p.heedful_following wait .awaiting
  | extract source target wait => exact p.heedful_following wait .awaiting

end Profile

end StagedTransfer
