import StagedTransfer.Transfer.Activity
import StagedTransfer.Transfer.Wait

/-!
# The wait for a job

A job is asked for again and again until an answer decides: a job that will not leave its state, one
whose state cannot be told, an error, or the last time that the job may be not found. The access
token is looked at before each question and renewed if need be.
-/

namespace StagedTransfer

open Wire

namespace Activity

/-- What a job that has ended means for whoever waits for it. -/
def concluded (jobId : Int64) (state : JobState) (job : SchedulerJob) :
    Except TransferError SchedulerJob :=
  if state = .completed then .ok job
  else
    let status := job.status.getD default
    .error (.transferFailed jobId state.name status.stateReason status.exitCode)

/-- Renews the access token if it is not accepted any more. -/
def ensureToken : Activity Unit := do
  if ← awaiting .tokenExpired then awaiting .refresh

/-- The wait from one question on, of at most `rounds` questions. The job may be not found `left`
more times, and the next pause after it is not found is `delay`. -/
def waitFrom (w : WaitPlan) (jobId : Int64) :
    (rounds left : Nat) → (delay : Span) → Activity SchedulerJob
  | 0,          _,    _     => .done (.error .unfinished)
  | rounds + 1, left, delay => do
    ensureToken
    match ← (call (.job jobId)).attempt with
    | .ok job =>
      match job.jobState? with
      | none       => fail (.malformedJobStatus jobId)
      | some state =>
        emit (.jobPolled jobId (some state.name))
        if state.isTerminal then ofExcept (concluded jobId state job)
        else
          awaiting (.pause w.interval)
          -- an answer takes back the growth of the pause, not the attempts
          waitFrom w jobId rounds left w.interval
    | .error (.notFound _) =>
      emit (.jobPolled jobId none)
      -- the answer at hand is one of the attempts
      if left ≤ 1 then fail (.notFoundExhausted jobId w.attempts)
      else
        awaiting (.pause delay)
        match w.nextDelay? delay with
        | none   => overrun .pause
        | some d => waitFrom w jobId rounds (left - 1) d
    | .error e => fail e

def waitForJob (w : WaitPlan) (rounds : Nat) (jobId : Int64) : Activity SchedulerJob :=
  waitFrom w jobId rounds w.attempts.toNat w.interval

end Activity

end StagedTransfer
