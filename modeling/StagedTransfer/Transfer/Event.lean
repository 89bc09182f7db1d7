import StagedTransfer.Transfer.Error

/-!
# Events of a transfer

What a transfer tells about its progress. Whoever listens may miss events and changes nothing.
-/

namespace StagedTransfer

inductive Event
  /-- The gateway has agreed to a transfer; a download has no parts. -/
  | planReceived (jobId : Int64) (parts : Nat)
  | partUploaded (part total bytes : Nat)
  | partFailed (part : Nat) (error : String)
  | completionSent (parts : Nat)
  /-- One question for the state of a job, with no state while the job is not found. -/
  | jobPolled (jobId : Int64) (state : Option String)
  | downloading (jobId : Int64) (path : String)
  | done (jobId : Int64)
  | failed (error : String)
  deriving DecidableEq

end StagedTransfer
