/-!
# Phases of a transfer

An upload goes from its plan over its parts and their completion, and over the wait for its job if
it is asked for, to its end. A download goes from its plan over the wait and the fetch to its end.
Every phase but the last may be left by a failure.
-/

namespace StagedTransfer

inductive Phase
  | planRequested
  | partsUploading
  | completionSent
  | jobPolling
  | downloading
  | done
  | failed (reason : String)
  deriving DecidableEq, Repr

namespace Phase

def isFinal : Phase → Bool
  | done     => true
  | failed _ => true
  | _        => false

def canAdvanceTo : Phase → Phase → Bool
  | done,           _              => false
  | failed _,       _              => false
  | _,              failed _       => true
  | planRequested,  partsUploading => true
  | planRequested,  jobPolling     => true
  | partsUploading, completionSent => true
  | completionSent, jobPolling     => true
  | completionSent, done           => true
  | jobPolling,     downloading    => true
  | jobPolling,     done           => true
  | downloading,    done           => true
  | _,              _              => false

def text : Phase → String
  | planRequested  => "PLAN_REQUESTED"
  | partsUploading => "PARTS_UPLOADING"
  | completionSent => "COMPLETION_SENT"
  | jobPolling     => "JOB_POLLING"
  | downloading    => "DOWNLOADING"
  | done           => "DONE"
  | failed reason  => "FAILED(" ++ reason ++ ")"

/-- The phase after the next one is offered: it is taken if it may follow. -/
def offer (current next : Phase) : Phase :=
  if current.canAdvanceTo next then next else current

/-- The phases taken of those offered in order, the first without a condition. -/
def walk : List Phase → List Phase
  | []      => []
  | p :: ps => p :: go p ps
where
  go (current : Phase) : List Phase → List Phase
    | []      => []
    | p :: ps => if current.canAdvanceTo p then p :: go p ps else go current ps

end Phase

end StagedTransfer
