import StagedTransfer.Text.Blank

/-!
# States of a scheduler job

Only a pending or a running job can still change its state. Every other state, whatever its name,
ends the wait for the job.
-/

namespace StagedTransfer.Wire

inductive JobState
  | pending
  | running
  | completed
  | other (name : String)
  deriving DecidableEq, Repr

namespace JobState

/-- The state of a name; the three known names are in upper case. -/
def parse (name : String) : JobState :=
  if name = "PENDING" then pending
  else if name = "RUNNING" then running
  else if name = "COMPLETED" then completed
  else other name

def name : JobState → String
  | pending   => "PENDING"
  | running   => "RUNNING"
  | completed => "COMPLETED"
  | other s   => s

/-- The job will not leave the state. -/
def isTerminal : JobState → Bool
  | pending => false
  | running => false
  | _       => true

/-- The state that a reported text names once it is trimmed; a blank text names none. -/
def ofReport? (report : Option String) : Option JobState :=
  match report.map Text.trim with
  | none   => none
  | some s => if s = "" then none else some (parse s)

theorem name_parse (s : String) : (parse s).name = s := by
  unfold parse
  split
  · simp [name, *]
  · split
    · simp [name, *]
    · split <;> simp [name, *]

end JobState

end StagedTransfer.Wire
