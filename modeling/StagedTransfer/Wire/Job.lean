import StagedTransfer.Json.Message
import StagedTransfer.Wire.JobState

/-!
# Scheduler jobs

A transfer is carried out by a job of the scheduler. The gateway names the job when it accepts the
transfer, and reports the state of the job each time it is asked.
-/

namespace StagedTransfer.Wire

open Json (Message)

/-- The job that moves the data of a transfer. -/
structure TransferJob where
  jobId            : Int64
  system           : String
  workingDirectory : String
  /-- The remote path of each log. -/
  logs             : OrderedMap String String
  deriving DecidableEq, Inhabited

instance : Message TransferJob where
  shape := .record "TransferJob" <|
    .cons "jobId" .required (Message.shape Int64) <|
    .cons "system" .defaulted (Message.shape String) <|
    .cons "workingDirectory" .defaulted (Message.shape String) <|
    .cons "logs" .defaulted (Message.shape (OrderedMap String String)) .nil
  carry a :=
    (Message.carry a.jobId, Message.carry a.system, Message.carry a.workingDirectory,
      Message.carry a.logs, ())
  ofCarried c :=
    ⟨Message.ofCarried c.1, Message.ofCarried c.2.1, Message.ofCarried c.2.2.1,
      Message.ofCarried c.2.2.2.1⟩
  ofCarried_carry _ := by simp only [Message.ofCarried_carry]
  carry_ofCarried _ := by simp only [Message.carry_ofCarried]; rfl

/-- The times of a job in seconds; its start and its end count from the epoch. -/
structure JobTime where
  elapsed   : Option Int64
  start     : Option Int64
  finish    : Option Int64
  suspended : Option Int64
  limit     : Option Int64
  deriving DecidableEq, Inhabited

instance : Message JobTime where
  shape := .record "SchedulerTime" <|
    .cons "elapsed" .defaulted (Message.shape (Option Int64)) <|
    .cons "start" .defaulted (Message.shape (Option Int64)) <|
    .cons "end" .defaulted (Message.shape (Option Int64)) <|
    .cons "suspended" .defaulted (Message.shape (Option Int64)) <|
    .cons "limit" .defaulted (Message.shape (Option Int64)) .nil
  carry a :=
    (Message.carry a.elapsed, Message.carry a.start, Message.carry a.finish,
      Message.carry a.suspended, Message.carry a.limit, ())
  ofCarried c :=
    ⟨Message.ofCarried c.1, Message.ofCarried c.2.1, Message.ofCarried c.2.2.1,
      Message.ofCarried c.2.2.2.1, Message.ofCarried c.2.2.2.2.1⟩
  ofCarried_carry _ := by simp only [Message.ofCarried_carry]
  carry_ofCarried _ := by simp only [Message.carry_ofCarried]; rfl

/-- What the scheduler says of a job or of one of its tasks. -/
structure JobStatus where
  state           : Option String
  stateReason     : Option String
  exitCode        : Option Int32
  interruptSignal : Option Int32
  deriving DecidableEq, Inhabited

instance : Message JobStatus where
  shape := .record "SchedulerJobStatus" <|
    .cons "state" .defaulted (Message.shape (Option String)) <|
    .cons "stateReason" .defaulted (Message.shape (Option String)) <|
    .cons "exitCode" .defaulted (Message.shape (Option Int32)) <|
    .cons "interruptSignal" .defaulted (Message.shape (Option Int32)) .nil
  carry a :=
    (Message.carry a.state, Message.carry a.stateReason, Message.carry a.exitCode,
      Message.carry a.interruptSignal, ())
  ofCarried c :=
    ⟨Message.ofCarried c.1, Message.ofCarried c.2.1, Message.ofCarried c.2.2.1,
      Message.ofCarried c.2.2.2.1⟩
  ofCarried_carry _ := by simp only [Message.ofCarried_carry]
  carry_ofCarried _ := by simp only [Message.carry_ofCarried]; rfl

/-- The state reported; none if it is missing or blank. -/
def JobStatus.jobState? (s : JobStatus) : Option JobState :=
  JobState.ofReport? s.state

structure JobTask where
  id     : Option String
  name   : Option String
  status : Option JobStatus
  time   : Option JobTime
  deriving DecidableEq, Inhabited

instance : Message JobTask where
  shape := .record "SchedulerTask" <|
    .cons "id" .defaulted (Message.shape (Option String)) <|
    .cons "name" .defaulted (Message.shape (Option String)) <|
    .cons "status" .defaulted (Message.shape (Option JobStatus)) <|
    .cons "time" .defaulted (Message.shape (Option JobTime)) .nil
  carry a :=
    (Message.carry a.id, Message.carry a.name, Message.carry a.status, Message.carry a.time, ())
  ofCarried c :=
    ⟨Message.ofCarried c.1, Message.ofCarried c.2.1, Message.ofCarried c.2.2.1,
      Message.ofCarried c.2.2.2.1⟩
  ofCarried_carry _ := by simp only [Message.ofCarried_carry]
  carry_ofCarried _ := by simp only [Message.carry_ofCarried]; rfl

structure SchedulerJob where
  jobId            : Int64
  name             : Option String
  status           : Option JobStatus
  tasks            : Option (List JobTask)
  time             : Option JobTime
  account          : Option String
  allocationNodes  : Option Int32
  cluster          : Option String
  group            : Option String
  nodes            : Option String
  partition        : Option String
  priority         : Option Int64
  killRequestUser  : Option String
  user             : Option String
  workingDirectory : Option String
  deriving DecidableEq, Inhabited

instance : Message SchedulerJob where
  shape := .record "SchedulerJob" <|
    .cons "jobId" .required (Message.shape Int64) <|
    .cons "name" .defaulted (Message.shape (Option String)) <|
    .cons "status" .defaulted (Message.shape (Option JobStatus)) <|
    .cons "tasks" .defaulted (Message.shape (Option (List JobTask))) <|
    .cons "time" .defaulted (Message.shape (Option JobTime)) <|
    .cons "account" .defaulted (Message.shape (Option String)) <|
    .cons "allocationNodes" .defaulted (Message.shape (Option Int32)) <|
    .cons "cluster" .defaulted (Message.shape (Option String)) <|
    .cons "group" .defaulted (Message.shape (Option String)) <|
    .cons "nodes" .defaulted (Message.shape (Option String)) <|
    .cons "partition" .defaulted (Message.shape (Option String)) <|
    .cons "priority" .defaulted (Message.shape (Option Int64)) <|
    .cons "killRequestUser" .defaulted (Message.shape (Option String)) <|
    .cons "user" .defaulted (Message.shape (Option String)) <|
    .cons "workingDirectory" .defaulted (Message.shape (Option String)) .nil
  carry a :=
    (Message.carry a.jobId, Message.carry a.name, Message.carry a.status, Message.carry a.tasks,
      Message.carry a.time, Message.carry a.account, Message.carry a.allocationNodes,
      Message.carry a.cluster, Message.carry a.group, Message.carry a.nodes,
      Message.carry a.partition, Message.carry a.priority, Message.carry a.killRequestUser,
      Message.carry a.user, Message.carry a.workingDirectory, ())
  ofCarried c :=
    ⟨Message.ofCarried c.1, Message.ofCarried c.2.1, Message.ofCarried c.2.2.1,
      Message.ofCarried c.2.2.2.1, Message.ofCarried c.2.2.2.2.1, Message.ofCarried c.2.2.2.2.2.1,
      Message.ofCarried c.2.2.2.2.2.2.1, Message.ofCarried c.2.2.2.2.2.2.2.1,
      Message.ofCarried c.2.2.2.2.2.2.2.2.1, Message.ofCarried c.2.2.2.2.2.2.2.2.2.1,
      Message.ofCarried c.2.2.2.2.2.2.2.2.2.2.1, Message.ofCarried c.2.2.2.2.2.2.2.2.2.2.2.1,
      Message.ofCarried c.2.2.2.2.2.2.2.2.2.2.2.2.1,
      Message.ofCarried c.2.2.2.2.2.2.2.2.2.2.2.2.2.1,
      Message.ofCarried c.2.2.2.2.2.2.2.2.2.2.2.2.2.2.1⟩
  ofCarried_carry _ := by simp only [Message.ofCarried_carry]
  carry_ofCarried _ := by simp only [Message.carry_ofCarried]; rfl

/-- A job of which nothing is known but its number. -/
def SchedulerJob.bare (jobId : Int64) : SchedulerJob :=
  { (default : SchedulerJob) with jobId := jobId }

def SchedulerJob.jobState? (j : SchedulerJob) : Option JobState :=
  j.status.bind JobStatus.jobState?

end StagedTransfer.Wire
