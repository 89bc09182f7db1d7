import StagedTransfer.Parts.Manifest
import StagedTransfer.Parts.RemotePath
import StagedTransfer.Transfer.Polling

/-!
# Operations

What can be asked of the program: large files go through the object store part by part, small ones
in a single request, and files are copied, moved, removed, packed and unpacked where they are.
-/

namespace StagedTransfer

open Wire

/-- How operations are carried out. -/
structure Profile where
  account    : Option String
  wait       : WaitPlan
  /-- How many parts may be sent at once; none counts as one. -/
  parallel   : Nat
  smallLimit : Nat
  /-- How many questions a wait may ask. -/
  patience   : Nat

namespace Profile

open Activity

variable (p : Profile)

/-! ### Sending a file in parts -/

/-- The most slots that can be counted. -/
def slotLimit : Nat := Nat.pow 2 61 - 1

def slots : Nat :=
  max 1 p.parallel

/-- What is said of a plan for another number of parts. -/
def countMessage (planned size needed : Nat) : String :=
  "upload plan has " ++ toString planned ++ " part URLs, file of " ++ toString size
    ++ " bytes needs " ++ toString needed

def sendParts (file : String) (plan : UploadPlan) : Activity (OrderedMap Nat String) := do
  let partSize := plan.maxPartSize.toNat
  if partSize = 0 then fail (.malformedResponse "upload plan has a zero maxPartSize")
  else
    match PartReader.open (← perform (.size file)) partSize with
    | .error e   => fail (.chunk e)
    | .ok reader =>
      let needed := partCount reader.fileSize partSize
      let planned := plan.partsUploadUrls.length
      if needed ≠ planned then
        fail (.malformedResponse (countMessage planned reader.fileSize needed))
      -- slots are made last, when the file is open and the plan fits it
      else if slotLimit < p.slots then overrun .slots
      else .send ⟨file, p.slots, reader, plan.partsUploadUrls⟩ ofExcept

/-- Sends all parts of a file and tells the store that they are complete. -/
def sendFile (file : String) (plan : UploadPlan) : Activity (OrderedMap Nat String) := do
  let etags ← p.sendParts file plan
  -- no more tags are at hand than a manifest has room for
  match Manifest.ofEtags etags plan.partsUploadUrls.length with
  | .error e     => fail (.chunk e)
  | .ok manifest =>
    call (.complete plan.completeUploadUrl manifest.toXml)
    emit (.completionSent manifest.parts.length)
    return etags

/-! ### Large files -/

/-- Tells how a transfer ends. The activity yields the number of its job beside its value. -/
def concluding {α : Type} (a : Activity (Int64 × α)) : Activity α := do
  match ← a.attempt with
  | .ok (jobId, x) =>
    perform (.enter .done)
    emit (.done jobId)
    return x
  | .error e =>
    perform (.enter (.failed e.message))
    emit (.failed e.message)
    fail e

def uploadSteps (file remote : String) (wait : Bool) : Activity (Int64 × Int64) := do
  let (dir, name) ← ofExcept ((RemotePath.split remote).mapError .chunk)
  let size ← ofExcept ((← perform (.size file)).mapError .io)
  let plan ← call (.uploadPlan ⟨dir, name, p.account, UInt64.ofNat size⟩)
  let jobId := plan.transferJob.jobId
  emit (.planReceived jobId plan.partsUploadUrls.length)
  perform (.enter .partsUploading)
  let _ ← p.sendFile file plan
  perform (.enter .completionSent)
  if wait then
    perform (.enter .jobPolling)
    let _ ← waitForJob p.wait p.patience jobId
  return (jobId, jobId)

/-- Uploads a file through the store, and waits for its job if asked to. -/
def uploadLarge (file remote : String) (wait : Bool) : Activity Int64 :=
  concluding (p.uploadSteps file remote wait)

/-- An error of the fetch names the file, unless the transfer has been cancelled. -/
def fetchError (file : String) : TransferError → TransferError
  | .cancelled => .cancelled
  | e          => .download file e

def downloadSteps (remote file : String) : Activity (Int64 × Nat) := do
  let plan ← call (.downloadPlan ⟨remote, p.account⟩)
  let jobId := plan.transferJob.jobId
  -- a download has no parts
  emit (.planReceived jobId 0)
  perform (.enter .jobPolling)
  let _ ← waitForJob p.wait p.patience jobId
  perform (.enter .downloading)
  emit (.downloading jobId file)
  match ← (call (.fetch plan.downloadUrl file)).attempt with
  | .ok size => return (jobId, size)
  | .error e => fail (fetchError file e)

def downloadLarge (remote file : String) : Activity Nat :=
  concluding (p.downloadSteps remote file)

/-! ### Jobs -/

def waitForJob (jobId : Int64) : Activity SchedulerJob :=
  Activity.waitForJob p.wait p.patience jobId

def cancelJob (jobId : Int64) : Activity Unit :=
  call (.cancelJob jobId)

/-- Waits for the job that an operation has started, if asked to. -/
def following (wait : Bool) (a : Activity TransferJob) : Activity TransferJob := do
  let job ← a
  if wait then
    let _ ← p.waitForJob job.jobId
  return job

/-! ### Files where they are -/

def targetRequest (source target : String) : TargetPathRequest :=
  ⟨source, target, p.account⟩

def copy (source target : String) (wait : Bool) : Activity TransferJob :=
  p.following wait (call (.copy (p.targetRequest source target)))

def move (source target : String) (wait : Bool) : Activity TransferJob :=
  p.following wait (call (.move (p.targetRequest source target)))

def remove (path : String) (wait : Bool) : Activity TransferJob :=
  p.following wait (call (.remove path p.account))

def compress (source target : String) (pattern : Option String) (dereference wait : Bool) :
    Activity TransferJob :=
  p.following wait (call (.compress ⟨source, target, p.account, pattern, dereference⟩))

def extract (source target : String) (wait : Bool) : Activity TransferJob :=
  p.following wait (call (.extract (p.targetRequest source target)))

/-! ### Small files, and files of either size -/

def uploadSmall (file remote : String) : Activity Unit := do
  let (dir, name) ← ofExcept ((RemotePath.split remote).mapError .chunk)
  call (.uploadSmall file dir name)

def downloadSmall (remote file : String) : Activity Nat :=
  call (.downloadSmall remote file)

/-- Uploads a file the way its size asks for. A large one yields the number of its job. -/
def upload (file remote : String) (wait : Bool) : Activity (Option Int64) := do
  let size ← ofExcept ((← perform (.size file)).mapError .io)
  if size ≤ p.smallLimit then
    uploadSmall file remote
    return none
  else
    return some (← p.uploadLarge file remote wait)

def download (remote file : String) : Activity Nat := do
  let stat ← call (.stat remote)
  if stat.size.toNat ≤ p.smallLimit then downloadSmall remote file
  else p.downloadLarge remote file

end Profile

end StagedTransfer
