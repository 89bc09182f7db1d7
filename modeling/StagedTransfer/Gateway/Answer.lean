import StagedTransfer.Http.Message
import StagedTransfer.Json.Parsing
import StagedTransfer.Transfer.Call

/-!
# What responses answer

A status of the two hundreds is a success; any other reports an error in its body, and only that of
something not found is told apart. Most answers are messages in the body of a success.
-/

namespace StagedTransfer

open Http Wire
open Json (Message)

namespace Http.Response

/-- A success, or the error that is reported instead. -/
def checked (r : Response) : Except GatewayError Response :=
  if r.isSuccess then .ok r
  else if r.status = 404 then .error (.notFound r.report)
  else .error (.api r.status r.report)

def successBody (r : Response) : Except GatewayError Bytes := do
  (← r.checked).bytes.mapError .http

def message (α : Type) [Message α] (r : Response) : Except GatewayError α := do
  (Message.decodeBytes (← r.successBody)).mapError .json

def value (r : Response) : Except GatewayError Json.Value := do
  (Json.parse (Utf8.glyphs (← r.successBody))).mapError .json

/-- The job that an operation has started. -/
def startedJob (r : Response) : Except GatewayError TransferJob := do
  return (← r.message TransferJobResponse).transferJob

def firstJob (r : Response) (jobId : Int64) : Except GatewayError SchedulerJob := do
  match (← r.message JobsResponse).jobs with
  | job :: _ => .ok job
  | []       => .error (.notFound ("job " ++ toString jobId.toInt))

def attributes (r : Response) (path : String) : Except GatewayError FileStat := do
  match (← r.message FileStatResponse).output with
  | some stat => .ok stat
  | none      => .error (.notFound ("stat of " ++ path))

def etag (r : Response) : Except GatewayError String := do
  match (← r.checked).header? "etag" with
  | some tag => .ok tag
  | none     => .error (.missingHeader "ETag")

end Http.Response

/-! ### Calls -/

namespace Call

/-- The file that a call fetches into. -/
def destination? : Call → Option String
  | downloadSmall _ file => some file
  | fetch _ file         => some file
  | _                    => none

/-- The answer in a response. That of a call that fetches is the size of what has come. -/
def read : (c : Call) → Response → Except GatewayError c.Answer
  | uploadPlan _,      r => r.message UploadPlan
  | downloadPlan _,    r => r.message DownloadPlan
  | job jobId,         r => r.firstJob jobId
  | cancelJob _,       r => r.checked.map fun _ => ()
  | copy _,            r => r.startedJob
  | move _,            r => r.startedJob
  | remove _ _,        r => r.startedJob
  | compress _,        r => r.startedJob
  | extract _,         r => r.startedJob
  | stat path,         r => r.attributes path
  | uploadSmall _ _ _, r => r.checked.map fun _ => ()
  | downloadSmall _ _, r => r.successBody.map List.length
  | complete _ _,      r => r.checked.map fun _ => ()
  | fetch _ _,         r => r.successBody.map List.length

end Call

end StagedTransfer
