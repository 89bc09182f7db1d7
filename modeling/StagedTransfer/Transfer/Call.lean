import StagedTransfer.Transfer.Error
import StagedTransfer.Wire.Plan

/-!
# Calls to the gateway and the store

What a transfer asks of the other sides, the sending of parts apart, and what it gets for an answer.
-/

namespace StagedTransfer

open Wire

inductive CallKind
  | uploadPlan
  | downloadPlan
  | job
  | cancelJob
  | copy
  | move
  | remove
  | compress
  | extract
  | stat
  | uploadSmall
  | downloadSmall
  | complete
  | fetch
  deriving DecidableEq, Repr

abbrev CallKind.Answer : CallKind → Type
  | uploadPlan    => UploadPlan
  | downloadPlan  => DownloadPlan
  | job           => SchedulerJob
  | cancelJob     => Unit
  | copy          => TransferJob
  | move          => TransferJob
  | remove        => TransferJob
  | compress      => TransferJob
  | extract       => TransferJob
  | stat          => FileStat
  | uploadSmall   => Unit
  | downloadSmall => Nat
  | complete      => Unit
  | fetch         => Nat

inductive Call
  /-- Where the parts of a file go. -/
  | uploadPlan (request : UploadPlanRequest)
  | downloadPlan (request : DownloadPlanRequest)
  /-- How a job stands. -/
  | job (jobId : Int64)
  | cancelJob (jobId : Int64)
  | copy (request : TargetPathRequest)
  | move (request : TargetPathRequest)
  | remove (path : String) (account : Option String)
  | compress (request : CompressRequest)
  | extract (request : TargetPathRequest)
  | stat (path : String)
  | uploadSmall (file dir name : String)
  /-- Fetches a whole file in one request; the answer is its size. -/
  | downloadSmall (path file : String)
  | complete (url manifest : String)
  /-- Fetches an object of the store into a file; the answer is its size. -/
  | fetch (url file : String)
  deriving DecidableEq

namespace Call

def kind : Call → CallKind
  | uploadPlan _      => .uploadPlan
  | downloadPlan _    => .downloadPlan
  | job _             => .job
  | cancelJob _       => .cancelJob
  | copy _            => .copy
  | move _            => .move
  | remove _ _        => .remove
  | compress _        => .compress
  | extract _         => .extract
  | stat _            => .stat
  | uploadSmall _ _ _ => .uploadSmall
  | downloadSmall _ _ => .downloadSmall
  | complete _ _      => .complete
  | fetch _ _         => .fetch

abbrev Answer (c : Call) : Type :=
  c.kind.Answer

end Call

end StagedTransfer
