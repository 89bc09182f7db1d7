import StagedTransfer.Data.OrderedMap
import StagedTransfer.Gateway.Error
import StagedTransfer.Parts.Error

/-!
# Errors of a transfer
-/

namespace StagedTransfer

/-- A part that did not arrive: where it was sent and what was answered. -/
structure FailedPart where
  url   : String
  error : String
  deriving DecidableEq

inductive TransferError
  | auth (e : TokenError)
  /-- The job or the path is not visible, or not yet. -/
  | notFound (what : String)
  | http (what : String)
  /-- The parts that did not arrive, by number. -/
  | partialUpload (failed : OrderedMap Nat FailedPart)
  | malformedResponse (what : String)
  | malformedJobStatus (jobId : Int64)
  /-- The job ended in another state than success. -/
  | transferFailed (jobId : Int64) (state : String) (reason : Option String)
      (exitCode : Option Int32)
  | notFoundExhausted (jobId : Int64) (attempts : UInt32)
  /-- The object could not be fetched into the file. -/
  | download (path : String) (source : TransferError)
  | fileTooLarge (size limit : Nat)
  | cancelled
  | io (e : IoError)
  | chunk (e : ChunkError)
  deriving DecidableEq

namespace TransferError

def joined (separator : String) (texts : List String) : String :=
  separator.intercalate texts

def partList (failed : OrderedMap Nat FailedPart) : String :=
  joined ", " (failed.entries.map fun (n, p) => toString n ++ " (" ++ p.error ++ ")")

def exitSuffix : Option Int32 → String
  | none      => ""
  | some code => " (exit code " ++ toString code.toInt ++ ")"

/-- An empty reason is not shown. -/
def reasonSuffix : Option String → String
  | none   => ""
  | some r => if r = "" then "" else ": " ++ r

def message : TransferError → String
  | auth e                               => "authentication error: " ++ e.message
  | notFound what                        => "not found: " ++ what
  | http what                            => "HTTP error: " ++ what
  | partialUpload failed                 =>
    toString failed.size ++ " part upload(s) failed: parts " ++ partList failed
  | malformedResponse what               => "malformed response: " ++ what
  | malformedJobStatus jobId             =>
    "job " ++ toString jobId.toInt ++ ": status not readable"
  | transferFailed jobId state reason exitCode =>
    "job " ++ toString jobId.toInt ++ " ended in state " ++ state ++ exitSuffix exitCode
      ++ reasonSuffix reason
  | notFoundExhausted jobId attempts     =>
    "job " ++ toString jobId.toInt ++ " not found after " ++ toString attempts.toNat ++ " attempts"
  | download path source                 => "download to " ++ path ++ " failed: " ++ source.message
  | fileTooLarge size limit              => tooLargeMessage size limit
  | cancelled                            => "cancelled"
  | io e                                 => "I/O error: " ++ e.text
  | chunk e                              => "chunk error: " ++ e.message

/-- How an error of the gateway or the store is told by a transfer. Only what is not found stays
apart from the other answers, since a wait may go on after it. -/
def ofGateway : GatewayError → TransferError
  | .notFound what           => .notFound what
  | .auth e                  => .auth e
  | .json e                  => .malformedResponse e.message
  | .missingHeader name      => .malformedResponse (GatewayError.missingHeader name).message
  | .io e                    => .io e
  | .fileTooLarge size limit => .fileTooLarge size limit
  | .http reason             => .http (GatewayError.http reason).message
  | .api status body         => .http (GatewayError.api status body).message

end TransferError

end StagedTransfer
