import StagedTransfer.Http.Transcript
import StagedTransfer.Program
import Std.Async.DNS
import Std.Async.TCP

/-!
# The program at work

The command line of the program, with the files, the clock and the network of the machine around it.
-/

namespace StagedTransfer

open Http
open Std.Async Std.Net

/-! ### Files -/

def IoError.ofIO (e : IO.Error) : IoError :=
  match e with
  | .noFileOrDirectory _ _ _ => .noEntry
  | e                        => .other (toString e)

/-- The value of a step, or why it fails. -/
def attempted {α : Type} (a : IO α) : IO (Except IoError α) := do
  try return .ok (← a)
  catch e => return .error (.ofIO e)

def readFile (path : String) : IO Bytes :=
  return (← IO.FS.readBinFile path).toList

def writeFile (path : String) (content : Bytes) : IO Unit :=
  IO.FS.writeBinFile path ⟨content.toArray⟩

/-! ### Network -/

partial def receiveAll (s : TCP.Socket.Client) (got : ByteArray) : Async ByteArray := do
  match ← s.recv? 65536 with
  | some b => receiveAll s (got ++ b)
  | none   => return got

def socketAddress (a : IPAddr) (number : Nat) : SocketAddress :=
  match a with
  | .v4 a => .v4 ⟨a, UInt16.ofNat number⟩
  | .v6 a => .v6 ⟨a, UInt16.ofNat number⟩

/-- All that comes back for a request. -/
def converse (r : Request) (boundary : String) : Async ByteArray := do
  let host := String.ofList (r.url.host.filter fun c => c ≠ '[' ∧ c ≠ ']')
  let addresses ← DNS.getAddrInfo host (toString r.url.socket)
  let some address := addresses[0]? | throw (.userError "no address")
  let socket ← TCP.Socket.Client.mk
  socket.connect (socketAddress address r.url.socket)
  socket.send ⟨(r.bytes boundary).toArray⟩
  receiveAll socket .empty

/-- What comes of a request. There are no secure connections here. -/
def exchange (r : Request) : IO Outcome := do
  if r.url.scheme = .https then return .lost "no secure connections"
  try
    let boundary := Hex.ofBytes (← IO.getRandomBytes 16).toList
    match Response.ofBytes? (← (converse r boundary).block).toList with
    | some r => return .answered r
    | none   => return .lost "no response"
  catch e => return .lost (toString e)

/-! ### Time -/

partial def sleep (ms : Nat) : IO Unit := do
  if ms ≠ 0 then
    let step := min ms 4294967295
    IO.sleep (UInt32.ofNat step)
    sleep (ms - step)

def present : IO Instant :=
  return ⟨(← Std.Time.Timestamp.now).toNanosecondsSinceUnixEpoch.val⟩

/-! ### The machine -/

/-- A byte that depends on a seed and on a place. -/
def scatter (seed : UInt64) (place : Nat) : UInt8 :=
  let x := (seed + UInt64.ofNat place) * 0x9E3779B97F4A7C15
  let x := (x ^^^ (x >>> 30)) * 0xBF58476D1CE4E5B9
  let x := (x ^^^ (x >>> 27)) * 0x94D049BB133111EB
  (x ^^^ (x >>> 31)).toUInt8

def seed : IO UInt64 := do
  return (← IO.getRandomBytes 8).toList.foldl (fun n b => n * 256 + b.toUInt64) 0

def Report.fields : Report → List (String × String)
  | uploadFinished job remote  =>
    (job.map fun j => ("job_id", toString j.toInt)).toList ++ [("remote", remote)]
  | uploadAccepted job remote  => [("job_id", toString job.toInt), ("remote", remote)]
  | downloadFinished size file => [("bytes", toString size), ("local", file)]
  | jobCompleted job           => [("job_id", toString job.toInt)]
  | copySubmitted job          => [("job_id", toString job.toInt)]
  | moveSubmitted job          => [("job_id", toString job.toInt)]
  | removeSubmitted job        => [("job_id", toString job.toInt)]
  | payloadGenerated size sum  => [("size", toString size), ("checksum", sum)]
  | selfTestPassed sum         => [("checksum", sum)]

def Report.line (r : Report) : String :=
  r.fields.foldl (fun s f => s ++ " " ++ f.1 ++ "=" ++ f.2) r.message

def machine : Host IO where
  exchange       := exchange
  now            := present
  pause d        := sleep d.ticks
  cancelled      := pure false
  size path      := attempted (return (← readFile path).length)
  content path   := attempted (readFile path)
  write path b   := attempted (writeFile path b)
  prefer         := pure 0
  listen _       := pure ()
  enter _        := pure ()
  report r       := IO.println r.line
  noise          := return scatter (← seed)
  scratch        := attempted (return toString (← IO.FS.createTempDir))
  discard folder := IO.FS.removeDirAll folder

/-! ### The command line -/

def usage : String :=
  "File transfers through an HPC gateway\n\n"
    ++ "Usage: hpcxfer [--config <PATH>] <COMMAND>\n\n"
    ++ "Commands:\n"
    ++ "  upload <LOCAL> <REMOTE> [--wait]\n"
    ++ "  download <REMOTE> <LOCAL>\n"
    ++ "  wait <JOB_ID>\n"
    ++ "  cp <SOURCE> <TARGET> [--wait]\n"
    ++ "  mv <SOURCE> <TARGET> [--wait]\n"
    ++ "  rm <PATH> [--wait]\n"
    ++ "  cancel <JOB_ID>\n"
    ++ "  self-test --remote <REMOTE> [--size-mb <SIZE>]\n"

def UsageError.message : UsageError → String
  | help            => usage
  | version         => "hpcxfer 0.1.0\n"
  | nothing         => usage
  | missingCommand  => "error: a command is required\n"
  | unknownCommand  => "error: unrecognized command\n"
  | missingArgument => "error: a required argument was not provided\n"
  | unknownArgument => "error: unexpected argument\n"
  | missingValue    => "error: a value is required\n"
  | notNumber       => "error: a value is not a valid number\n"
  | repeated        => "error: an argument was used more than once\n"
  | unwantedValue   => "error: a flag takes no value\n"

/-- Being asked for help or the version is no error. -/
def UsageError.status : UsageError → UInt32
  | help    => 0
  | version => 0
  | _       => 2

def Failure.message : Failure → String
  | error e    => "Error: " ++ e.message
  | overrun _  => "Error: a quantity is out of range"
  | unfinished => "Error: the wait has no end"

/-- The most questions that a wait asks. -/
def patience : Nat := Nat.pow 10 18

/-- Carries out the command of a line; the answer is the status of the process. -/
def serve (args : List String) : IO UInt32 := do
  match CommandLine.read args with
  | .error e =>
    if e.status = 0 then IO.print e.message else IO.eprint e.message
    return e.status
  | .ok line =>
    let home := (← IO.getEnv "HOME").getD "/tmp"
    match ← Program.run machine home (Settings.defaultPath home) patience line with
    | .ok ()   => return 0
    | .error e =>
      IO.eprintln e.message
      return 1

end StagedTransfer

def main (args : List String) : IO UInt32 :=
  StagedTransfer.serve args
