import StagedTransfer.CommandLine
import StagedTransfer.Digest.Sha256
import StagedTransfer.Session.Client
import StagedTransfer.Settings

/-!
# The program

A command is carried out with the clusters and limits of the settings and the credentials that they
name, and reported on. The self-test sends a payload that nobody foresees to a remote path, fetches it
back and compares the digests.
-/

namespace StagedTransfer

/-! ### Reports and errors -/

inductive Report
  /-- The job is named if there was one. -/
  | uploadFinished (job : Option Int64) (remote : String)
  | uploadAccepted (job : Int64) (remote : String)
  | downloadFinished (size : Nat) (file : String)
  | jobCompleted (job : Int64)
  | copySubmitted (job : Int64)
  | moveSubmitted (job : Int64)
  | removeSubmitted (job : Int64)
  | payloadGenerated (size : Nat) (checksum : String)
  | selfTestPassed (checksum : String)
  deriving DecidableEq, Repr

def Report.message : Report → String
  | uploadFinished _ _   => "upload finished"
  | uploadAccepted _ _   => "upload accepted, job still running"
  | downloadFinished _ _ => "download finished"
  | jobCompleted _       => "job completed"
  | copySubmitted _      => "copy submitted"
  | moveSubmitted _      => "move submitted"
  | removeSubmitted _    => "delete submitted"
  | payloadGenerated _ _ => "payload generated"
  | selfTestPassed _     => "self-test passed"

inductive ProgramError
  | settings (e : SettingsError)
  | noSystem
  | credentials (path : String) (e : TokenError)
  | transfer (e : TransferError)
  /-- A file of the self-test itself. -/
  | scratch (e : IoError)
  /-- What came back in the self-test is not what was sent. -/
  | mismatch (sent received : String)
  deriving DecidableEq

def SettingsError.message : SettingsError → String
  | io e      => e.text
  | malformed => "malformed settings"

def ProgramError.message : ProgramError → String
  | settings e             => e.message
  | noSystem               =>
    "no target system configured (set \x60system\x60 in the configuration file)"
  | credentials path _     => "failed to load credentials from " ++ path
  | transfer e             => e.message
  | scratch e              => "I/O error: " ++ e.text
  | mismatch sent received =>
    "checksum mismatch: uploaded " ++ sent ++ ", downloaded " ++ received

/-- How the program ends if it does not end well. -/
inductive Failure
  | error (e : ProgramError)
  | overrun (o : Overrun)
  | unfinished
  deriving DecidableEq

def Failure.ofStop : Stop → Failure
  | .failed e   => .error (.transfer e)
  | .overrun o  => .overrun o
  | .unfinished => .unfinished

/-! ### Commands -/

/-- What the program finds around it. -/
structure Host (m : Type → Type) extends Surroundings m where
  report  : Report → m Unit
  /-- The bytes of a payload, of which as many are taken as are wanted. -/
  noise   : m (Nat → UInt8)
  /-- Makes an empty folder. -/
  scratch : m (Except IoError String)
  discard : String → m Unit

/-- Who carries out the commands. -/
structure Program (m : Type → Type) where
  host    : Host m
  gateway : Gateway
  source  : m (Reply TokenError AccessToken)
  profile : Profile

abbrev Program.Step (m : Type → Type) : Type → Type := ExceptT Failure (Visit m)

namespace Program

variable {m : Type → Type} [Monad m] (p : Program m)

def client : Client m :=
  ⟨p.host.toSurroundings, p.gateway, p.source⟩

/-- Carries out a transfer. -/
def carry {α : Type} (a : Activity α) : Step m α := do
  match ← p.client.run a with
  | .ok x    => return x
  | .error s => throw (.ofStop s)

def report (r : Report) : Step m Unit := do
  let _ ← p.host.report r

/-- A step of the host that may fail for a file of the self-test. -/
def scratching {α : Type} (a : m (Except IoError α)) : Step m α := do
  match ← a with
  | .ok x    => return x
  | .error e => throw (.error (.scratch e))

/-! ### The self-test -/

def mebibyte : Nat := 1048576

def checksum (file : String) : Step m String := do
  return Sha256.fileChecksum (← scratching (p.host.content file))

/-- The self-test in a folder of its own. -/
def selfTestIn (folder : String) (mebibytes : UInt64) (remote : String) : Step m Unit := do
  let sent := folder ++ "/payload.bin"
  let received := folder ++ "/roundtrip.bin"
  let size := mebibytes.toNat * mebibyte
  if Nat.pow 2 64 ≤ size then throw (.overrun .payload)
  let noise ← p.host.noise
  scratching (p.host.write sent ((List.range size).map noise))
  let expected ← p.checksum sent
  p.report (.payloadGenerated size expected)
  let _ ← p.carry (p.profile.upload sent remote true)
  let _ ← p.carry (p.profile.download remote received)
  let actual ← p.checksum received
  if actual ≠ expected then throw (.error (.mismatch expected actual))
  p.report (.selfTestPassed actual)

/-- A payload goes to a remote path and back; the folder that holds it is removed in any case. -/
def selfTest (mebibytes : UInt64) (remote : String) : Step m Unit := do
  let folder ← scratching p.host.scratch
  let r ← ExceptT.lift (p.selfTestIn folder mebibytes remote).run
  -- the failure is held back until the folder is gone
  let _ ← p.host.discard folder
  match r with
  | .ok ()   => return ()
  | .error e => throw e

/-! ### All commands -/

def execute : Command → Step m Unit
  | .upload file remote wait   => do
    match ← p.carry (p.profile.upload file remote wait) with
    | some job =>
      if wait then p.report (.uploadFinished (some job) remote)
      else p.report (.uploadAccepted job remote)
    | none     => p.report (.uploadFinished none remote)
  | .download remote file      => do
    p.report (.downloadFinished (← p.carry (p.profile.download remote file)) file)
  | .wait job                  => do
    let _ ← p.carry (p.profile.waitForJob job)
    p.report (.jobCompleted job)
  | .copy source target wait   => do
    p.report (.copySubmitted (← p.carry (p.profile.copy source target wait)).jobId)
  | .move source target wait   => do
    p.report (.moveSubmitted (← p.carry (p.profile.move source target wait)).jobId)
  | .remove path wait          => do
    p.report (.removeSubmitted (← p.carry (p.profile.remove path wait)).jobId)
  | .cancel job                => p.carry (Profile.cancelJob job)
  | .selfTest mebibytes remote => p.selfTest mebibytes remote

/-- The program that the settings and the credentials make up. -/
def ofSettings (host : Host m) (s : Settings) (c : Credentials) (patience : Nat) : Program m :=
  ⟨host, ⟨s.gatewayUrl, s.system, s.smallFileLimit.toNat⟩, c.fetch host.toSurroundings,
    s.profile patience⟩

def load (host : Host m) (home path : String) (patience : Nat) :
    m (Except ProgramError (Program m)) := do
  match Settings.ofFile home (← host.size path) (← host.content path) with
  | .error e => return .error (.settings e)
  | .ok s    =>
    if s.system = "" then return .error .noSystem
    else match Credentials.ofFile (← host.content s.credentialsFile) with
      | .error e => return .error (.credentials s.credentialsFile e)
      | .ok c    => return .ok (ofSettings host s c patience)

/-- Carries out the command of a line. The settings are in the file that the line names, or else in
the usual one. -/
def run (host : Host m) (home usual : String) (patience : Nat) (line : CommandLine) :
    m (Except Failure Unit) := do
  match ← load host home (line.settings.getD usual) patience with
  | .error e => return .error (.error e)
  | .ok p    => return (← (p.execute line.command).run.run .start).1

end Program

end StagedTransfer
