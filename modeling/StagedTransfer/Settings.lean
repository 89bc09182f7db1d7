import StagedTransfer.Disk
import StagedTransfer.Toml.Reader
import StagedTransfer.Transfer.Operations

/-!
# Settings

What the program is told once and for all, in a TOML file. Each setting has a default, and a file
that does not exist leaves all of them as they are.
-/

namespace StagedTransfer

open Toml (Node)

structure Settings where
  gatewayUrl      : String
  /-- The cluster on which files lie. -/
  system          : String
  account         : Option String
  credentialsFile : String
  pollInterval    : UInt64
  attempts        : UInt32
  backoff         : Binary64
  maxPollInterval : UInt64
  smallFileLimit  : UInt64
  concurrency     : UInt64

inductive SettingsError
  | io (e : IoError)
  /-- The file is no TOML, or a setting has a value of another kind. -/
  | malformed
  deriving DecidableEq, Repr

namespace Settings

/-! ### Paths -/

/-- The folder below the home directory that holds the files of the program. -/
def folder (home : String) : String :=
  home ++ "/.config/hpcxfer"

def defaultPath (home : String) : String :=
  folder home ++ "/config.toml"

/-- A path without the slashes and the `.` components at its start. -/
def trimStart : (fuel : Nat) → List Char → List Char
  | 0,     cs => cs
  | n + 1, cs =>
    match cs with
    | '/' :: cs        => trimStart n cs
    | ['.']            => []
    | '.' :: '/' :: cs => trimStart n cs
    | cs               => cs

/-- A path without the slashes and the `.` components at its ends. -/
def trimPath (cs : List Char) : List Char :=
  let cs := trimStart cs.length cs
  (trimStart cs.length cs.reverse).reverse

/-- The path with the home directory for a first component `~`. -/
def expandHome (home path : String) : String :=
  match path.toList with
  | ['~']            => home ++ "/"
  | '~' :: '/' :: cs => home ++ "/" ++ String.ofList (trimPath cs)
  | _                => path

/-! ### Reading -/

def default (home : String) : Settings where
  gatewayUrl      := "http://localhost:8000"
  system          := ""
  account         := none
  credentialsFile := folder home ++ "/credentials.json"
  pollInterval    := 1000
  attempts        := 10
  backoff         := .one
  maxPollInterval := 30000
  smallFileLimit  := 1048576
  concurrency     := 1

/-- The value of a setting; a setting that is left out keeps its default, and one of another kind is
refused. -/
def setting {α : Type} (es : Toml.Entries) (key : String) (usual : α)
    (read : Node → Option α) : Option α :=
  match es.find? key with
  | none   => some usual
  | some n => read n

def text? : Node → Option String
  | .string s => some s
  | _         => none

def word? : Node → Option UInt64
  | .integer n => if 0 ≤ n then some (UInt64.ofNat n.toNat) else none
  | _          => none

def halfWord? : Node → Option UInt32
  | .integer n => if 0 ≤ n ∧ n < Int.pow 2 32 then some (UInt32.ofNat n.toNat) else none
  | _          => none

/-- An integer may stand for a double-precision number. -/
def float? : Node → Option Binary64
  | .float x   => some x
  | .integer n => some (.ofScaled (n < 0) n.natAbs 0)
  | _          => none

def ofEntries? (home : String) (es : Toml.Entries) : Option Settings := do
  let d := default home
  let gatewayUrl ← setting es "gateway_url" d.gatewayUrl text?
  let system ← setting es "system" d.system text?
  let account ← setting es "account" d.account fun n => (text? n).map some
  let credentialsFile ← setting es "credentials_file" d.credentialsFile text?
  let pollInterval ← setting es "poll_interval_ms" d.pollInterval word?
  let attempts ← setting es "not_found_attempts" d.attempts halfWord?
  let backoff ← setting es "not_found_backoff" d.backoff float?
  let maxPollInterval ← setting es "max_poll_interval_ms" d.maxPollInterval word?
  let smallFileLimit ← setting es "small_file_limit" d.smallFileLimit word?
  let concurrency ← setting es "upload_concurrency" d.concurrency word?
  return {
    gatewayUrl, system, account, pollInterval, attempts, backoff, maxPollInterval, smallFileLimit,
    concurrency
    credentialsFile := expandHome home credentialsFile }

def ofText (home text : String) : Except SettingsError Settings :=
  match (Toml.parse? text).bind (ofEntries? home) with
  | some s => .ok s
  | none   => .error .malformed

/-- The settings in a file, of which the size and the content are given. A file that has no size does
not exist. -/
def ofFile (home : String) (size : Except IoError Nat) (content : Except IoError Bytes) :
    Except SettingsError Settings :=
  match size, content.bind Disk.textOf with
  | .error _, _        => .ok (default home)
  | .ok _,    .error e => .error (.io e)
  | .ok _,    .ok text => ofText home text

def load (disk : Disk) (home path : String) : Except SettingsError Settings :=
  ofFile home (disk.size path) (disk.content path)

/-! ### Use -/

def waitPlan (s : Settings) : WaitPlan :=
  ⟨.ofMillis s.pollInterval.toNat, s.attempts, s.backoff, .ofMillis s.maxPollInterval.toNat⟩

/-- How many parts are sent at once; none counts as one. -/
def parallel (s : Settings) : Nat :=
  max 1 s.concurrency.toNat

def profile (s : Settings) (patience : Nat) : Profile :=
  ⟨s.account, s.waitPlan, s.parallel, s.smallFileLimit.toNat, patience⟩

end Settings

end StagedTransfer
