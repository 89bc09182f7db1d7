/-!
# The command line

A command has places, which are filled in order, options, which are named and take a value, and
flags. The option that names the file of the settings may stand before the command or after it.

A value is looked at only when the next argument is taken, or at the end. So a word that cannot be
taken at all is reported before a wrong value that stands right before it.
-/

namespace StagedTransfer

inductive Command
  | upload (file remote : String) (wait : Bool)
  | download (remote file : String)
  | wait (jobId : Int64)
  | copy (source target : String) (wait : Bool)
  | move (source target : String) (wait : Bool)
  | remove (path : String) (wait : Bool)
  | cancel (jobId : Int64)
  /-- A file of so many mebibytes goes to a remote path and back. -/
  | selfTest (mebibytes : UInt64) (remote : String)
  deriving DecidableEq, Repr

structure CommandLine where
  /-- The file of the settings, if another one than the usual is meant. -/
  settings : Option String
  command  : Command
  deriving DecidableEq, Repr

/-- Why a command line does not name a command, help and version among the reasons. -/
inductive UsageError
  | help
  | version
  | nothing
  | missingCommand
  | unknownCommand
  | missingArgument
  | unknownArgument
  /-- An option stands without its value, or a local path is empty. -/
  | missingValue
  | notNumber
  | repeated
  | unwantedValue
  deriving DecidableEq, Repr

namespace CommandLine

/-! ### Values -/

inductive Kind
  /-- A local path, which is never empty. -/
  | path
  | text
  | signed
  | unsigned
  | flag
  deriving DecidableEq, Repr

inductive Value
  | text (s : String)
  | signed (n : Int64)
  | unsigned (n : UInt64)
  | set
  deriving DecidableEq, Repr

def natural? (cs : List Char) : Option Nat :=
  if cs ≠ [] ∧ cs.all Char.isDigit then
    some (cs.foldl (fun n c => 10 * n + (c.toNat - '0'.toNat)) 0)
  else none

/-- A number with or without a sign. -/
def integer? : List Char → Option Int
  | '+' :: cs => (natural? cs).map Int.ofNat
  | '-' :: cs => (natural? cs).map fun n => -(n : Int)
  | cs        => (natural? cs).map Int.ofNat

def signed? (s : String) : Option Int64 := do
  let n ← integer? s.toList
  if -Int.pow 2 63 ≤ n ∧ n < Int.pow 2 63 then some (Int64.ofInt n) else none

def unsigned? (s : String) : Option UInt64 := do
  let n ← if s.toList.head? = some '-' then none else integer? s.toList
  if n < Int.pow 2 64 then some (UInt64.ofNat n.toNat) else none

def number {α : Type} (f : α → Value) : Option α → Except UsageError Value
  | some a => .ok (f a)
  | none   => .error .notNumber

def Kind.read (s : String) : Kind → Except UsageError Value
  | path     => if s = "" then .error .missingValue else .ok (.text s)
  | text     => .ok (.text s)
  | signed   => number .signed (signed? s)
  | unsigned => number .unsigned (unsigned? s)
  | flag     => .ok .set

/-! ### Forms -/

structure Argument where
  name : String
  kind : Kind
  deriving DecidableEq, Repr

/-- What may stand on a line. -/
structure Form where
  /-- What is filled in order. -/
  places  : List Argument
  named   : List Argument
  version : Bool

/-- The option that may stand anywhere. -/
def settingsOption : Argument := ⟨"config", .path⟩

def waitFlag : Argument := ⟨"wait", .flag⟩

/-- The line up to the command. -/
def Form.outer : Form :=
  ⟨[], [settingsOption], true⟩

inductive Name
  | upload
  | download
  | wait
  | copy
  | move
  | remove
  | cancel
  | selfTest
  deriving DecidableEq, Repr

def Name.ofText? : String → Option Name
  | "upload"    => some upload
  | "download"  => some download
  | "wait"      => some wait
  | "cp"        => some copy
  | "mv"        => some move
  | "rm"        => some remove
  | "cancel"    => some cancel
  | "self-test" => some selfTest
  | _           => none

def Name.places : Name → List Argument
  | upload   => [⟨"local", .path⟩, ⟨"remote", .text⟩]
  | download => [⟨"remote", .text⟩, ⟨"local", .path⟩]
  | wait     => [⟨"job", .signed⟩]
  | copy     => [⟨"source", .text⟩, ⟨"target", .text⟩]
  | move     => [⟨"source", .text⟩, ⟨"target", .text⟩]
  | remove   => [⟨"path", .text⟩]
  | cancel   => [⟨"job", .signed⟩]
  | selfTest => []

def Name.named : Name → List Argument
  | upload   => [waitFlag]
  | download => []
  | wait     => []
  | copy     => [waitFlag]
  | move     => [waitFlag]
  | remove   => [waitFlag]
  | cancel   => []
  | selfTest => [⟨"size-mb", .unsigned⟩, ⟨"remote", .text⟩]

/-- The line from the command on. -/
def Name.form (n : Name) : Form :=
  ⟨n.places, settingsOption :: n.named, false⟩

/-! ### Words -/

inductive Word
  /-- After `--` all words fill places. -/
  | escape
  | long (name : String) (value : Option String)
  | short (letter : Char)
  | plain

/-- The name and the value of a word that calls an argument. -/
def splitLong (cs : List Char) : String × Option String :=
  (String.ofList (cs.takeWhile (· ≠ '=')),
    match cs.dropWhile (· ≠ '=') with
    | []      => none
    | _ :: cs => some (String.ofList cs))

def Word.of (w : String) : Word :=
  match w.toList with
  | ['-', '-']      => .escape
  | '-' :: '-' :: s =>
    let (name, value) := splitLong s
    .long name value
  | '-' :: c :: _   => .short c
  | _               => .plain

/-! ### Reading a line -/

/-- How far a line has been read. -/
structure Progress where
  found    : List (String × Value)
  /-- The argument taken last. If its value has not come yet, the next word is it. -/
  pending  : Option (Argument × Option String)
  places   : List Argument
  /-- All words fill places from here on. -/
  trailing : Bool

namespace Progress

def start (f : Form) : Progress :=
  ⟨[], none, f.places, false⟩

def take (p : Progress) (a : Argument) (value : String) : Except UsageError Progress :=
  if p.found.any (·.1 = a.name) then .error .repeated
  else (a.kind.read value).map fun v => { p with found := p.found ++ [(a.name, v)] }

/-- Looks at the value of the argument taken last. -/
def settle (p : Progress) : Except UsageError Progress :=
  match p.pending with
  | none                 => .ok p
  | some (_, none)       => .error .missingValue
  | some (a, some value) => { p with pending := none }.take a value

def awaits (p : Progress) : Bool :=
  match p.pending with
  | some (_, none) => !p.trailing
  | _              => false

def call (p : Progress) (a : Argument) (value : Option String) : Except UsageError Progress := do
  if a.kind = .flag ∧ value.isSome then .error .unwantedValue
  else
    -- the value before is looked at first
    let p ← p.settle
    match a.kind, value with
    | .flag, _          => p.take a ""
    | _,     some value => p.take a value
    | _,     none       => .ok { p with pending := some (a, none) }

def inform (p : Progress) (e : UsageError) : Except UsageError Progress := do
  let _ ← p.settle
  .error e

/-- A word that calls an argument by name. -/
def long (p : Progress) (f : Form) (name : String) (value : Option String) :
    Except UsageError Progress :=
  match f.named.find? (·.name = name) with
  | some a => p.call a value
  | none   =>
    if name = "help" ∨ name = "version" ∧ f.version then
      if value.isSome then .error .unwantedValue
      else p.inform (if name = "help" then .help else .version)
    else .error .unknownArgument

def short (p : Progress) (f : Form) (letter : Char) : Except UsageError Progress :=
  if letter = 'h' then p.inform .help
  else if letter = 'V' ∧ f.version then p.inform .version
  else .error .unknownArgument

/-- A word that is a value or fills a place; without either it is an error. -/
def plain (p : Progress) (w : String) (e : UsageError) : Except UsageError Progress :=
  if p.awaits then
    .ok { p with pending := p.pending.map fun (a, _) => (a, some w) }
  else match p.places with
    | []      => .error e
    | a :: as => do
      let p ← p.settle
      .ok { p with pending := some (a, some w), places := as }

/-- The next word; `e` is the error for one that has no place. -/
def word (p : Progress) (f : Form) (w : String) (e : UsageError) : Except UsageError Progress :=
  if p.trailing then p.plain w e
  else match Word.of w with
    | .escape          => .ok { p with trailing := true }
    | .long name value => p.long f name value
    | .short letter    => p.short f letter
    | .plain           => p.plain w e

end Progress

/-! ### Commands -/

def text? (found : List (String × Value)) (name : String) : Option String :=
  match found.lookup name with
  | some (.text s) => some s
  | _              => none

def signedValue? (found : List (String × Value)) (name : String) : Option Int64 :=
  match found.lookup name with
  | some (.signed n) => some n
  | _                => none

def unsignedValue? (found : List (String × Value)) (name : String) : Option UInt64 :=
  match found.lookup name with
  | some (.unsigned n) => some n
  | _                  => none

def isSet (found : List (String × Value)) (name : String) : Bool :=
  (found.lookup name).isSome

def usualMebibytes : UInt64 := 5

def command? (found : List (String × Value)) : Name → Option Command
  | .upload   => do
    return .upload (← text? found "local") (← text? found "remote") (isSet found "wait")
  | .download => do return .download (← text? found "remote") (← text? found "local")
  | .wait     => (signedValue? found "job").map .wait
  | .copy     => do
    return .copy (← text? found "source") (← text? found "target") (isSet found "wait")
  | .move     => do
    return .move (← text? found "source") (← text? found "target") (isSet found "wait")
  | .remove   => do return .remove (← text? found "path") (isSet found "wait")
  | .cancel   => (signedValue? found "job").map .cancel
  | .selfTest =>
    (text? found "remote").map (.selfTest ((unsignedValue? found "size-mb").getD usualMebibytes))

/-- The line from the command on: the command, and the file of the settings. -/
def readCommand (n : Name) (ws : List String) : Except UsageError (Command × Option String) := do
  let p ← ws.foldlM (fun p w => Progress.word p n.form w .unknownArgument) (Progress.start n.form)
  let p ← p.settle
  match command? p.found n with
  | some c => .ok (c, text? p.found settingsOption.name)
  | none   => .error .missingArgument

/-- What comes of asking for help on the commands named. -/
def helpOn : List String → UsageError
  | []      => .help
  | [w]     => if w = "help" ∨ (Name.ofText? w).isSome then .help else .unknownCommand
  | _ :: _  => .unknownCommand

/-- The error for a word that stands where a command is expected. -/
def strayWord (p : Progress) (w : String) : UsageError :=
  if p.trailing ∧ (w = "help" ∨ (Name.ofText? w).isSome) then .unknownArgument
  else .unknownCommand

/-- The rest of a line up to whose command some has been read. -/
def readFrom (p : Progress) : List String → Except UsageError CommandLine
  | []      => do
    let p ← p.settle
    .error (if p.found.isEmpty then .nothing else .missingCommand)
  | w :: ws =>
    let name := if p.trailing || p.awaits then none else Name.ofText? w
    match name with
    | some n => do
      let (command, inner) ← readCommand n ws
      let p ← p.settle
      .ok ⟨inner.orElse fun _ => text? p.found settingsOption.name, command⟩
    | none   => do
      if w = "help" ∧ !p.trailing ∧ !p.awaits then .error (helpOn ws)
      else readFrom (← p.word .outer w (strayWord p w)) ws

def read (ws : List String) : Except UsageError CommandLine :=
  readFrom (.start .outer) ws

end CommandLine

end StagedTransfer
