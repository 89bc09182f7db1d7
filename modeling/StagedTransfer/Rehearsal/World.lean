import StagedTransfer.Digest.Sha256
import StagedTransfer.Rehearsal.Script
import StagedTransfer.Token.Cache
import StagedTransfer.Transfer.Activity

/-!
# Rehearsals

A rehearsal follows an activity on a virtual clock. The other sides answer as a script says, the
clock goes on only while everything waits, and all calls and events are written down. The local files
are those of a given disk.
-/

namespace StagedTransfer.Rehearsal

inductive Made
  | token
  | call (c : Call)
  /-- The fetch of an object, and whether its file was there before. -/
  | fetch (url file : String) (present : Bool)
  | put (url : String) (data : Bytes)

/-- A part on its way: when its answer comes and what it will be. -/
structure Flight where
  number  : Nat
  due     : Nat
  outcome : Except TransferError String
  resize  : Option (String × Nat)

structure World where
  today     : Instant
  clock     : Nat
  cancelAt  : Option Nat
  cancelled : Bool
  disk      : Disk
  token     : Option AccessToken
  fetches   : Nat
  tokens    : TokenScript
  calls     : CallScript
  rules     : List PutRule
  flights   : List Flight
  /-- The most parts that were on their way at once. -/
  busiest   : Nat
  /-- How many events are kept for whoever listens; later ones are lost. -/
  capacity  : Nat
  /-- The events kept, the last first. -/
  events    : List Event
  /-- The calls made and when, the last first. -/
  made      : List (Nat × Made)

abbrev Stage := StateM World

namespace World

def start (today : Instant) (disk : Disk) (tokens : TokenScript) (calls : CallScript)
    (rules : List PutRule) (capacity : Nat) : World :=
  ⟨today, 0, none, false, disk, none, 0, tokens, calls, rules, [], 0, capacity, [], []⟩

/-- The same world at the beginning of another activity, whose clock starts anew. A cancelled world
stays so. -/
def restart (w : World) (cancelAt : Option Nat) (keepEvents : Bool) : World :=
  { w with
    clock     := 0
    cancelAt  := if cancelAt = some 0 then none else cancelAt
    cancelled := w.cancelled || cancelAt = some 0
    flights   := []
    events    := if keepEvents then w.events else []
    made      := [] }

def record (w : World) (m : Made) : World :=
  { w with made := (w.clock, m) :: w.made }

def emit (w : World) (e : Event) : World :=
  if w.events.length < w.capacity then { w with events := e :: w.events } else w

def goTo (w : World) (time : Nat) : World :=
  match w.cancelAt with
  | some c =>
    if c ≤ time then { w with clock := c, cancelAt := none, cancelled := true }
    else { w with clock := time }
  | none => { w with clock := time }

end World

/-! ### What is waited for -/

/-- Lets time pass; the answer tells whether the transfer has not been cancelled meanwhile. -/
def elapse (ms : Nat) : Stage Bool := do
  if ms ≠ 0 then modify fun w => w.goTo (w.clock + ms)
  return !(← get).cancelled

/-- Writes a content into a file; the answer is its size. -/
def writeFile (file : String) (content : Bytes) : Stage (Except TransferError Nat) := do
  match (← get).disk.write file content with
  | .ok disk =>
    modify fun w => { w with disk }
    return .ok content.length
  | .error e => return .error (.io e)

/-- What comes of a call whose other side has served something. -/
def receive : (c : Call) → Served c.kind → Stage (Except TransferError c.Answer)
  | .downloadSmall _ file, content          => writeFile file content
  | .fetch _ file,         (content, broken) =>
    match broken with
    | none   => writeFile file content
    | some n => do
      match ← writeFile file (content.take n) with
      | .ok _    => return .error (.http "connection reset")
      | .error e => return .error e
  | .uploadPlan _,      served => pure (.ok served)
  | .downloadPlan _,    served => pure (.ok served)
  | .job _,             served => pure (.ok served)
  | .cancelJob _,       served => pure (.ok served)
  | .copy _,            served => pure (.ok served)
  | .move _,            served => pure (.ok served)
  | .remove _ _,        served => pure (.ok served)
  | .compress _,        served => pure (.ok served)
  | .extract _,         served => pure (.ok served)
  | .stat _,            served => pure (.ok served)
  | .uploadSmall _ _ _, served => pure (.ok served)
  | .complete _ _,      served => pure (.ok served)

def staleToken : AccessToken :=
  ⟨"stale", .ofSeconds 1⟩

def madeOf (w : World) : Call → Made
  | .fetch url file => .fetch url file (match w.disk.entry file with
    | .ok _    => true
    | .error _ => false)
  | c => .call c

/-- The answer to a call when the script holds none. -/
def unscripted (completes : Bool) : (c : Call) → Except TransferError c.Answer
  | .complete _ _ => if completes then .ok () else .error exhausted
  | _             => .error exhausted

def perform (c : Call) : Stage (Except TransferError c.Answer) := do
  modify fun w => w.record (madeOf w c)
  match (← get).calls.answers c.kind with
  | []     => return unscripted (← get).calls.completes c
  | e :: _ =>
    modify fun w => { w with calls := w.calls.drop c.kind }
    if ← elapse e.delay then
      if e.value.expires then modify fun w => { w with token := some staleToken }
      match e.value.answer c with
      | .ok served => receive c served
      | .error err => return .error err
    else return .error .cancelled

def fetchToken : Stage (Except TransferError Unit) := do
  modify fun w => { w.record .token with fetches := w.fetches + 1 }
  let w ← get
  let (e, tokens) := w.tokens.next
  set { w with tokens }
  if ← elapse e.delay then
    match e.value w.fetches with
    | .ok t    =>
      modify fun w => { w with token := some t }
      return .ok ()
    | .error e => return .error (.auth e)
  else return .error .cancelled

def await : (a : Await) → Stage (Reply TransferError a.Answer)
  | .call c       => do return .answered (← perform c)
  | .tokenExpired => do
    let w ← get
    return .answered (.ok (tokenMissing w.token w.today))
  | .refresh      => do return .answered (← fetchToken)
  | .pause d      => do return .answered (if ← elapse d.ticks then .ok () else .error .cancelled)

def act : (a : Act) → Stage a.Answer
  | .size file    => do return (← get).disk.size file
  | .content file => do return (← get).disk.content file
  | .emit e       => modify fun w => w.emit e
  | .enter _      => pure ()

/-! ### Parts on their way -/

/-- The tag that a store gives to a part: the first half of its digest between quotes. -/
def usualTag (data : Bytes) : String :=
  "\"" ++ String.ofList ((Sha256.checksum data).toList.take 32) ++ "\""

/-- What becomes of a part, from a time on. -/
def flightOf (rules : List PutRule) (clock : Nat) (h : Sending.Held) : Flight :=
  match rules.find? fun r => r.url = h.url with
  | none   => ⟨h.number, clock, .ok (usualTag h.data), none⟩
  | some r =>
    ⟨h.number, clock + r.delay,
      match r.error with
      | some e => .error e
      | none   => .ok (r.etag.getD (usualTag h.data)),
      r.resize⟩

def depart (h : Sending.Held) : Stage Unit :=
  modify fun w =>
    let w := w.record (.put h.url h.data)
    { w with
      flights := w.flights ++ [flightOf w.rules w.clock h]
      busiest := max w.busiest (w.flights.length + 1) }

/-- A part arrives, and the file that goes with it is resized. -/
def arrive (f : Flight) : Stage Unit :=
  modify fun w =>
    let disk := match f.resize with
      | none                => w.disk
      | some (file, length) =>
        match w.disk.content file with
        | .ok content =>
          (w.disk.write file (Disk.resized content length)).toOption.getD w.disk
        | .error _    => w.disk
    { w with disk, flights := w.flights.filter fun g => g.number ≠ f.number }

/-- The clock goes on to the next answer or to the cancellation. -/
def goOn : Stage Unit :=
  modify fun w =>
    match (w.flights.map (·.due)).min? with
    | some t => w.goTo t
    | none   => w

/-- What comes next: a part that is ready goes on its way, then answers that are due come, then the
reader takes its turn if it can, and else time passes. -/
def choose (s : Sending.State) : Stage Sending.Choice := do
  match s.held.find? fun h => !h.begun with
  | some h =>
    depart h
    return .begin h.number
  | none =>
    let w ← get
    let waiting := !s.canProceed && !w.cancelled && w.flights.all fun f => w.clock < f.due
    if waiting then goOn
    let w ← get
    match w.flights.find? fun f => f.due ≤ w.clock with
    | some f =>
      arrive f
      return .finish f.number f.outcome
    | none   => return .proceed

def environment : Environment Stage where
  cancelled := do return (← get).cancelled
  await := await
  act := act
  choose := choose

def run {α : Type} (a : Activity α) (w : World) : Except Stop α × World :=
  StateT.run (m := Id) (a.run environment) w

end StagedTransfer.Rehearsal
