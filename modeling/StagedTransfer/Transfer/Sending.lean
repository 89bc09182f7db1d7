import StagedTransfer.Parts.Reader
import StagedTransfer.Transfer.Event

/-!
# The sending of parts

The parts of a file are read in order and sent to one address each, several at a time. A slot is
taken before a part is read and given back when its answer has come, so that no more parts are held
than there are slots. The sending is over when all answers have come; if all are tags it yields
them, and otherwise the parts that did not arrive.

The sending is described by its moves. Which of them comes next is not up to it: answers come in any
order, and a part that is ready to be sent may wait.
-/

namespace StagedTransfer.Sending

/-- A part that has been read and not been answered for. -/
structure Held where
  number : Nat
  url    : String
  data   : Bytes
  /-- The part is on its way. -/
  begun  : Bool
  deriving DecidableEq

/-- The answer for a part: its tag or why it did not arrive. -/
structure Settled where
  number  : Nat
  url     : String
  outcome : Except TransferError String

/-- What the sending yields: the tag of each part. -/
abbrev Result := Except TransferError (OrderedMap Nat String)

structure State where
  /-- How many parts may be held at once. -/
  slots   : Nat
  total   : Nat
  reader  : PartReader
  /-- The addresses of the parts that have not been read, in order. -/
  pending : List String
  held    : List Held
  /-- The answers, in the order in which they came. -/
  settled : List Settled
  result  : Option Result

def State.start (slots : Nat) (reader : PartReader) (urls : List String) : State :=
  ⟨slots, urls.length, reader, urls, [], [], none⟩

def State.nextNumber (s : State) : Nat :=
  s.total - s.pending.length + 1

inductive Move
  /-- The reader takes its turn, if it can: it stops if the transfer has been cancelled, takes a slot
  and reads a part of the file as it is now, or ends the sending. -/
  | proceed (cancelled : Bool) (file : Except IoError Bytes)
  | begin (number : Nat)
  | finish (number : Nat) (outcome : Except TransferError String)

/-- The tags of the parts that arrived. -/
def tags (settled : List Settled) : OrderedMap Nat String :=
  settled.foldl (fun m s => match s.outcome with
    | .ok tag  => m.insert s.number tag
    | .error _ => m) .empty

def failures (settled : List Settled) : OrderedMap Nat FailedPart :=
  settled.foldl (fun m s => match s.outcome with
    | .ok _    => m
    | .error e => m.insert s.number ⟨s.url, e.message⟩) .empty

/-- What the sending yields once all answers have come. -/
def resultOf (settled : List Settled) : Result :=
  if (failures settled).isEmpty then .ok (tags settled)
  else .error (.partialUpload (failures settled))

/-- What is told of an answer. -/
def eventOf (total : Nat) (h : Held) : Except TransferError String → Event
  | .ok _    => .partUploaded h.number total h.data.length
  | .error e => .partFailed h.number e.message

namespace State

/-- The sending ends here; parts still held are given up. -/
def stop (s : State) (e : TransferError) : State :=
  { s with held := [], result := some (.error e) }

def canProceed (s : State) : Bool :=
  if s.pending.isEmpty then s.held.isEmpty else s.held.length < s.slots

def proceed (s : State) (cancelled : Bool) (file : Except IoError Bytes) : State :=
  if cancelled then s.stop .cancelled
  else if !s.canProceed then s
  else match s.pending with
    | []          => { s with result := some (resultOf s.settled) }
    | url :: urls =>
      match s.reader.next file with
      | (.error e, reader) => { s with reader }.stop (.chunk e)
      | (.ok part, reader) =>
        -- the parts do not run out before the addresses, as the plan fits the file
        let data := match part with
          | some p => p.data
          | none   => []
        { s with
          reader
          pending := urls
          held    := s.held ++ [⟨s.nextNumber, url, data, false⟩] }

/-- The state after a move and what is told of it. A move that is not possible changes nothing. -/
def step (s : State) : Move → State × Option Event
  | .proceed cancelled file =>
    if s.result.isSome then (s, none) else (s.proceed cancelled file, none)
  | .begin n =>
    ({ s with held := s.held.map fun h => if h.number = n then { h with begun := true } else h },
      none)
  | .finish n outcome =>
    match s.held.find? fun h => h.number = n && h.begun with
    | none   => (s, none)
    | some h =>
      ({ s with
        held    := s.held.filter fun k => k.number ≠ n
        settled := s.settled ++ [⟨n, h.url, outcome⟩] },
        some (eventOf s.total h outcome))

def steps (s : State) : List Move → State × List Event
  | []      => (s, [])
  | m :: ms =>
    let (t, e) := s.step m
    let (u, es) := t.steps ms
    (u, e.toList ++ es)

end State

/-! ### Runs -/

/-- What comes next while parts are sent. The reader finds out by itself whether the transfer has
been cancelled and what the file holds. -/
inductive Choice
  | proceed
  | begin (number : Nat)
  | finish (number : Nat) (outcome : Except TransferError String)

/-- The most moves that change something: each part is read, sent and answered for, and the last
turn ends the sending. -/
def State.moveBound (s : State) : Nat :=
  3 * s.pending.length + 2 * s.held.length + 1

end StagedTransfer.Sending
