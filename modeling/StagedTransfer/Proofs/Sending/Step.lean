import StagedTransfer.Proofs.Course

/-!
# Moves of a sending

All that a move can do to a sending that is not over, and how a sending ends. What every move keeps
holds in each state that a course leads to, up to the turn of the reader that ends the sending.
-/

namespace StagedTransfer.Sending

/-- The bytes that a turn of the reader has yielded, none if the file has come to its end. -/
def dataOf (part : Option Part) : Bytes :=
  match part with
  | some p => p.data
  | none   => []

/-- The part as it is once the part with a number goes on its way. -/
def Held.begin (n : Nat) (h : Held) : Held :=
  if h.number = n then { h with begun := true } else h

namespace State

/-- The part that goes on its way by a choice. -/
def put? (s : State) : Choice → Option Held
  | .begin n => s.held.find? fun h => h.number = n && !h.begun
  | _        => none

/-- The answer that comes by a choice. -/
def answer? (s : State) : Choice → Option Settled
  | .finish n outcome =>
    (s.held.find? fun h => h.number = n && h.begun).map fun h => ⟨n, h.url, outcome⟩
  | _                 => none

/-- The state in which the answer for a part has come. -/
def settle (s : State) (n : Nat) (url : String) (outcome : Except TransferError String) : State :=
  { s with
    held    := s.held.filter fun k => k.number ≠ n
    settled := s.settled ++ [⟨n, url, outcome⟩] }

/-- The state in which the next part has been read. -/
def take (s : State) (reader : PartReader) (url : String) (urls : List String)
    (part : Option Part) : State :=
  { s with
    reader
    pending := urls
    held    := s.held ++ [⟨s.nextNumber, url, dataOf part, false⟩] }

/-- A move leads from a state to another, and an event is told of it. -/
inductive Step (s : State) : Move → State → Option Event → Prop
  | cancelled (content : Except IoError Bytes) :
    Step s (.proceed true content) (s.stop .cancelled) none
  | waiting (content : Except IoError Bytes) (h : s.canProceed = false) :
    Step s (.proceed false content) s none
  | finished (content : Except IoError Bytes) (pending : s.pending = []) (held : s.held = []) :
    Step s (.proceed false content) { s with result := some (resultOf s.settled) } none
  | unread {content : Except IoError Bytes} {e : ChunkError} {reader : PartReader}
    (open' : s.held.length < s.slots) (read : s.reader.next content = (.error e, reader)) :
    Step s (.proceed false content) ({ s with reader }.stop (.chunk e)) none
  | taken {content : Except IoError Bytes} {part : Option Part} {reader : PartReader}
    {url : String} {urls : List String} (pending : s.pending = url :: urls)
    (open' : s.held.length < s.slots) (read : s.reader.next content = (.ok part, reader)) :
    Step s (.proceed false content) (s.take reader url urls part) none
  | begun (n : Nat) : Step s (.begin n) { s with held := s.held.map (Held.begin n) } none
  | unexpected (n : Nat) (outcome : Except TransferError String)
    (h : s.answer? (.finish n outcome) = none) : Step s (.finish n outcome) s none
  | answered {n : Nat} {h : Held} (outcome : Except TransferError String) (mem : h ∈ s.held)
    (number : h.number = n) (begun : h.begun = true)
    (answer : s.answer? (.finish n outcome) = some ⟨n, h.url, outcome⟩) :
    Step s (.finish n outcome) (s.settle n h.url outcome) (some (eventOf s.total h outcome))

lemma step_proceed_of_open {s : State} (hs : s.result = none) (cancelled : Bool)
    (content : Except IoError Bytes) :
    s.step (.proceed cancelled content) = (s.proceed cancelled content, none) := by
  simp [step, hs]

lemma proceed_nil {s : State} (content : Except IoError Bytes) (hp : s.pending = [])
    (hh : s.held = []) :
    s.proceed false content = { s with result := some (resultOf s.settled) } := by
  simp [proceed, canProceed, hp, hh]

lemma proceed_cons {s : State} (content : Except IoError Bytes) {url : String} {urls : List String}
    (hp : s.pending = url :: urls) (room : s.held.length < s.slots) :
    s.proceed false content = match s.reader.next content with
      | (.error e, reader) => { s with reader }.stop (.chunk e)
      | (.ok part, reader) => s.take reader url urls part := by
  simp only [proceed, canProceed, hp, room, Bool.false_eq_true, if_false, List.isEmpty_cons,
    decide_true, Bool.not_true]
  rfl

/-- What a move does to a sending that is not over. -/
theorem step_of_open {s : State} (hs : s.result = none) (m : Move) :
    s.Step m (s.step m).1 (s.step m).2 := by
  cases m with
  | proceed cancelled content =>
    rw [step_proceed_of_open hs]
    cases cancelled with
    | true => exact .cancelled content
    | false =>
      cases hc : s.canProceed with
      | false => simpa [proceed, hc] using .waiting content hc
      | true =>
        cases hp : s.pending with
        | nil =>
          have held : s.held = [] := by simpa [canProceed, hp] using hc
          rw [proceed_nil content hp held]
          exact .finished content hp held
        | cons url urls =>
          have room : s.held.length < s.slots := by simpa [canProceed, hp] using hc
          rw [proceed_cons content hp room]
          rcases hr : s.reader.next content with ⟨e | part, reader⟩
          · exact .unread room hr
          · exact .taken hp room hr
  | begin n => exact .begun n
  | finish n outcome =>
    simp only [step]
    cases hf : s.held.find? fun h => h.number = n && h.begun with
    | none => exact .unexpected n outcome (by simp [answer?, hf])
    | some h =>
      have found : h.number = n ∧ h.begun = true := by simpa using List.find?_some hf
      exact .answered outcome (List.mem_of_find?_eq_some hf) found.1 found.2 (by simp [answer?, hf])

end State

/-! ### The end of a sending -/

/-- The questions of a turn of the reader. -/
def turn (file : String) (s : State) (cancelled : Bool) (content : Except IoError Bytes) : Log :=
  [.chosen s .proceed, .asked cancelled, .acted (.content file) content]

/-- A property of a state and of the log that has led to it, which each move keeps that does not end
the sending. -/
def Kept (file : String) (I : Log → State → Prop) : Prop :=
  ∀ ⦃log notes : Log⦄ ⦃s t : State⦄ ⦃c : Choice⦄ ⦃m : Move⦄ ⦃e : Option Event⦄, I log s →
    s.result = none → Amounts file c notes m → s.Step m t e → t.result = none →
    I (log ++ .chosen s c :: (notes ++ told e)) t

/-- How a sending ends that was not over: it is still open, or the reader has taken a last turn in a
state with the property. -/
inductive Ends (file : String) (I : Log → State → Prop) : Log → State → Prop
  | still {log : Log} {s : State} (inv : I log s) (open' : s.result = none) : Ends file I log s
  | cancelled {log : Log} {s : State} (content : Except IoError Bytes) (inv : I log s)
    (open' : s.result = none) :
    Ends file I (log ++ turn file s true content)
      (s.stop .cancelled)
  | unread {log : Log} {s : State} {content : Except IoError Bytes} {e : ChunkError}
    {reader : PartReader} (inv : I log s) (open' : s.result = none)
    (read : s.reader.next content = (.error e, reader)) :
    Ends file I (log ++ turn file s false content)
      ({ s with reader }.stop (.chunk e))
  | finished {log : Log} {s : State} (content : Except IoError Bytes) (inv : I log s)
    (open' : s.result = none) (pending : s.pending = []) (held : s.held = []) :
    Ends file I (log ++ turn file s false content)
      { s with result := some (resultOf s.settled) }

lemma Course.eq_of_result {file : String} {fuel : Nat} {s t : State} {r : Result} {log : Log}
    (h : Course file fuel s log t) (hs : s.result = some r) : log = [] ∧ t = s := by
  cases h with
  | spent => exact ⟨rfl, rfl⟩
  | ended => exact ⟨rfl, rfl⟩
  | move open' => simp [open'] at hs

/-- A sending that was not over ends in one of four ways. -/
theorem Course.ends {file : String} {I : Log → State → Prop} (kept : Kept file I) {fuel : Nat}
    {s t : State} {log new : Log} (h : Course file fuel s new t) (hs : s.result = none)
    (inv : I log s) : Ends file I (log ++ new) t := by
  induction h generalizing log with
  | spent s => exact .still (by simpa using inv) hs
  | ended h => simp [h] at hs
  | @move n s t c notes new m open' amounts rest ih =>
    have step := State.step_of_open open' m
    cases ht : (s.step m).1.result with
    | none =>
      have next := ih ht (kept inv open' amounts step ht)
      simpa using next
    | some r =>
      obtain ⟨rfl, rfl⟩ := rest.eq_of_result ht
      generalize (s.step m).1 = u at step ht ⊢
      generalize (s.step m).2 = e at step ⊢
      cases step with
      | cancelled content =>
        cases amounts
        exact .cancelled content inv open'
      | unread room read =>
        cases amounts
        exact .unread inv open' read
      | finished content pending held =>
        cases amounts
        exact .finished content inv open' pending held
      | waiting _ _ => simp [open'] at ht
      | taken _ _ _ => simp [State.take, open'] at ht
      | begun _ => simp [open'] at ht
      | unexpected _ _ _ => simp [open'] at ht
      | answered _ _ _ _ _ => simp [State.settle, open'] at ht

end StagedTransfer.Sending
