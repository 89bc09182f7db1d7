import StagedTransfer.Proofs.Session.Lockstep
import StagedTransfer.Proofs.Session.Sending

/-!
# What a session chooses

While parts are sent, a session always chooses something that brings the sending closer to its end:
the reader takes its turn only when it can or is to stop, each part goes on its way once, and the
answer that comes is that of a part on its way. So every sending of a session comes to its end.
-/

namespace StagedTransfer

open Sending

/-- Steps that leave a cancellation as it is. -/
def Lockstep.sticky {S : Type} (fired : S → Bool) : Lockstep (StateM S) (StateM S) :=
  .along (fun s t => fired s = true → fired t = true) (fun _ h => h) fun first rest h =>
    rest (first h)

/-- The surroundings of a session tell whether the transfer has been cancelled, which stays so
whatever they do. -/
structure Client.Cancellable {S : Type} (c : Client (StateM S)) (fired : S → Bool) : Prop where
  tells : ∀ s, fired (c.around.cancelled s).2 = (c.around.cancelled s).1
  stays : c.Alike (.sticky fired) c

/-! ### Parts on their way -/

/-- The outcome of each part that is on its way is known to the session. -/
def Session.Follows (v : Session) (s : State) : Prop :=
  ∀ h ∈ s.held, h.begun = true → ∃ outcome, v.flights.lookup h.number = some outcome

namespace Session.Follows

variable {v : Session} {s t : State}

lemma start (v : Session) (b : Batch) : v.Follows b.start := by
  intro h hh
  simp [Batch.start, State.start] at hh

lemma mono (follows : v.Follows s) (fewer : ∀ h ∈ t.held, h.begun = true → h ∈ s.held) :
    v.Follows t :=
  fun h hh begun => follows h (fewer h hh begun) begun

lemma begin (follows : v.Follows s) (n : Nat) (outcome : Except TransferError String) :
    Follows { v with flights := (n, outcome) :: v.flights }
      { s with held := s.held.map (Held.begin n) } := by
  intro h hh begun
  obtain ⟨k, hk, rfl⟩ := List.mem_map.1 hh
  by_cases same : k.number = n
  · exact ⟨outcome, by simp [Held.begin, same]⟩
  · rw [Held.begin, if_neg same] at begun ⊢
    obtain ⟨outcome', found⟩ := follows k hk begun
    exact ⟨outcome', by rw [List.lookup_cons, beq_false_of_ne same]; exact found⟩

end Session.Follows

/-- What a session has chosen, and whatever it has kept then. -/
inductive Client.Chooses {S : Type} (fired : S → Bool) (s : State) (v : Session) :
    Choice → Session → S → Prop
  | proceed {y : S} (can : s.canProceed = true ∨ fired y = true) : Chooses fired s v .proceed v y
  | begin {y : S} {h : Held} (mem : h ∈ s.held) (idle : h.begun = false)
    (outcome : Except TransferError String) :
    Chooses fired s v (.begin h.number) { v with flights := (h.number, outcome) :: v.flights } y
  | finish {y : S} {h : Held} (mem : h ∈ s.held) (begun : h.begun = true)
    (outcome : Except TransferError String) : Chooses fired s v (.finish h.number outcome) v y

/-- The number of slots stays as it is, and whatever is on its way has been on its way before. -/
lemma Sending.State.Step.held_of_proceed_or_finish {s t : State} {m : Move} {e : Option Event}
    (step : s.Step m t e) (still : ∀ n, m ≠ .begin n) :
    t.slots = s.slots ∧ ∀ h ∈ t.held, h.begun = true → h ∈ s.held := by
  cases step with
  | waiting => exact ⟨rfl, fun h hh _ => hh⟩
  | unexpected => exact ⟨rfl, fun h hh _ => hh⟩
  | finished => exact ⟨rfl, fun h hh _ => hh⟩
  | cancelled => exact ⟨rfl, by simp [State.stop]⟩
  | unread => exact ⟨rfl, by simp [State.stop]⟩
  | begun n => exact absurd rfl (still n)
  | answered => exact ⟨rfl, fun h hh _ => (List.mem_filter.1 hh).1⟩
  | taken =>
    refine ⟨rfl, fun h hh begun => ?_⟩
    rcases List.mem_append.1 hh with hh | hh
    · exact hh
    · obtain rfl := List.mem_singleton.1 hh
      cases begun

/-! ### Turns -/

/-- A sending has come closer to its end, or is over. -/
def Client.Nears (s : State) (v : Session) (t : State) : Prop :=
  (t.result = none ∧ t.weight < s.weight ∧ 0 < t.slots ∧ v.Follows t) ∨ t.result.isSome

lemma Client.Nears.of_allows {s : State} {v : Session} {file : String} {choice : Choice} {notes : Log}
    {m : Move} (open' : s.result = none) (amounts : Amounts file choice notes m)
    (allows : s.Allows choice) (some' : 0 < (s.step m).1.slots) (follows : v.Follows (s.step m).1) :
    Nears s v (s.step m).1 := by
  cases ended : (s.step m).1.result with
  | some r => exact .inr (by simp [ended])
  | none =>
    exact .inl ⟨ended, weight_lt amounts allows (State.step_of_open open' m) ended, some', follows⟩

namespace Client

variable {S : Type} {c : Client (StateM S)} {fired : S → Bool} {s : State} {v : Session} {x : S}

lemma getD_turns_mem (some' : 0 < s.slots) (cancelled : Bool) (n : Nat) :
    (turns s cancelled).getD (n % (turns s cancelled).length) .proceed ∈ turns s cancelled := by
  have open' : turns s cancelled ≠ [] := by
    cases cancelled with
    | true => simp [turns]
    | false => exact turns_ne_nil some'
  rw [List.getD_eq_getElem _ _ (Nat.mod_lt n (List.length_pos_of_ne_nil open'))]
  exact List.getElem_mem _

/-- A question to a store leaves the session as it is. -/
lemma comes_ask (d : Demand) (token : Option String) :
    (c.carry (.ask d token)).Comes v x fun _ w _ => w = v := by
  rw [Errand.ask]
  cases d.request? token with
  | none => exact rfl
  | some r =>
    refine Visit.Comes.bind (P := fun _ w _ => w = v) rfl fun outcome w _ same => ?_
    cases outcome <;> exact same

/-- A turn that a session takes among those that there are. -/
lemma take_chooses {turn : Turn} {cancelled : Bool} (follows : v.Follows s)
    (mem : turn ∈ turns s cancelled) (fires : cancelled = true → fired x = true) :
    (c.take turn).Comes v x fun choice w y => Chooses fired s v choice w y := by
  rcases List.mem_append.1 mem with mem | mem
  · obtain ⟨h, hh, rfl⟩ := List.mem_map.1 mem
    cases begun : h.begun with
    | true =>
      obtain ⟨outcome, found⟩ := follows h hh begun
      refine Visit.Comes.bind (P := fun u w _ => u = v ∧ w = v) ⟨rfl, rfl⟩ ?_
      rintro _ w y ⟨rfl, rfl⟩
      rw [found]
      exact .finish hh begun outcome
    | false =>
      refine Visit.Comes.bind (P := fun _ w _ => w = v) ?_ ?_
      · exact (comes_ask _ none).bind fun _ _ _ same => same
      · rintro outcome w y rfl
        exact .begin hh begun outcome
  · have can : (cancelled = true ∨ s.canProceed = true) ∧ turn = .proceed := by
      split at mem
      · next can => exact ⟨by simpa using can, List.mem_singleton.1 mem⟩
      · simp at mem
    rw [can.2]
    exact .proceed (can.1.symm.imp_right fires)

namespace Cancellable

variable (cancellable : c.Cancellable fired)

include cancellable

/-- Once the transfer has been cancelled whoever asks is told. -/
lemma told (fires : fired x = true) : (c.around.cancelled x).1 = true :=
  (cancellable.tells x).symm.trans (cancellable.stays.cancelled x fires)

lemma choose_chooses (some' : 0 < s.slots) (follows : v.Follows s) :
    (c.environment.choose s).Comes v x fun choice w y => Chooses fired s v choice w y := by
  have fires : (c.around.cancelled x).1 = true →
      fired (c.around.prefer (c.around.cancelled x).2).2 = true := by
    intro told
    refine cancellable.stays.prefer _ ?_
    rw [cancellable.tells, told]
  exact take_chooses follows (getD_turns_mem some' _ _) fires

/-- A turn of a session brings a sending closer to its end or ends it. -/
lemma comes_turn (file : String) (open' : s.result = none) (some' : 0 < s.slots)
    (follows : v.Follows s) :
    (c.environment.turn file s).Comes v x fun t w _ => Nears s w t := by
  have told (m : Move) (w : Session) (y : S) (nears : Nears s w (s.step m).1) :
      (do
        c.environment.tell (s.step m).2
        return (s.step m).1).Comes w y fun t w _ => Nears s w t := by
    refine Visit.Comes.bind (P := fun _ u _ => u = w) ?_ ?_
    · cases (s.step m).2 <;> exact rfl
    · rintro _ _ _ rfl
      exact nears
  apply (cancellable.choose_chooses some' follows).bind
  rintro choice w y chosen
  cases chosen with
  | proceed can =>
    let content := (c.around.content file (c.around.cancelled y).2).1
    refine Visit.Comes.bind (P := fun m w _ => w = v ∧
      m = .proceed (c.around.cancelled y).1 content) ⟨rfl, rfl⟩ ?_
    rintro _ w z ⟨rfl, rfl⟩
    refine told _ w z ?_
    -- The reader has its turn when it may read, or once the transfer is cancelled.
    rcases can with can | fires
    · have step := State.step_of_open open' (.proceed (c.around.cancelled y).1 content)
      obtain ⟨slots, fewer⟩ := step.held_of_proceed_or_finish (by simp)
      exact .of_allows open' (.proceed _ _ : Amounts file _ _ _) can (by rwa [slots])
        (follows.mono fewer)
    · rw [cancellable.told fires, State.step_proceed_of_open open']
      exact .inr rfl
  | @begin _ h mem idle outcome =>
    refine Visit.Comes.bind (P := fun m u _ => u = _ ∧ m = .begin h.number) ⟨rfl, rfl⟩ ?_
    rintro _ w z ⟨rfl, rfl⟩
    refine told _ _ z (.of_allows open' (.begin _ : Amounts file _ _ _) ?_ some'
      (follows.begin _ _))
    rw [State.Allows, State.put?, List.find?_isSome]
    exact ⟨h, mem, by simp [idle]⟩
  | @finish _ h mem begun outcome =>
    refine Visit.Comes.bind (P := fun m u _ => u = v ∧ m = .finish h.number outcome) ⟨rfl, rfl⟩ ?_
    rintro _ w z ⟨rfl, rfl⟩
    have step := State.step_of_open open' (.finish h.number outcome)
    obtain ⟨slots, fewer⟩ := step.held_of_proceed_or_finish (by simp)
    refine told _ _ z (.of_allows open' (.finish _ _ : Amounts file _ _ _) ?_ (by rwa [slots])
      (follows.mono fewer))
    rw [State.Allows, State.answer?, Option.isSome_map, List.find?_isSome]
    exact ⟨h, mem, by simp [begun]⟩

/-- Every sending of a session comes to its end. -/
theorem comes_send (b : Batch) (some' : 0 < b.slots) (v : Session) (x : S) :
    (c.environment.send b).Comes v x fun r _ _ => r.isSome := by
  refine (Environment.comes_sendFrom (I := fun s v _ => 0 < s.slots ∧ v.Follows s)
    (Q := fun _ _ _ => True) (fun s v x open' inv => ?_) rfl ?_ ⟨some', .start v b⟩).imp ?_
  · refine (cancellable.comes_turn b.file open' inv.1 inv.2).imp fun t w y nears => ?_
    exact nears.imp id fun ended => (Option.isSome_iff_exists.1 ended).imp fun r hr => ⟨hr, trivial⟩
  · simp [State.weight, State.moveBound, Batch.start, State.start]
  · rintro _ _ _ ⟨r, rfl, -⟩
    rfl

end Cancellable

end Client

end StagedTransfer
