import Mathlib.Tactic.Lemma
import StagedTransfer.Transfer.Activity

/-!
# Courses

All that an activity asks of an environment is written down in a log, each question with its answer.
Whatever the other sides of a transfer are, the log of a run is a course of the activity: a way that
the activity can take for some answers. What holds for every course holds for every run.
-/

namespace StagedTransfer

/-- A question to an environment and the answer to it. -/
inductive Note
  /-- Whether the transfer has been cancelled. -/
  | asked (cancelled : Bool)
  | awaited (w : Await) (reply : Reply TransferError w.Answer)
  | acted (a : Act) (answer : a.Answer)
  /-- What comes next in a state of a sending. -/
  | chosen (s : Sending.State) (c : Sending.Choice)

/-- All questions of a run, in order. -/
abbrev Log := List Note

/-! ### Recording -/

namespace Environment

variable {σ : Type}

/-- The step, which leaves a note of its answer. -/
def noting {α : Type} (x : StateM σ α) (note : α → Note) : StateM (σ × Log) α := fun p =>
  ((x p.1).1, (x p.1).2, p.2 ++ [note (x p.1).1])

/-- The same environment, which keeps a log. -/
def recorded (env : Environment (StateM σ)) : Environment (StateM (σ × Log)) where
  cancelled := noting env.cancelled .asked
  await w   := noting (env.await w) (.awaited w)
  act a     := noting (env.act a) (.acted a)
  choose s  := noting (env.choose s) (.chosen s)

end Environment

/-- The log of a run. -/
def Activity.log {σ α : Type} (a : Activity α) (env : Environment (StateM σ)) (s : σ) : Log :=
  (a.run env.recorded (s, [])).2.2

/-! ### Courses of a sending -/

namespace Sending

/-- A choice amounts to a move once the questions in a log have been answered. -/
inductive Amounts (file : String) : Choice → Log → Move → Prop
  | proceed (cancelled : Bool) (content : Except IoError Bytes) :
    Amounts file .proceed [.asked cancelled, .acted (.content file) content]
      (.proceed cancelled content)
  | begin (n : Nat) : Amounts file (.begin n) [] (.begin n)
  | finish (n : Nat) (outcome : Except TransferError String) :
    Amounts file (.finish n outcome) [] (.finish n outcome)

/-- The note of an event, if there is one. -/
def told (e : Option Event) : Log :=
  (e.map fun e => .acted (.emit e) ()).toList

/-- A sending of at most `fuel` moves leads from one state to another. -/
inductive Course (file : String) : (fuel : Nat) → State → Log → State → Prop
  | spent (s : State) : Course file 0 s [] s
  | ended {n : Nat} {s : State} {r : Result} (h : s.result = some r) : Course file (n + 1) s [] s
  | move {n : Nat} {s t : State} {c : Choice} {notes log : Log} {m : Move}
    (open' : s.result = none) (amounts : Amounts file c notes m)
    (rest : Course file n (s.step m).1 log t) :
    Course file (n + 1) s (.chosen s c :: (notes ++ told (s.step m).2 ++ log)) t

end Sending

/-! ### Courses of an activity -/

/-- Before the first part of a batch is read. -/
def Batch.start (b : Batch) : Sending.State :=
  .start b.slots b.reader b.urls

/-- An activity can end with a result after the questions in a log. -/
inductive Activity.Course {α : Type} : Activity α → Log → Except Stop α → Prop
  | done (r : Except Stop α) : Course (.done r) [] r
  | act {a : Act} {next : a.Answer → Activity α} {log : Log} {r : Except Stop α} (x : a.Answer)
    (rest : Course (next x) log r) : Course (.act a next) (.acted a x :: log) r
  | giveUp {w : Await} {next : Except TransferError w.Answer → Activity α} {log : Log}
    {r : Except Stop α} (rest : Course (next (.error .cancelled)) log r) :
    Course (.await w next) (.asked true :: log) r
  | await {w : Await} {next : Except TransferError w.Answer → Activity α} {log : Log}
    {r : Except Stop α} (x : Except TransferError w.Answer) (rest : Course (next x) log r) :
    Course (.await w next) (.asked false :: .awaited w (.answered x) :: log) r
  | overrun {w : Await} {next : Except TransferError w.Answer → Activity α} (o : Overrun) :
    Course (.await w next) [.asked false, .awaited w (.overrun o)] (.error (.overrun o))
  | giveUpSending {b : Batch} {next : Sending.Result → Activity α} {log : Log}
    {r : Except Stop α} (rest : Course (next (.error .cancelled)) log r) :
    Course (.send b next) (.asked true :: log) r
  | send {b : Batch} {next : Sending.Result → Activity α} {sending log : Log}
    {r : Except Stop α} {t : Sending.State} {x : Sending.Result}
    (sent : Sending.Course b.file b.start.moveBound b.start sending t) (result : t.result = some x)
    (rest : Course (next x) log r) :
    Course (.send b next) (.asked false :: (sending ++ log)) r
  | stalled {b : Batch} {next : Sending.Result → Activity α} {sending : Log} {t : Sending.State}
    (sent : Sending.Course b.file b.start.moveBound b.start sending t) (result : t.result = none) :
    Course (.send b next) (.asked false :: sending) (.error .unfinished)

/-! ### Every run is a course -/

namespace Environment

section

variable {m : Type → Type} [Monad m] (env : Environment m)

/-- The event of a move is told, and nothing if there is none. -/
def tell (e : Option Event) : m Unit :=
  match e with
  | some e => env.act (.emit e)
  | none   => pure ()

lemma sendFrom_of_result (file : String) (fuel : Nat) {s : Sending.State} {r : Sending.Result}
    (hs : s.result = some r) : env.sendFrom file fuel s = pure (some r) := by
  cases fuel <;> simp [sendFrom, hs]

/-- One move of a sending. -/
lemma sendFrom_succ [LawfulMonad m] (file : String) (n : Nat) {s : Sending.State}
    (hs : s.result = none) :
    env.sendFrom file (n + 1) s = (do
      let move ← env.moveOf file (← env.choose s)
      env.tell (s.step move).2
      env.sendFrom file n (s.step move).1) := by
  simp only [sendFrom, hs]
  congr 1
  funext c
  congr 1
  funext move
  cases (s.step move).2 <;> simp [tell]

end

variable {σ : Type} (env : Environment (StateM σ))

lemma bind_at {α β : Type} (x : StateM σ α) (f : α → StateM σ β) (s : σ) :
    (x >>= f) s = f (x s).1 (x s).2 := rfl

lemma choose_recorded (s : Sending.State) (x : σ) (log : Log) :
    env.recorded.choose s (x, log) =
      ((env.choose s x).1, (env.choose s x).2, log ++ [.chosen s (env.choose s x).1]) := rfl

lemma moveOf_recorded (file : String) (c : Sending.Choice) (x : σ) (log : Log) :
    ∃ notes, env.recorded.moveOf file c (x, log) =
        ((env.moveOf file c x).1, (env.moveOf file c x).2, log ++ notes) ∧
      Sending.Amounts file c notes (env.moveOf file c x).1 := by
  cases c with
  | proceed =>
    refine ⟨[.asked (env.cancelled x).1,
      .acted (.content file) (env.act (.content file) (env.cancelled x).2).1], ?_, .proceed _ _⟩
    rw [show [Note.asked (env.cancelled x).1, .acted (.content file) _] = [.asked _] ++ [_]
      from rfl, ← List.append_assoc]
    rfl
  | begin n => exact ⟨[], by rw [List.append_nil]; rfl, .begin n⟩
  | finish n outcome => exact ⟨[], by rw [List.append_nil]; rfl, .finish n outcome⟩

lemma tell_recorded (e : Option Event) (x : σ) (log : Log) :
    env.recorded.tell e (x, log) = ((), (env.tell e x).2, log ++ Sending.told e) := by
  cases e with
  | none =>
    rw [show Sending.told none = [] from rfl, List.append_nil]
    rfl
  | some e => rfl

lemma sendFrom_recorded (file : String) (fuel : Nat) (s : Sending.State) (x : σ) (log : Log) :
    ∃ new t, env.recorded.sendFrom file fuel s (x, log) =
        ((env.sendFrom file fuel s x).1, (env.sendFrom file fuel s x).2, log ++ new) ∧
      t.result = (env.sendFrom file fuel s x).1 ∧ Sending.Course file fuel s new t := by
  induction fuel generalizing s x log with
  | zero => exact ⟨[], s, by rw [List.append_nil]; rfl, rfl, .spent s⟩
  | succ n ih =>
    cases hr : s.result with
    | some r =>
      refine ⟨[], s, ?_, ?_, .ended hr⟩
      · rw [sendFrom_of_result _ _ _ hr, sendFrom_of_result _ _ _ hr, List.append_nil]
        rfl
      · rw [sendFrom_of_result _ _ _ hr, hr]
        rfl
    | none =>
      simp only [sendFrom_succ _ _ _ hr, bind_at, choose_recorded]
      obtain ⟨notes, hm, amounts⟩ := env.moveOf_recorded file (env.choose s x).1 (env.choose s x).2
        (log ++ [.chosen s (env.choose s x).1])
      simp only [hm, tell_recorded]
      obtain ⟨new, t, hnew, ht, rest⟩ := ih _ _ _
      refine ⟨_, t, ?_, ht, .move hr amounts rest⟩
      rw [hnew]
      simp only [List.append_assoc, List.cons_append, List.nil_append]

lemma send_recorded (b : Batch) (x : σ) (log : Log) :
    ∃ new t, env.recorded.send b (x, log) =
        ((env.send b x).1, (env.send b x).2, log ++ new) ∧
      t.result = (env.send b x).1 ∧ Sending.Course b.file b.start.moveBound b.start new t :=
  env.sendFrom_recorded b.file b.start.moveBound b.start x log

lemma cancelled_recorded (x : σ) (log : Log) :
    env.recorded.cancelled (x, log) =
      ((env.cancelled x).1, (env.cancelled x).2, log ++ [.asked (env.cancelled x).1]) := rfl

lemma await_recorded (w : Await) (x : σ) (log : Log) :
    env.recorded.await w (x, log) =
      ((env.await w x).1, (env.await w x).2, log ++ [.awaited w (env.await w x).1]) := rfl

/-! #### The steps of a run -/

section

variable {α : Type} {x : σ} {w : Await} {b : Batch}
  {next : Except TransferError w.Answer → Activity α} {then' : Sending.Result → Activity α}

lemma run_giveUp (h : (env.cancelled x).1 = true) :
    (Activity.await w next).run env x = (next (.error .cancelled)).run env (env.cancelled x).2 := by
  simp only [Activity.run, bind_at]
  rw [if_pos h]

lemma run_await {r : Except TransferError w.Answer} (h : (env.cancelled x).1 = false)
    (hw : (env.await w (env.cancelled x).2).1 = .answered r) :
    (Activity.await w next).run env x =
      (next r).run env (env.await w (env.cancelled x).2).2 := by
  simp only [Activity.run, bind_at]
  rw [if_neg (by simp [h])]
  simp only [bind_at, hw]

lemma run_overrun {o : Overrun} (h : (env.cancelled x).1 = false)
    (hw : (env.await w (env.cancelled x).2).1 = .overrun o) :
    (Activity.await w next).run env x =
      (.error (.overrun o), (env.await w (env.cancelled x).2).2) := by
  simp only [Activity.run, bind_at]
  rw [if_neg (by simp [h])]
  simp only [bind_at, hw]
  rfl

lemma run_giveUpSending (h : (env.cancelled x).1 = true) :
    (Activity.send b then').run env x =
      (then' (.error .cancelled)).run env (env.cancelled x).2 := by
  simp only [Activity.run, bind_at]
  rw [if_pos h]

lemma run_send {r : Sending.Result} (h : (env.cancelled x).1 = false)
    (hb : (env.send b (env.cancelled x).2).1 = some r) :
    (Activity.send b then').run env x = (then' r).run env (env.send b (env.cancelled x).2).2 := by
  simp only [Activity.run, bind_at]
  rw [if_neg (by simp [h])]
  simp only [bind_at, hb]

lemma run_stalled (h : (env.cancelled x).1 = false)
    (hb : (env.send b (env.cancelled x).2).1 = none) :
    (Activity.send b then').run env x =
      (.error .unfinished, (env.send b (env.cancelled x).2).2) := by
  simp only [Activity.run, bind_at]
  rw [if_neg (by simp [h])]
  simp only [bind_at, hb]
  rfl

end

/-- A log changes nothing, and what it holds is a course. -/
theorem run_recorded {α : Type} (a : Activity α) (x : σ) (log : Log) :
    ∃ new, a.run env.recorded (x, log) = ((a.run env x).1, (a.run env x).2, log ++ new) ∧
      a.Course new (a.run env x).1 := by
  -- On the activity. The log has no say in an answer, so both runs take the same case of `run`.
  induction a generalizing x log with
  | done r => exact ⟨[], by rw [List.append_nil]; rfl, .done r⟩
  | act a next ih =>
    obtain ⟨new, hnew, rest⟩ := ih (env.act a x).1 (env.act a x).2
      (log ++ [.acted a (env.act a x).1])
    refine ⟨.acted a (env.act a x).1 :: new, ?_, .act _ rest⟩
    rw [← List.append_cons] at hnew
    exact hnew
  | await w next ih =>
    cases hb : (env.cancelled x).1 with
    | true =>
      obtain ⟨new, hnew, rest⟩ := ih (.error .cancelled) (env.cancelled x).2 (log ++ [.asked true])
      rw [run_giveUp env hb, run_giveUp env.recorded (x := (x, log)) hb, cancelled_recorded, hb,
        hnew]
      exact ⟨.asked true :: new, by simp, .giveUp rest⟩
    | false =>
      cases hw : (env.await w (env.cancelled x).2).1 with
      | overrun o =>
        rw [run_overrun env hb hw, run_overrun env.recorded (x := (x, log)) hb hw,
          cancelled_recorded, hb, await_recorded, hw]
        exact ⟨_, by rw [List.append_assoc]; rfl, .overrun o⟩
      | answered r =>
        obtain ⟨new, hnew, rest⟩ := ih r (env.await w (env.cancelled x).2).2
          (log ++ [.asked false] ++ [.awaited w (.answered r)])
        rw [run_await env hb hw, run_await env.recorded (x := (x, log)) hb hw, cancelled_recorded,
          hb, await_recorded, hw, hnew]
        exact ⟨.asked false :: .awaited w (.answered r) :: new, by simp, .await r rest⟩
  | send b next ih =>
    cases hb : (env.cancelled x).1 with
    | true =>
      obtain ⟨new, hnew, rest⟩ := ih (.error .cancelled) (env.cancelled x).2 (log ++ [.asked true])
      rw [run_giveUpSending env hb, run_giveUpSending env.recorded (x := (x, log)) hb,
        cancelled_recorded, hb, hnew]
      exact ⟨.asked true :: new, by simp, .giveUpSending rest⟩
    | false =>
      obtain ⟨sending, t, hsend, ht, sent⟩ := env.send_recorded b (env.cancelled x).2
        (log ++ [.asked false])
      rw [show ((env.cancelled x).2, log ++ [Note.asked false]) =
        (env.recorded.cancelled (x, log)).2 by rw [cancelled_recorded, hb]] at hsend
      cases hr : (env.send b (env.cancelled x).2).1 with
      | none =>
        rw [run_stalled env hb hr,
          run_stalled env.recorded (x := (x, log)) hb (by rw [hsend]; exact hr), hsend]
        exact ⟨.asked false :: sending, by simp, .stalled sent (ht.trans hr)⟩
      | some r =>
        obtain ⟨new, hnew, rest⟩ := ih r (env.send b (env.cancelled x).2).2
          (log ++ [.asked false] ++ sending)
        rw [run_send env hb hr,
          run_send env.recorded (x := (x, log)) hb (by rw [hsend]; exact hr), hsend, hnew]
        exact ⟨.asked false :: (sending ++ new), by simp, .send sent (ht.trans hr) rest⟩

end Environment

namespace Activity

variable {σ α : Type} (env : Environment (StateM σ)) (a : Activity α) (s : σ)

/-- The log of a run is a course of the activity to the result of the run. -/
theorem course_log : a.Course (a.log env s) (a.run env s).1 := by
  obtain ⟨new, hnew, course⟩ := env.run_recorded a s []
  rw [log, hnew]
  exact course

/-- Keeping a log changes neither the result nor the other sides. -/
theorem run_recorded_start : a.run env.recorded (s, []) =
    ((a.run env s).1, (a.run env s).2, a.log env s) := by
  obtain ⟨new, hnew, -⟩ := env.run_recorded a s []
  rw [log, hnew]

/-! ### Courses of composed activities -/

/-- What can come of a single wait. -/
inductive Waits (w : Await) : Log → Except Stop w.Answer → Prop
  | giveUp : Waits w [.asked true] (.error (.failed .cancelled))
  | ok (x : w.Answer) : Waits w [.asked false, .awaited w (.answered (.ok x))] (.ok x)
  | error (e : TransferError) :
    Waits w [.asked false, .awaited w (.answered (.error e))] (.error (.failed e))
  | overrun (o : Overrun) :
    Waits w [.asked false, .awaited w (.overrun o)] (.error (.overrun o))

/-- A single wait asks for nothing else. -/
lemma Waits.mem {w : Await} {log : Log} {r : Except Stop w.Answer} (h : Waits w log r) {note : Note}
    (hn : note ∈ log) :
    (∃ cancelled, note = .asked cancelled) ∨ ∃ reply, note = .awaited w reply := by
  cases h <;> simp only [List.mem_cons, List.not_mem_nil, or_false] at hn
  · exact .inl ⟨true, hn⟩
  all_goals
    rcases hn with rfl | rfl
    · exact .inl ⟨false, rfl⟩
    · exact .inr ⟨_, rfl⟩

lemma Waits.of_ok {w : Await} {log : Log} {x : w.Answer} (h : Waits w log (.ok x)) :
    log = [.asked false, .awaited w (.answered (.ok x))] := by
  cases h
  rfl

lemma Waits.of_error {w : Await} {log : Log} {s : Stop} (h : Waits w log (.error s)) :
    (log = [.asked true] ∧ s = .failed .cancelled) ∨
      (∃ e, log = [.asked false, .awaited w (.answered (.error e))] ∧ s = .failed e) ∨
      ∃ o, log = [.asked false, .awaited w (.overrun o)] ∧ s = .overrun o := by
  cases h with
  | giveUp => exact .inl ⟨rfl, rfl⟩
  | error e => exact .inr (.inl ⟨e, rfl, rfl⟩)
  | overrun o => exact .inr (.inr ⟨o, rfl, rfl⟩)

namespace Course

variable {α β : Type} {log : Log}

lemma of_pure {x : α} {r : Except Stop α} (h : (pure x : Activity α).Course log r) :
    log = [] ∧ r = .ok x := by
  cases h
  exact ⟨rfl, rfl⟩

lemma of_fail {e : TransferError} {r : Except Stop α} (h : (fail e : Activity α).Course log r) :
    log = [] ∧ r = .error (.failed e) := by
  cases h
  exact ⟨rfl, rfl⟩

lemma of_overrun {o : Overrun} {r : Except Stop α}
    (h : (Activity.overrun o : Activity α).Course log r) : log = [] ∧ r = .error (.overrun o) := by
  cases h
  exact ⟨rfl, rfl⟩

lemma of_ofExcept {x : Except TransferError α} {r : Except Stop α}
    (h : (ofExcept x).Course log r) : log = [] ∧ r = x.mapError .failed := by
  cases x with
  | ok x => exact of_pure h
  | error e => exact of_fail h

lemma of_awaiting {w : Await} {r : Except Stop w.Answer} (h : (awaiting w).Course log r) :
    Waits w log r := by
  cases h with
  | giveUp rest =>
    obtain ⟨rfl, rfl⟩ := of_fail rest
    exact .giveUp
  | await x rest =>
    obtain ⟨rfl, rfl⟩ := of_ofExcept rest
    cases x with
    | ok x => exact .ok x
    | error e => exact .error e
  | overrun o => exact .overrun o

lemma of_call {c : Call} {r : Except Stop c.Answer} (h : (call c).Course log r) :
    Waits (.call c) log r :=
  of_awaiting h

/-- An activity that goes on with the value of another takes a course of that one first. -/
lemma of_bind {a : Activity α} {f : α → Activity β} {r : Except Stop β}
    (h : (a >>= f).Course log r) :
    (∃ first rest x, a.Course first (.ok x) ∧ (f x).Course rest r ∧ log = first ++ rest) ∨
      ∃ e, a.Course log (.error e) ∧ r = .error e := by
  change (a.bind f).Course log r at h
  -- On the first activity, whose next step is the next step of the whole until it is done.
  induction a generalizing log with
  | done x =>
    cases x with
    | ok x => exact .inl ⟨[], log, x, .done _, h, rfl⟩
    | error e =>
      cases h
      exact .inr ⟨e, .done _, rfl⟩
  | act a next ih =>
    cases h with
    | act x rest =>
      rcases ih x rest with ⟨first, last, y, ha, hf, rfl⟩ | ⟨e, ha, rfl⟩
      · exact .inl ⟨_, last, y, .act x ha, hf, rfl⟩
      · exact .inr ⟨e, .act x ha, rfl⟩
  | await w next ih =>
    cases h with
    | giveUp rest =>
      rcases ih _ rest with ⟨first, last, y, ha, hf, rfl⟩ | ⟨e, ha, rfl⟩
      · exact .inl ⟨_, last, y, .giveUp ha, hf, rfl⟩
      · exact .inr ⟨e, .giveUp ha, rfl⟩
    | await x rest =>
      rcases ih x rest with ⟨first, last, y, ha, hf, rfl⟩ | ⟨e, ha, rfl⟩
      · exact .inl ⟨_, last, y, .await x ha, hf, rfl⟩
      · exact .inr ⟨e, .await x ha, rfl⟩
    | overrun o => exact .inr ⟨_, .overrun o, rfl⟩
  | send b next ih =>
    cases h with
    | giveUpSending rest =>
      rcases ih _ rest with ⟨first, last, y, ha, hf, rfl⟩ | ⟨e, ha, rfl⟩
      · exact .inl ⟨_, last, y, .giveUpSending ha, hf, rfl⟩
      · exact .inr ⟨e, .giveUpSending ha, rfl⟩
    | @send _ _ sending _ _ t x sent result rest =>
      rcases ih x rest with ⟨first, last, y, ha, hf, rfl⟩ | ⟨e, ha, rfl⟩
      · exact .inl ⟨_, last, y, .send sent result ha, hf, by simp⟩
      · exact .inr ⟨e, .send sent result ha, rfl⟩
    | stalled sent result => exact .inr ⟨_, .stalled sent result, rfl⟩

lemma of_perform_bind {a : Act} {f : a.Answer → Activity β} {r : Except Stop β}
    (h : (perform a >>= f).Course log r) :
    ∃ x rest, log = .acted a x :: rest ∧ (f x).Course rest r := by
  cases h with
  | act x rest => exact ⟨x, _, rfl, rest⟩

/-- What an activity that goes on with the error of another as well makes of its result. -/
def attempted : Except Stop α → Except Stop (Except TransferError α)
  | .ok x              => .ok (.ok x)
  | .error (.failed e) => .ok (.error e)
  | .error s           => .error s

lemma of_attempt {a : Activity α} {r : Except Stop (Except TransferError α)}
    (h : a.attempt.Course log r) : ∃ x, a.Course log x ∧ r = attempted x := by
  induction a generalizing log with
  | done x =>
    refine ⟨x, ?_⟩
    rcases x with s | x
    · cases s <;> cases h <;> exact ⟨.done _, rfl⟩
    · cases h
      exact ⟨.done _, rfl⟩
  | act a next ih =>
    cases h with
    | act x rest =>
      obtain ⟨y, hy, rfl⟩ := ih x rest
      exact ⟨y, .act x hy, rfl⟩
  | await w next ih =>
    cases h with
    | giveUp rest =>
      obtain ⟨y, hy, rfl⟩ := ih _ rest
      exact ⟨y, .giveUp hy, rfl⟩
    | await x rest =>
      obtain ⟨y, hy, rfl⟩ := ih x rest
      exact ⟨y, .await x hy, rfl⟩
    | overrun o => exact ⟨_, .overrun o, rfl⟩
  | send b next ih =>
    cases h with
    | giveUpSending rest =>
      obtain ⟨y, hy, rfl⟩ := ih _ rest
      exact ⟨y, .giveUpSending hy, rfl⟩
    | send sent result rest =>
      obtain ⟨y, hy, rfl⟩ := ih _ rest
      exact ⟨y, .send sent result hy, rfl⟩
    | stalled sent result => exact ⟨_, .stalled sent result, rfl⟩

end Course

end Activity

end StagedTransfer
