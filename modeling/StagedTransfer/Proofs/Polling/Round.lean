import Mathlib.Tactic.ByCases
import StagedTransfer.Proofs.Course
import StagedTransfer.Transfer.Polling

/-!
# Rounds of a wait

A wait goes round by round. In each of them the access token is looked at, the job is asked for
once, and the answer either ends the wait or is followed by a pause.
-/

namespace StagedTransfer.Activity

open Wire

/-- What a round of a wait leads to. -/
inductive Next
  | ends (r : Except Stop SchedulerJob)
  /-- The job may be not found `left` more times, and `delay` is the pause after that. -/
  | goesOn (left : Nat) (delay : Span)

/-- What comes after a pause, if nothing ends it. -/
def Next.after (pause : Except Stop Unit) (next : Next) : Next :=
  match pause with
  | .ok _    => next
  | .error s => .ends (.error s)

/-- What comes after the job has been not found and may be so again. -/
def Next.missing (w : WaitPlan) (left : Nat) (delay : Span) : Next :=
  match w.nextDelay? delay with
  | none   => .ends (.error (.overrun .pause))
  | some d => .goesOn (left - 1) d

/-- The notes of a question for a job that has been answered. -/
def askedJob (jobId : Int64) (answer : Except TransferError SchedulerJob) : Log :=
  [.asked false, .awaited (.call (.job jobId)) (.answered answer)]

/-- A round of a wait and what it leads to. -/
inductive Round (w : WaitPlan) (jobId : Int64) (left : Nat) (delay : Span) : Log → Next → Prop
  | untokened {token : Log} {s : Stop} (h : ensureToken.Course token (.error s)) :
    Round w jobId left delay token (.ends (.error s))
  | unanswered {token question : Log} {s : Stop} (h : ensureToken.Course token (.ok ()))
    (unasked : (s = .failed .cancelled ∧ question = [.asked true]) ∨
      ∃ o, s = .overrun o ∧ question = [.asked false, .awaited (.call (.job jobId)) (.overrun o)]) :
    Round w jobId left delay (token ++ question) (.ends (.error s))
  | refused {token : Log} {e : TransferError} (h : ensureToken.Course token (.ok ()))
    (found : ∀ what, e ≠ .notFound what) :
    Round w jobId left delay (token ++ askedJob jobId (.error e)) (.ends (.error (.failed e)))
  | malformed {token : Log} {job : SchedulerJob} (h : ensureToken.Course token (.ok ()))
    (state : job.jobState? = none) :
    Round w jobId left delay (token ++ askedJob jobId (.ok job))
      (.ends (.error (.failed (.malformedJobStatus jobId))))
  | ended {token : Log} {job : SchedulerJob} {state : JobState}
    (h : ensureToken.Course token (.ok ())) (hs : job.jobState? = some state)
    (terminal : state.isTerminal = true) :
    Round w jobId left delay
      (token ++ askedJob jobId (.ok job) ++
        [.acted (.emit (.jobPolled jobId (some state.name))) ()])
      (.ends ((concluded jobId state job).mapError .failed))
  | pending {token last : Log} {job : SchedulerJob} {state : JobState} {x : Except Stop Unit}
    (h : ensureToken.Course token (.ok ())) (hs : job.jobState? = some state)
    (terminal : state.isTerminal = false) (pause : Waits (.pause w.interval) last x) :
    Round w jobId left delay
      (token ++ askedJob jobId (.ok job) ++
        .acted (.emit (.jobPolled jobId (some state.name))) () :: last)
      (.after x (.goesOn left w.interval))
  | exhausted {token : Log} {what : String} (h : ensureToken.Course token (.ok ()))
    (last : left ≤ 1) :
    Round w jobId left delay
      (token ++ askedJob jobId (.error (.notFound what)) ++
        [.acted (.emit (.jobPolled jobId none)) ()])
      (.ends (.error (.failed (.notFoundExhausted jobId w.attempts))))
  | missing {token last : Log} {what : String} {x : Except Stop Unit}
    (h : ensureToken.Course token (.ok ())) (more : ¬left ≤ 1)
    (pause : Waits (.pause delay) last x) :
    Round w jobId left delay
      (token ++ askedJob jobId (.error (.notFound what)) ++
        .acted (.emit (.jobPolled jobId none)) () :: last)
      (.after x (.missing w left delay))

variable {w : WaitPlan} {jobId : Int64} {rounds left : Nat} {delay : Span} {log : Log}
  {r : Except Stop SchedulerJob}

lemma ensureToken_cases {log : Log} {r : Except Stop Unit} (h : ensureToken.Course log r) :
    (∃ s, Waits .tokenExpired log (.error s) ∧ r = .error s) ∨
      (Waits .tokenExpired log (.ok false) ∧ r = .ok ()) ∨
      ∃ first rest, Waits .tokenExpired first (.ok true) ∧ Waits .refresh rest r ∧
        log = first ++ rest := by
  rcases Course.of_bind h with ⟨first, rest, expired, hfirst, hrest, rfl⟩ | ⟨s, hfirst, rfl⟩
  · have waits : Waits .tokenExpired first (.ok expired) := Course.of_awaiting hfirst
    cases expired with
    | false =>
      obtain ⟨rfl, rfl⟩ := Course.of_pure hrest
      rw [List.append_nil]
      exact .inr (.inl ⟨waits, rfl⟩)
    | true => exact .inr (.inr ⟨first, rest, waits, Course.of_awaiting hrest, rfl⟩)
  · exact .inl ⟨s, Course.of_awaiting hfirst, rfl⟩

/-- What can come of a question for a job whose error does not end the wait by itself. -/
lemma attempted_cases {question : Log} {x : Except Stop (Except TransferError SchedulerJob)}
    (h : (call (.job jobId)).attempt.Course question x) :
    (∃ answer, x = .ok answer ∧ question = askedJob jobId answer) ∨
      (x = .ok (.error .cancelled) ∧ question = [.asked true]) ∨
      ∃ o, x = .error (.overrun o) ∧
        question = [.asked false, .awaited (.call (.job jobId)) (.overrun o)] := by
  obtain ⟨y, hy, rfl⟩ := Course.of_attempt h
  cases y with
  | ok job => exact .inl ⟨.ok job, rfl, (Course.of_call hy).of_ok⟩
  | error s =>
    rcases (Course.of_call hy).of_error with ⟨rfl, rfl⟩ | ⟨e, rfl, rfl⟩ | ⟨o, rfl, rfl⟩
    · exact .inr (.inl ⟨rfl, rfl⟩)
    · exact .inl ⟨.error e, rfl, rfl⟩
    · exact .inr (.inr ⟨o, rfl, rfl⟩)

/-- A wait ends with a round, or goes on after it for some rounds with what is left. -/
def TakesRound (w : WaitPlan) (jobId : Int64) (rounds left : Nat) (delay : Span) (log : Log)
    (r : Except Stop SchedulerJob) : Prop :=
  Round w jobId left delay log (.ends r) ∨
    ∃ first rest left' delay', Round w jobId left delay first (.goesOn left' delay') ∧
      (waitFrom w jobId rounds left' delay').Course rest r ∧ log = first ++ rest

/-- The end of a round in which the state of the job has been told. -/
lemma TakesRound.of_state {token last : Log} {job : SchedulerJob} {state : JobState}
    (htoken : ensureToken.Course token (.ok ())) (hs : job.jobState? = some state)
    (h : (if state.isTerminal then ofExcept (concluded jobId state job)
      else do
        awaiting (.pause w.interval)
        waitFrom w jobId rounds left w.interval).Course last r) :
    TakesRound w jobId rounds left delay (token ++ askedJob jobId (.ok job) ++
      .acted (.emit (.jobPolled jobId (some state.name))) () :: last) r := by
  cases terminal : state.isTerminal with
  | true =>
    rw [if_pos terminal] at h
    obtain ⟨rfl, rfl⟩ := Course.of_ofExcept h
    exact .inl (.ended htoken hs terminal)
  | false =>
    rw [terminal, if_neg Bool.false_ne_true] at h
    rcases Course.of_bind h with ⟨pause, rest, y, hpause, hrest, rfl⟩ | ⟨s, hpause, rfl⟩
    · refine .inr ⟨_, rest, left, w.interval,
        .pending htoken hs terminal (Course.of_awaiting hpause), hrest, ?_⟩
      simp only [List.append_assoc, List.cons_append]
    · exact .inl (.pending htoken hs terminal (Course.of_awaiting hpause))

/-- The end of a round in which the job has been not found. -/
lemma TakesRound.of_missing {token last : Log} {what : String}
    (htoken : ensureToken.Course token (.ok ()))
    (h : (if left ≤ 1 then fail (.notFoundExhausted jobId w.attempts)
      else do
        awaiting (.pause delay)
        match w.nextDelay? delay with
        | none   => Activity.overrun .pause
        | some d => waitFrom w jobId rounds (left - 1) d).Course last r) :
    TakesRound w jobId rounds left delay (token ++ askedJob jobId (.error (.notFound what)) ++
      .acted (.emit (.jobPolled jobId none)) () :: last) r := by
  by_cases few : left ≤ 1
  · rw [if_pos few] at h
    obtain ⟨rfl, rfl⟩ := Course.of_fail h
    exact .inl (.exhausted htoken few)
  rw [if_neg few] at h
  rcases Course.of_bind h with ⟨pause, rest, y, hpause, hrest, rfl⟩ | ⟨s, hpause, rfl⟩
  swap
  · exact .inl (.missing htoken few (Course.of_awaiting hpause))
  have round : Round w jobId left delay (token ++ askedJob jobId (.error (.notFound what)) ++
      .acted (.emit (.jobPolled jobId none)) () :: pause) (.missing w left delay) :=
    .missing htoken few (Course.of_awaiting hpause)
  cases hd : w.nextDelay? delay with
  | none =>
    simp only [hd] at hrest
    obtain ⟨rfl, rfl⟩ := Course.of_overrun hrest
    rw [List.append_nil]
    rw [Next.missing, hd] at round
    exact .inl round
  | some d =>
    simp only [hd] at hrest
    rw [Next.missing, hd] at round
    refine .inr ⟨_, rest, _, _, round, hrest, ?_⟩
    simp only [List.append_assoc, List.cons_append]

/-- A wait takes a round and ends or goes on with what is left. -/
theorem TakesRound.of_course (h : (waitFrom w jobId (rounds + 1) left delay).Course log r) :
    TakesRound w jobId rounds left delay log r := by
  rw [waitFrom] at h
  rcases Course.of_bind h with ⟨token, asks, ⟨⟩, htoken, hasks, rfl⟩ | ⟨s, htoken, rfl⟩
  swap
  · exact .inl (.untokened htoken)
  -- The errors of the question are answers to the round. Only an overrun stops it here.
  rcases Course.of_bind hasks with ⟨question, told, x, hquestion, htold, rfl⟩ | ⟨s, hquestion, rfl⟩
  swap
  · rcases attempted_cases hquestion with ⟨_, hx, -⟩ | ⟨hx, -⟩ | ⟨o, hx, rfl⟩
    · cases hx
    · cases hx
    · obtain rfl := Except.error.inj hx
      exact .inl (.unanswered htoken (.inr ⟨o, rfl, rfl⟩))
  rcases attempted_cases hquestion with ⟨answer, hx, rfl⟩ | ⟨hx, rfl⟩ | ⟨o, hx, -⟩
  · obtain rfl := Except.ok.inj hx
    rw [← List.append_assoc]
    cases x with
    | ok job =>
      cases hs : job.jobState? with
      | none =>
        simp only [hs] at htold
        obtain ⟨rfl, rfl⟩ := Course.of_fail htold
        rw [List.append_nil]
        exact .inl (.malformed htoken hs)
      | some state =>
        simp only [hs] at htold
        obtain ⟨⟨⟩, last, rfl, hlast⟩ := Course.of_perform_bind htold
        exact .of_state htoken hs hlast
    | error e =>
      cases e with
      | notFound what =>
        obtain ⟨⟨⟩, last, rfl, hlast⟩ := Course.of_perform_bind htold
        exact .of_missing htoken hlast
      | _ =>
        obtain ⟨rfl, rfl⟩ := Course.of_fail htold
        rw [List.append_nil]
        exact .inl (.refused htoken (by simp))
  · obtain rfl := Except.ok.inj hx
    obtain ⟨rfl, rfl⟩ := Course.of_fail htold
    rw [List.append_nil]
    exact .inl (.unanswered htoken (.inl ⟨rfl, rfl⟩))
  · cases hx

/-! ### What a wait asks for -/

/-- A question of a wait. -/
inductive Asks (jobId : Int64) : Note → Prop
  | asked (cancelled : Bool) : Asks jobId (.asked cancelled)
  | tokenExpired (reply : Reply TransferError Bool) : Asks jobId (.awaited .tokenExpired reply)
  | refresh (reply : Reply TransferError Unit) : Asks jobId (.awaited .refresh reply)
  | job (reply : Reply TransferError SchedulerJob) :
    Asks jobId (.awaited (.call (.job jobId)) reply)
  | pause (d : Span) (reply : Reply TransferError Unit) : Asks jobId (.awaited (.pause d) reply)
  | emit (e : Event) : Asks jobId (.acted (.emit e) ())

lemma asks_of_waits {a : Await} {x : Except Stop a.Answer} (h : Waits a log x)
    (asks : ∀ reply, Asks jobId (.awaited a reply)) {note : Note} (hn : note ∈ log) :
    Asks jobId note := by
  rcases h.mem hn with ⟨cancelled, rfl⟩ | ⟨reply, rfl⟩
  · exact .asked cancelled
  · exact asks reply

lemma asks_of_ensureToken {x : Except Stop Unit} (h : ensureToken.Course log x) {note : Note}
    (hn : note ∈ log) : Asks jobId note := by
  rcases ensureToken_cases h with ⟨s, waits, -⟩ | ⟨waits, -⟩ | ⟨first, rest, waits, refresh, rfl⟩
  · exact asks_of_waits waits .tokenExpired hn
  · exact asks_of_waits waits .tokenExpired hn
  · rcases List.mem_append.1 hn with hn | hn
    · exact asks_of_waits waits .tokenExpired hn
    · exact asks_of_waits refresh .refresh hn

/-- Up to the answer for the job a round asks for the token and the job. -/
lemma asks_of_askedJob {token : Log} {answer : Except TransferError SchedulerJob}
    (h : ensureToken.Course token (.ok ())) {note : Note}
    (hn : note ∈ token ++ askedJob jobId answer) : Asks jobId note := by
  simp only [askedJob, List.mem_append, List.mem_cons, List.not_mem_nil, or_false] at hn
  rcases hn with hn | rfl | rfl
  · exact asks_of_ensureToken h hn
  · exact .asked false
  · exact .job (.answered answer)

/-- After the answer for the job a round tells of it and pauses. -/
lemma asks_of_pause {d : Span} {last : Log} {x : Except Stop Unit} (pause : Waits (.pause d) last x)
    {e : Event} {note : Note} (hn : note ∈ .acted (.emit e) () :: last) : Asks jobId note := by
  rcases List.mem_cons.1 hn with rfl | hn
  · exact .emit e
  · exact asks_of_waits pause (.pause d) hn

lemma Round.asks {next : Next} (h : Round w jobId left delay log next) {note : Note}
    (hn : note ∈ log) : Asks jobId note := by
  cases h with
  | untokened h => exact asks_of_ensureToken h hn
  | unanswered h unasked =>
    rcases List.mem_append.1 hn with hn | hn
    · exact asks_of_ensureToken h hn
    · rcases unasked with ⟨-, rfl⟩ | ⟨o, -, rfl⟩
      · obtain rfl := List.mem_singleton.1 hn
        exact .asked true
      · simp only [List.mem_cons, List.not_mem_nil, or_false] at hn
        rcases hn with rfl | rfl
        · exact .asked false
        · exact .job (.overrun o)
  | refused h _ => exact asks_of_askedJob h hn
  | malformed h _ => exact asks_of_askedJob h hn
  | ended h _ _ =>
    rcases List.mem_append.1 hn with hn | hn
    · exact asks_of_askedJob h hn
    · obtain rfl := List.mem_singleton.1 hn
      exact .emit _
  | pending h _ _ pause =>
    rcases List.mem_append.1 hn with hn | hn
    · exact asks_of_askedJob h hn
    · exact asks_of_pause pause hn
  | exhausted h _ =>
    rcases List.mem_append.1 hn with hn | hn
    · exact asks_of_askedJob h hn
    · obtain rfl := List.mem_singleton.1 hn
      exact .emit _
  | missing h _ pause =>
    rcases List.mem_append.1 hn with hn | hn
    · exact asks_of_askedJob h hn
    · exact asks_of_pause pause hn

/-- A wait asks for nothing but its job. -/
theorem waitFrom_asks (h : (waitFrom w jobId rounds left delay).Course log r) {note : Note}
    (hn : note ∈ log) : Asks jobId note := by
  induction rounds generalizing left delay log with
  | zero =>
    cases h
    simp at hn
  | succ rounds ih =>
    rcases TakesRound.of_course h with round | ⟨first, rest, left', delay', round, next, rfl⟩
    · exact round.asks hn
    · rcases List.mem_append.1 hn with hn | hn
      · exact round.asks hn
      · exact ih next hn

end StagedTransfer.Activity
