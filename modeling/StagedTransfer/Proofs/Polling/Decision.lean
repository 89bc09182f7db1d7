import Mathlib.Data.List.Induction
import StagedTransfer.Proofs.Polling.Round

/-!
# What ends a wait

A wait takes the answers for its job one after the other up to the first one that decides, and what
it ends with depends on that answer alone. The only other way in which it ends is a pause that has
become too long to be told as a span of time.
-/

namespace StagedTransfer

open Activity Wire

/-- An answer to the question how a job stands. -/
abbrev JobAnswer := Except TransferError SchedulerJob

def Note.jobAnswer? : Note → Option JobAnswer
  | .awaited (.call (.job _)) (.answered x) => some x
  | _                                       => none

/-- The answers to the questions how a job stands, in order. -/
def Log.jobAnswers (log : Log) : List JobAnswer :=
  log.filterMap Note.jobAnswer?

@[simp] lemma Log.jobAnswers_append (first rest : Log) :
    jobAnswers (first ++ rest) = jobAnswers first ++ jobAnswers rest :=
  List.filterMap_append

/-- An answer that does not disturb a wait: it is not cancelled, the access token can be renewed,
the pauses come to their end and the job is answered for. -/
def Note.Patient : Note → Prop
  | .asked cancelled             => cancelled = false
  | .awaited (.call (.job _)) x  => ∃ answer : JobAnswer, x = .answered answer
  | .awaited .tokenExpired x     => ∃ expired : Bool, x = .answered (.ok expired)
  | .awaited .refresh x          => ∃ renewed : Unit, x = .answered (.ok renewed)
  | .awaited (.pause _) x        => ∃ passed : Unit, x = .answered (.ok passed)
  | _                            => True

instance {ε α : Type} (x : Reply ε α) : Decidable (∃ r, x = .answered r) :=
  match x with
  | .answered r => .isTrue ⟨r, rfl⟩
  | .overrun _  => .isFalse (by simp)

instance {ε α : Type} (x : Reply ε α) : Decidable (∃ a, x = .answered (.ok a)) :=
  match x with
  | .answered (.ok a)    => .isTrue ⟨a, rfl⟩
  | .answered (.error _) => .isFalse (by simp)
  | .overrun _           => .isFalse (by simp)

instance (note : Note) : Decidable note.Patient := by
  cases note with
  | asked cancelled => exact inferInstanceAs (Decidable (cancelled = false))
  | awaited a x =>
    cases a with
    | call c =>
      cases c with
      | job => exact inferInstanceAs (Decidable (∃ answer, x = .answered answer))
      | _ => exact .isTrue trivial
    | _ => exact inferInstanceAs (Decidable (∃ answer, x = .answered (.ok answer)))
  | acted => exact .isTrue trivial
  | chosen => exact .isTrue trivial

/-- Nothing in a log disturbs a wait. -/
def Log.Patient (log : Log) : Prop :=
  ∀ note ∈ log, note.Patient

instance (log : Log) : Decidable log.Patient :=
  inferInstanceAs (Decidable (∀ note ∈ log, note.Patient))

lemma Log.Patient.append {first rest : Log} (h : Log.Patient (first ++ rest)) :
    Log.Patient first ∧ Log.Patient rest :=
  ⟨fun _ hn => h _ (List.mem_append_left _ hn), fun _ hn => h _ (List.mem_append_right _ hn)⟩

namespace Polling

/-! ### Answers that decide -/

/-- The state that is reported for a job, without the blank characters around it. -/
def reportOf (job : SchedulerJob) : Option String :=
  (job.status.bind (·.state)).map Text.trim

def isMissing : JobAnswer → Bool
  | .error (.notFound _) => true
  | _                    => false

/-- How often a job has been not found. -/
def missing (answers : List JobAnswer) : Nat :=
  answers.countP isMissing

/-- An answer ends a wait after some earlier ones, with a job or an error. -/
inductive Decides (w : WaitPlan) (jobId : Int64) (earlier : List JobAnswer) :
    JobAnswer → Except TransferError SchedulerJob → Prop
  | completed {job : SchedulerJob} (report : reportOf job = some "COMPLETED") :
    Decides w jobId earlier (.ok job) (.ok job)
  | ended {job : SchedulerJob} {status : JobStatus} {state : String} (hs : job.status = some status)
    (report : reportOf job = some state) (nonempty : state ≠ "") (pending : state ≠ "PENDING")
    (running : state ≠ "RUNNING") (completed : state ≠ "COMPLETED") :
    Decides w jobId earlier (.ok job)
      (.error (.transferFailed jobId state status.stateReason status.exitCode))
  | blank {job : SchedulerJob} (report : reportOf job = none ∨ reportOf job = some "") :
    Decides w jobId earlier (.ok job) (.error (.malformedJobStatus jobId))
  | refused {e : TransferError} (found : ∀ what, e ≠ .notFound what) :
    Decides w jobId earlier (.error e) (.error e)
  | missing {what : String} (last : Polling.missing earlier + 1 = max 1 w.attempts.toNat) :
    Decides w jobId earlier (.error (.notFound what))
      (.error (.notFoundExhausted jobId w.attempts))

/-- None of some answers has ended the wait. -/
def Undecided (w : WaitPlan) (jobId : Int64) (answers : List JobAnswer) : Prop :=
  ∀ earlier answer later, answers = earlier ++ answer :: later →
    ∀ r, ¬Decides w jobId earlier answer r

/-- The pause that is due after some answers if the job is not found once more, if it is a span. -/
def pauseAfter (w : WaitPlan) (answers : List JobAnswer) : Option Span :=
  answers.foldl (fun d a => if isMissing a then d.bind w.nextDelay? else some w.interval)
    (some w.interval)

/-- All pauses that have been due are spans. -/
def Paced (w : WaitPlan) (answers : List JobAnswer) : Prop :=
  ∀ seen, seen <+: answers → pauseAfter w seen ≠ none

/-- How a wait of at most `limit` questions ends that takes some answers. -/
inductive Verdict (w : WaitPlan) (jobId : Int64) (limit : Nat) :
    List JobAnswer → Except Stop SchedulerJob → Prop
  | decided {earlier : List JobAnswer} {answer : JobAnswer}
    {r : Except TransferError SchedulerJob} (undecided : Undecided w jobId earlier)
    (paced : Paced w earlier) (decides : Decides w jobId earlier answer r) :
    Verdict w jobId limit (earlier ++ [answer]) (r.mapError .failed)
  | unfinished {answers : List JobAnswer} (undecided : Undecided w jobId answers)
    (paced : Paced w answers) (all : answers.length = limit) :
    Verdict w jobId limit answers (.error .unfinished)
  | overrun {earlier : List JobAnswer} {answer : JobAnswer}
    (undecided : Undecided w jobId (earlier ++ [answer])) (paced : Paced w earlier)
    (none' : pauseAfter w (earlier ++ [answer]) = none) :
    Verdict w jobId limit (earlier ++ [answer]) (.error (.overrun .pause))

variable {w : WaitPlan} {jobId : Int64}

lemma undecided_nil : Undecided w jobId [] := by
  intro earlier answer later h
  simp at h

lemma Undecided.concat {answers : List JobAnswer} (h : Undecided w jobId answers)
    {answer : JobAnswer} (ha : ∀ r, ¬Decides w jobId answers answer r) :
    Undecided w jobId (answers ++ [answer]) := by
  intro earlier a later heq
  rcases List.eq_nil_or_concat later with rfl | ⟨later, last, rfl⟩
  · obtain ⟨rfl, hcons⟩ := List.append_inj' heq rfl
    obtain rfl := List.head_eq_of_cons_eq hcons
    exact ha
  · rw [List.concat_eq_append, ← List.cons_append, ← List.append_assoc] at heq
    exact h _ _ _ (List.append_inj' heq rfl).1

lemma paced_nil : Paced w [] := by
  intro seen hs
  obtain rfl := List.prefix_nil.1 hs
  simp [pauseAfter]

lemma Paced.concat {answers : List JobAnswer} (h : Paced w answers) {answer : JobAnswer}
    (ha : pauseAfter w (answers ++ [answer]) ≠ none) : Paced w (answers ++ [answer]) := by
  intro seen hs
  rcases List.prefix_concat_iff.1 hs with rfl | hs
  · exact ha
  · exact h seen hs

lemma pauseAfter_concat (answers : List JobAnswer) (answer : JobAnswer) :
    pauseAfter w (answers ++ [answer]) =
      if isMissing answer then (pauseAfter w answers).bind w.nextDelay? else some w.interval := by
  rw [pauseAfter, List.foldl_append]
  rfl

lemma missing_concat (answers : List JobAnswer) (answer : JobAnswer) :
    missing (answers ++ [answer]) = missing answers + if isMissing answer then 1 else 0 := by
  rw [missing, List.countP_append, List.countP_singleton]
  rfl

/-! ### Reported states -/

lemma jobState?_eq (job : SchedulerJob) : job.jobState? =
    (reportOf job).bind fun s => if s = "" then none else some (.parse s) := by
  rw [SchedulerJob.jobState?, reportOf]
  cases job.status with
  | none => rfl
  | some status =>
    rw [Option.bind_some, Option.bind_some, JobStatus.jobState?, JobState.ofReport?]
    cases status.state <;> rfl

lemma jobState?_eq_none_iff {job : SchedulerJob} :
    job.jobState? = none ↔ reportOf job = none ∨ reportOf job = some "" := by
  rw [jobState?_eq]
  cases reportOf job <;> simp

lemma jobState?_eq_some_iff {job : SchedulerJob} {state : JobState} :
    job.jobState? = some state ↔
      ∃ s, reportOf job = some s ∧ s ≠ "" ∧ JobState.parse s = state := by
  rw [jobState?_eq]
  cases reportOf job <;> simp

lemma isTerminal_parse_iff {s : String} :
    (JobState.parse s).isTerminal = true ↔ s ≠ "PENDING" ∧ s ≠ "RUNNING" := by
  unfold JobState.parse
  split
  · simp [JobState.isTerminal, *]
  · split
    · simp [JobState.isTerminal, *]
    · split <;> simp [JobState.isTerminal, *]

lemma parse_eq_completed_iff {s : String} : JobState.parse s = .completed ↔ s = "COMPLETED" := by
  unfold JobState.parse
  split
  · simp [*]
  · split
    · simp [*]
    · split <;> simp [*]

/-- A job that has left its queue and has ended decides. -/
lemma decides_concluded {earlier : List JobAnswer} {job : SchedulerJob} {state : JobState}
    (hs : job.jobState? = some state) (terminal : state.isTerminal = true) :
    Decides w jobId earlier (.ok job) (concluded jobId state job) := by
  obtain ⟨s, report, nonempty, rfl⟩ := jobState?_eq_some_iff.1 hs
  obtain ⟨pending, running⟩ := isTerminal_parse_iff.1 terminal
  obtain ⟨status, hstatus⟩ : ∃ status, job.status = some status := by
    cases hj : job.status with
    | none => simp [reportOf, hj] at report
    | some status => exact ⟨status, rfl⟩
  by_cases completed : s = "COMPLETED"
  · rw [concluded, if_pos (parse_eq_completed_iff.2 completed)]
    exact .completed (completed ▸ report)
  · rw [concluded, if_neg (mt parse_eq_completed_iff.1 completed), hstatus, Option.getD_some,
      JobState.name_parse]
    exact .ended hstatus report nonempty pending running completed

/-- A wait succeeds only with a job that has completed. -/
lemma of_concluded_eq_ok {job job' : SchedulerJob} {state : JobState}
    (hs : job'.jobState? = some state) (h : concluded jobId state job' = .ok job) :
    job' = job ∧ reportOf job = some "COMPLETED" := by
  by_cases completed : state = .completed
  · rw [concluded, if_pos completed] at h
    obtain rfl := Except.ok.inj h
    obtain ⟨s, report, -, rfl⟩ := jobState?_eq_some_iff.1 hs
    exact ⟨rfl, parse_eq_completed_iff.1 completed ▸ report⟩
  · rw [concluded, if_neg completed] at h
    cases h

/-- A job that is pending or running does not decide. -/
lemma not_decides_pending {earlier : List JobAnswer} {job : SchedulerJob} {state : JobState}
    (hs : job.jobState? = some state) (terminal : state.isTerminal = false)
    (r : Except TransferError SchedulerJob) : ¬Decides w jobId earlier (.ok job) r := by
  obtain ⟨s, report, nonempty, rfl⟩ := jobState?_eq_some_iff.1 hs
  have waits : ¬(s ≠ "PENDING" ∧ s ≠ "RUNNING") := by
    rw [← isTerminal_parse_iff, terminal]
    simp
  intro decides
  cases decides with
  | completed report' =>
    obtain rfl := Option.some.inj (report.symm.trans report')
    exact waits (by decide)
  | ended _ report' _ pending running _ =>
    obtain rfl := Option.some.inj (report.symm.trans report')
    exact waits ⟨pending, running⟩
  | blank report' => simp [report, nonempty] at report'

/-! ### Rounds that nothing disturbs -/

/-- What an answer for a job leads to. -/
inductive Responds (w : WaitPlan) (jobId : Int64) (left : Nat) (delay : Span) :
    JobAnswer → Next → Prop
  | refused {e : TransferError} (found : ∀ what, e ≠ .notFound what) :
    Responds w jobId left delay (.error e) (.ends (.error (.failed e)))
  | malformed {job : SchedulerJob} (state : job.jobState? = none) :
    Responds w jobId left delay (.ok job) (.ends (.error (.failed (.malformedJobStatus jobId))))
  | ended {job : SchedulerJob} {state : JobState} (hs : job.jobState? = some state)
    (terminal : state.isTerminal = true) :
    Responds w jobId left delay (.ok job) (.ends ((concluded jobId state job).mapError .failed))
  | pending {job : SchedulerJob} {state : JobState} (hs : job.jobState? = some state)
    (terminal : state.isTerminal = false) :
    Responds w jobId left delay (.ok job) (.goesOn left w.interval)
  | exhausted {what : String} (last : left ≤ 1) :
    Responds w jobId left delay (.error (.notFound what))
      (.ends (.error (.failed (.notFoundExhausted jobId w.attempts))))
  | missing {what : String} (more : ¬left ≤ 1) :
    Responds w jobId left delay (.error (.notFound what)) (.missing w left delay)

/-- What is not a call is not a question for a job. -/
lemma jobAnswers_of_waits {a : Await} {log : Log} {r : Except Stop a.Answer} (h : Waits a log r)
    (ha : ∀ c, a ≠ .call c) : Log.jobAnswers log = [] := by
  rw [Log.jobAnswers, List.filterMap_eq_nil_iff]
  intro note hn
  rcases h.mem hn with ⟨cancelled, rfl⟩ | ⟨reply, rfl⟩
  · rfl
  · cases a with
    | call c => exact absurd rfl (ha c)
    | _ => rfl

lemma jobAnswers_of_ensureToken {log : Log} {r : Except Stop Unit} (h : ensureToken.Course log r) :
    Log.jobAnswers log = [] := by
  rcases ensureToken_cases h with ⟨s, waits, -⟩ | ⟨waits, -⟩ | ⟨first, rest, waits, refresh, rfl⟩
  · exact jobAnswers_of_waits waits (by simp)
  · exact jobAnswers_of_waits waits (by simp)
  · rw [Log.jobAnswers_append, jobAnswers_of_waits waits (by simp),
      jobAnswers_of_waits refresh (by simp)]
    rfl

/-- What is waited for comes if nothing disturbs the wait. -/
lemma not_waits_error {a : Await} {log : Log} {s : Stop}
    (comes : ∀ reply, (Note.awaited a reply).Patient → ∃ x, reply = .answered (.ok x))
    (patient : Log.Patient log) : ¬Waits a log (.error s) := by
  intro waits
  rcases waits.of_error with ⟨rfl, -⟩ | ⟨e, rfl, -⟩ | ⟨o, rfl, -⟩
  · cases patient _ List.mem_cons_self
  · obtain ⟨x, hx⟩ := comes _ (patient _ (List.mem_cons_of_mem _ List.mem_cons_self))
    cases hx
  · obtain ⟨x, hx⟩ := comes _ (patient _ (List.mem_cons_of_mem _ List.mem_cons_self))
    cases hx

lemma pause_comes {d : Span} {log : Log} {x : Except Stop Unit} (h : Waits (.pause d) log x)
    (patient : Log.Patient log) : x = .ok () := by
  cases x with
  | ok => rfl
  | error s => exact absurd h (not_waits_error (fun reply hr => hr) patient)

lemma not_ensureToken_error {log : Log} {s : Stop} (patient : Log.Patient log) :
    ¬ensureToken.Course log (.error s) := by
  intro h
  rcases ensureToken_cases h with ⟨s, waits, -⟩ | ⟨-, hr⟩ | ⟨first, rest, -, refresh, rfl⟩
  · exact absurd waits (not_waits_error (fun reply hr => hr) patient)
  · cases hr
  · exact absurd refresh (not_waits_error (fun reply hr => hr) patient.append.2)

/-- A round that nothing disturbs asks once for the job and does as the answer asks for. -/
theorem responds_of_round {left : Nat} {delay : Span} {log : Log} {next : Next}
    (h : Round w jobId left delay log next) (patient : Log.Patient log) :
    ∃ answer, Log.jobAnswers log = [answer] ∧ Responds w jobId left delay answer next := by
  cases h with
  | untokened h => exact absurd h (not_ensureToken_error patient)
  | unanswered h unasked =>
    rcases unasked with ⟨-, rfl⟩ | ⟨o, -, rfl⟩
    · cases patient _ (List.mem_append_right _ List.mem_cons_self)
    · obtain ⟨answer, ha⟩ := patient (.awaited (.call (.job jobId)) (.overrun o)) (by simp)
      cases ha
  | @refused token e h found =>
    rw [Log.jobAnswers_append, jobAnswers_of_ensureToken h]
    exact ⟨.error e, rfl, .refused found⟩
  | @malformed token job h state =>
    rw [Log.jobAnswers_append, jobAnswers_of_ensureToken h]
    exact ⟨.ok job, rfl, .malformed state⟩
  | @ended token job state h hs terminal =>
    rw [Log.jobAnswers_append, Log.jobAnswers_append, jobAnswers_of_ensureToken h]
    exact ⟨.ok job, rfl, .ended hs terminal⟩
  | @pending token last job state x h hs terminal pause =>
    rw [List.append_cons] at patient
    obtain rfl := pause_comes pause patient.append.2
    rw [Log.jobAnswers_append, Log.jobAnswers_append, jobAnswers_of_ensureToken h]
    refine ⟨.ok job, ?_, .pending hs terminal⟩
    change [_] ++ Log.jobAnswers last = _
    rw [jobAnswers_of_waits pause (by simp)]
    rfl
  | @exhausted token what h few =>
    rw [Log.jobAnswers_append, Log.jobAnswers_append, jobAnswers_of_ensureToken h]
    exact ⟨.error (.notFound what), rfl, .exhausted few⟩
  | @missing token last what x h more pause =>
    rw [List.append_cons] at patient
    obtain rfl := pause_comes pause patient.append.2
    rw [Log.jobAnswers_append, Log.jobAnswers_append, jobAnswers_of_ensureToken h]
    refine ⟨.error (.notFound what), ?_, .missing more⟩
    change [_] ++ Log.jobAnswers last = _
    rw [jobAnswers_of_waits pause (by simp)]
    rfl

/-- A round that ends a wait with success has been answered by a job that has completed. -/
lemma of_round_ends_ok {left : Nat} {delay : Span} {log : Log} {job : SchedulerJob}
    (h : Round w jobId left delay log (.ends (.ok job))) :
    (Log.jobAnswers log).getLast? = some (.ok job) ∧ reportOf job = some "COMPLETED" := by
  generalize hn : Next.ends (.ok job) = next at h
  cases h with
  | @ended token job' state _ hs terminal =>
    have result := Next.ends.inj hn
    cases hc : concluded jobId state job' with
    | error e =>
      rw [hc] at result
      cases result
    | ok job'' =>
      rw [hc] at result
      obtain rfl := Except.ok.inj result
      obtain ⟨rfl, report⟩ := of_concluded_eq_ok hs hc
      refine ⟨?_, report⟩
      rw [Log.jobAnswers_append, Log.jobAnswers_append]
      change (Log.jobAnswers token ++ [(.ok job' : JobAnswer)] ++ []).getLast? = _
      rw [List.append_nil, List.getLast?_append]
      rfl
  | @pending _ _ _ _ x => cases x <;> cases hn
  | @missing _ _ _ x =>
    cases x with
    | error s => cases hn
    | ok =>
      rw [Next.after, Next.missing] at hn
      split at hn <;> cases hn
  | _ => cases hn

/-- A wait that succeeds has last been answered by a job that has completed. -/
theorem of_waitFrom_ok {rounds left : Nat} {delay : Span} {log : Log} {job : SchedulerJob}
    (h : (waitFrom w jobId rounds left delay).Course log (.ok job)) :
    (Log.jobAnswers log).getLast? = some (.ok job) ∧ reportOf job = some "COMPLETED" := by
  induction rounds generalizing left delay log with
  | zero => cases h
  | succ rounds ih =>
    rcases TakesRound.of_course h with round | ⟨first, rest, left', delay', round, next, rfl⟩
    · exact of_round_ends_ok round
    · obtain ⟨last, report⟩ := ih next
      refine ⟨?_, report⟩
      rw [Log.jobAnswers_append, List.getLast?_append, last]
      rfl

/-! ### The verdict of a wait -/

/-- A wait goes on after some answers. -/
structure Waiting (w : WaitPlan) (jobId : Int64) (seen : List JobAnswer) (left : Nat)
    (delay : Span) : Prop where
  undecided : Undecided w jobId seen
  paced     : Paced w seen
  pause     : pauseAfter w seen = some delay
  left      : left + missing seen = w.attempts.toNat
  few       : missing seen < max 1 w.attempts.toNat

namespace Waiting

variable {seen : List JobAnswer} {left : Nat} {delay : Span}

lemma start (w : WaitPlan) (jobId : Int64) :
    Waiting w jobId [] w.attempts.toNat w.interval :=
  ⟨undecided_nil, paced_nil, rfl, rfl, Nat.lt_of_lt_of_le Nat.one_pos (Nat.le_max_left _ _)⟩

/-- A job that may be not found once more does not decide. -/
lemma not_decides_missing (h : Waiting w jobId seen left delay) (more : ¬left ≤ 1) (what : String)
    (r : Except TransferError SchedulerJob) :
    ¬Decides w jobId seen (.error (.notFound what)) r := by
  intro decides
  have left := h.left
  cases decides with
  | refused found => exact found what rfl
  | missing last => omega

/-- An answer that ends a wait either decides or leads to a pause that is no span. -/
lemma verdict_of_ends (h : Waiting w jobId seen left delay) {answer : JobAnswer}
    {r : Except Stop SchedulerJob} (responds : Responds w jobId left delay answer (.ends r))
    (limit : Nat) : Verdict w jobId limit (seen ++ [answer]) r := by
  generalize hn : Next.ends r = next at responds
  cases responds with
  | refused found =>
    obtain rfl := Next.ends.inj hn
    exact .decided h.undecided h.paced (.refused found)
  | malformed state =>
    obtain rfl := Next.ends.inj hn
    exact .decided h.undecided h.paced (.blank (jobState?_eq_none_iff.1 state))
  | ended hs terminal =>
    obtain rfl := Next.ends.inj hn
    exact .decided h.undecided h.paced (decides_concluded hs terminal)
  | exhausted few =>
    obtain rfl := Next.ends.inj hn
    have left := h.left
    have few' := h.few
    exact .decided h.undecided h.paced (.missing (by omega))
  | missing more =>
    rw [Next.missing] at hn
    cases hd : w.nextDelay? delay with
    | some d => simp [hd] at hn
    | none =>
      simp only [hd] at hn
      obtain rfl := Next.ends.inj hn
      refine .overrun (h.undecided.concat (h.not_decides_missing more _)) h.paced ?_
      rw [pauseAfter_concat, h.pause]
      exact hd
  | pending => cases hn

/-- A wait that goes on after an answer has not been decided by it. -/
lemma goesOn (h : Waiting w jobId seen left delay) {answer : JobAnswer} {left' : Nat}
    {delay' : Span} (responds : Responds w jobId left delay answer (.goesOn left' delay')) :
    Waiting w jobId (seen ++ [answer]) left' delay' := by
  generalize hn : Next.goesOn left' delay' = next at responds
  have left := h.left
  have few := h.few
  cases responds with
  | @pending job state hs terminal =>
    obtain ⟨rfl, rfl⟩ := Next.goesOn.inj hn
    have pause : pauseAfter w (seen ++ [.ok job]) = some w.interval := pauseAfter_concat _ _
    have count : missing (seen ++ [.ok job]) = missing seen := missing_concat _ _
    exact ⟨h.undecided.concat (not_decides_pending hs terminal), h.paced.concat (by simp [pause]),
      pause, by rw [count]; exact left, by rw [count]; exact few⟩
  | @missing what more =>
    rw [Next.missing] at hn
    cases hd : w.nextDelay? delay with
    | none => simp [hd] at hn
    | some d =>
      simp only [hd] at hn
      obtain ⟨rfl, rfl⟩ := Next.goesOn.inj hn
      have pause : pauseAfter w (seen ++ [.error (.notFound what)]) = some delay' := by
        rw [pauseAfter_concat, h.pause]
        exact hd
      have count : missing (seen ++ [.error (.notFound what)]) = missing seen + 1 :=
        missing_concat _ _
      exact ⟨h.undecided.concat (h.not_decides_missing more what), h.paced.concat (by simp [pause]),
        pause, by rw [count]; omega, by rw [count]; omega⟩
  | _ => cases hn

theorem verdict {rounds : Nat} {log : Log} {r : Except Stop SchedulerJob}
    (h : Waiting w jobId seen left delay)
    (course : (waitFrom w jobId rounds left delay).Course log r) (patient : Log.Patient log) :
    Verdict w jobId (seen.length + rounds) (seen ++ Log.jobAnswers log) r := by
  induction rounds generalizing seen left delay log with
  | zero =>
    cases course
    exact .unfinished (by simpa [Log.jobAnswers] using h.undecided)
      (by simpa [Log.jobAnswers] using h.paced) (by simp [Log.jobAnswers])
  | succ rounds ih =>
    rcases TakesRound.of_course course with
      round | ⟨first, rest, left', delay', round, next, rfl⟩
    · obtain ⟨answer, ha, responds⟩ := responds_of_round round patient
      rw [ha]
      exact h.verdict_of_ends responds _
    · obtain ⟨answer, ha, responds⟩ := responds_of_round round patient.append.1
      have verdict := ih (h.goesOn responds) next patient.append.2
      rw [Log.jobAnswers_append, ha, ← List.append_assoc]
      rw [List.length_append, List.length_singleton, Nat.add_assoc, Nat.add_comm 1] at verdict
      exact verdict

end Waiting

/-- Without growth every pause is the usual one. -/
theorem pauseAfter_of_le (h : w.backoff.le .one = true) (answers : List JobAnswer) :
    pauseAfter w answers = some w.interval := by
  induction answers using List.reverseRecOn with
  | nil => rfl
  | append_singleton answers answer ih =>
    rw [pauseAfter_concat, ih, Option.bind_some, WaitPlan.nextDelay?, if_pos h]
    split <;> rfl

/-- A wait takes the answers for its job up to the first one that decides, ends as that one says and
asks for nothing more. It ends before that only if a pause is no span of time. -/
theorem waitForJob_verdict (w : WaitPlan) (rounds : Nat) (jobId : Int64) {σ : Type}
    (env : Environment (StateM σ)) (s : σ)
    (patient : ((waitForJob w rounds jobId).log env s).Patient) :
    Verdict w jobId rounds ((waitForJob w rounds jobId).log env s).jobAnswers
        ((waitForJob w rounds jobId).run env s).1 ∧
      ∀ call reply, .awaited (.call call) reply ∈ (waitForJob w rounds jobId).log env s →
        call = .job jobId := by
  have course := course_log env (waitForJob w rounds jobId) s
  constructor
  · have verdict := (Waiting.start w jobId).verdict course patient
    rwa [List.length_nil, Nat.zero_add, List.nil_append] at verdict
  · intro call reply hn
    cases waitFrom_asks course hn
    rfl

/-! ### A job that appears late -/

/-- The other sides of a wait that is not cancelled, with the answers for its job in order. -/
def answering : Environment (StateM (List JobAnswer)) where
  cancelled := pure false
  await
    | .call (.job _) => fun answers =>
      (.answered (answers.head?.getD (.error .cancelled)), answers.tail)
    | .tokenExpired  => pure (.answered (.ok true))
    | .refresh       => pure (.answered (.ok ()))
    | .pause _       => pure (.answered (.ok ()))
    | .call _        => pure (.overrun .slots)
  act
    | .size _    => pure (.error .earlyEnd)
    | .content _ => pure (.error .earlyEnd)
    | .emit _    => pure ()
    | .enter _   => pure ()
  choose _  := pure .proceed

def jobIn (state : String) : SchedulerJob :=
  { SchedulerJob.bare 7 with status := some ⟨some state, none, none, none⟩ }

/-- The job is not found, then it runs, and then it has completed; nothing is asked after that. -/
theorem waitForJob_verdict_late :
    Verdict ⟨.ofMillis 1000, 2, .one, .ofMillis 30000⟩ 7 5
      ((waitForJob ⟨.ofMillis 1000, 2, .one, .ofMillis 30000⟩ 5 7).log answering
        [.error (.notFound "job 7"), .ok (jobIn " RUNNING "), .ok (jobIn "COMPLETED\n"),
          .ok (jobIn "FAILED")]).jobAnswers
      ((waitForJob ⟨.ofMillis 1000, 2, .one, .ofMillis 30000⟩ 5 7).run answering
        [.error (.notFound "job 7"), .ok (jobIn " RUNNING "), .ok (jobIn "COMPLETED\n"),
          .ok (jobIn "FAILED")]).1 ∧
      ((waitForJob ⟨.ofMillis 1000, 2, .one, .ofMillis 30000⟩ 5 7).log answering
        [.error (.notFound "job 7"), .ok (jobIn " RUNNING "), .ok (jobIn "COMPLETED\n"),
          .ok (jobIn "FAILED")]).jobAnswers.length = 3 :=
  ⟨(waitForJob_verdict _ _ _ answering _ (by decide +kernel)).1, by decide +kernel⟩

end Polling

end StagedTransfer
