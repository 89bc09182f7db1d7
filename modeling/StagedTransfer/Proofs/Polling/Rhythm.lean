import Mathlib.Algebra.GroupWithZero.Nat
import Mathlib.Data.List.Chain
import Mathlib.Data.List.DropRight
import StagedTransfer.Proofs.Lockstep
import StagedTransfer.Proofs.Polling.Decision
import StagedTransfer.Proofs.Polling.Delays

/-!
# The rhythm of a wait

A wait asks and pauses in turn. How long a pause is depends on the answer before it and on how often
in a row the job has been not found. Where nothing but pauses takes time, a wait takes as long as
its pauses take together.
-/

namespace StagedTransfer

open Activity Wire

/-! ### Questions and pauses -/

/-- A question for a job or a pause. -/
inductive Beat
  | asked (reply : Reply TransferError SchedulerJob)
  | paused (d : Span)

namespace Beat

def answer? : Beat → Option JobAnswer
  | .asked (.answered x) => some x
  | _                    => none

def isPause : Beat → Bool
  | .asked _  => false
  | .paused _ => true

/-- How long a pause is; a question takes no time. -/
def nanos : Beat → Nat
  | .asked _  => 0
  | .paused d => d.nanos

end Beat

def Note.beat? : Note → Option Beat
  | .awaited (.call (.job _)) reply => some (.asked reply)
  | .awaited (.pause d) _           => some (.paused d)
  | _                               => none

/-- The questions for a job and the pauses, in order. -/
def Log.beats (log : Log) : List Beat :=
  log.filterMap Note.beat?

@[simp] lemma Log.beats_append (first rest : Log) :
    beats (first ++ rest) = beats first ++ beats rest :=
  List.filterMap_append

/-- No pause has been given up. -/
def Log.Uncut (log : Log) : Prop :=
  ∀ d x, .awaited (.pause d) x ∈ log → x = .answered (.ok ())

namespace Polling

variable {w : WaitPlan} {jobId : Int64} {rounds left : Nat} {delay d : Span}
  {seen : List JobAnswer} {beats before after : List Beat}

/-- The answers to some questions, in order. -/
def answersIn (beats : List Beat) : List JobAnswer :=
  beats.filterMap Beat.answer?

/-- How often in a row the job has been not found at last. -/
def misses (answers : List JobAnswer) : Nat :=
  (answers.rtakeWhile isMissing).length

/-- An answer that does not decide leads to a pause. -/
inductive Due (w : WaitPlan) (earlier : List JobAnswer) : JobAnswer → Span → Prop
  | observed {job : SchedulerJob}
    (report : reportOf job = some "PENDING" ∨ reportOf job = some "RUNNING") :
    Due w earlier (.ok job) w.interval
  | missing {what : String} {d : Span} (more : Polling.missing earlier + 1 < w.attempts.toNat)
    (delay : w.delayAfter? (misses earlier) = some d) : Due w earlier (.error (.notFound what)) d

/-- How a wait goes on that has got some answers: it asks and pauses in turn, and it may leave off
at any time. -/
inductive Rhythm (w : WaitPlan) : (seen : List JobAnswer) → List Beat → Prop
  | silent (seen : List JobAnswer) : Rhythm w seen []
  | unanswered (seen : List JobAnswer) (o : Overrun) : Rhythm w seen [.asked (.overrun o)]
  | answered (seen : List JobAnswer) (answer : JobAnswer) :
    Rhythm w seen [.asked (.answered answer)]
  | paused {seen : List JobAnswer} {answer : JobAnswer} {d : Span} {beats : List Beat}
    (due : Due w seen answer d) (rest : Rhythm w (seen ++ [answer]) beats) :
    Rhythm w seen (.asked (.answered answer) :: .paused d :: beats)

/-! ### The beats of a round -/

/-- What is asked and paused for in a round, and what it leads to. -/
inductive Bar (w : WaitPlan) (left : Nat) (delay : Span) : List Beat → Next → Prop
  | silent (r : Except Stop SchedulerJob) : Bar w left delay [] (.ends r)
  | unanswered (o : Overrun) (r : Except Stop SchedulerJob) :
    Bar w left delay [.asked (.overrun o)] (.ends r)
  | answered (answer : JobAnswer) (r : Except Stop SchedulerJob) :
    Bar w left delay [.asked (.answered answer)] (.ends r)
  | observed {job : SchedulerJob} {state : JobState} (hs : job.jobState? = some state)
    (terminal : state.isTerminal = false) (x : Except Stop Unit) :
    Bar w left delay [.asked (.answered (.ok job)), .paused w.interval]
      (Next.after x (.goesOn left w.interval))
  | missing (what : String) (more : ¬left ≤ 1) (x : Except Stop Unit) :
    Bar w left delay [.asked (.answered (.error (.notFound what))), .paused delay]
      (Next.after x (.missing w left delay))

lemma beats_of_waits {a : Await} {log : Log} {r : Except Stop a.Answer} (h : Waits a log r)
    (ha : ∀ reply, (Note.awaited a reply).beat? = none) : Log.beats log = [] := by
  rw [Log.beats, List.filterMap_eq_nil_iff]
  intro note hn
  rcases h.mem hn with ⟨cancelled, rfl⟩ | ⟨reply, rfl⟩
  · rfl
  · exact ha reply

lemma beats_of_ensureToken {log : Log} {r : Except Stop Unit} (h : ensureToken.Course log r) :
    Log.beats log = [] := by
  rcases ensureToken_cases h with ⟨s, waits, -⟩ | ⟨waits, -⟩ | ⟨first, rest, waits, refresh, rfl⟩
  · exact beats_of_waits waits fun _ => rfl
  · exact beats_of_waits waits fun _ => rfl
  · rw [Log.beats_append, beats_of_waits waits fun _ => rfl, beats_of_waits refresh fun _ => rfl]
    rfl

/-- A pause is given up before it begins, or it is one. -/
lemma beats_of_pause {log : Log} {x : Except Stop (Await.pause d).Answer}
    (h : Waits (.pause d) log x) :
    (Log.beats log = [] ∧ ∃ s, x = .error s) ∨ Log.beats log = [.paused d] := by
  cases h with
  | giveUp => exact .inl ⟨rfl, _, rfl⟩
  | ok x => exact .inr rfl
  | error e => exact .inr rfl
  | overrun o => exact .inr rfl

lemma bar_of_round {log : Log} {next : Next} (h : Round w jobId left delay log next) :
    Bar w left delay (Log.beats log) next := by
  cases h with
  | untokened h =>
    rw [beats_of_ensureToken h]
    exact .silent _
  | unanswered h unasked =>
    rw [Log.beats_append, beats_of_ensureToken h]
    rcases unasked with ⟨-, rfl⟩ | ⟨o, -, rfl⟩
    · exact .silent _
    · exact .unanswered o _
  | refused h found =>
    rw [Log.beats_append, beats_of_ensureToken h]
    exact .answered _ _
  | malformed h state =>
    rw [Log.beats_append, beats_of_ensureToken h]
    exact .answered _ _
  | ended h hs terminal =>
    rw [Log.beats_append, Log.beats_append, beats_of_ensureToken h]
    exact .answered _ _
  | exhausted h last =>
    rw [Log.beats_append, Log.beats_append, beats_of_ensureToken h]
    exact .answered _ _
  | @pending token last job state x h hs terminal pause =>
    rw [Log.beats_append, Log.beats_append, beats_of_ensureToken h]
    change Bar w left delay (.asked (.answered (.ok job)) :: Log.beats last) _
    rcases beats_of_pause pause with ⟨none', s, rfl⟩ | one
    · rw [none']
      exact .answered _ _
    · rw [one]
      exact .observed hs terminal x
  | @missing token last what x h more pause =>
    rw [Log.beats_append, Log.beats_append, beats_of_ensureToken h]
    change Bar w left delay (.asked (.answered (.error (.notFound what))) :: Log.beats last) _
    rcases beats_of_pause pause with ⟨none', s, rfl⟩ | one
    · rw [none']
      exact .answered _ _
    · rw [one]
      exact .missing what more x

/-! ### The beats of a wait -/

lemma misses_concat (answers : List JobAnswer) (answer : JobAnswer) :
    misses (answers ++ [answer]) = if isMissing answer then misses answers + 1 else 0 := by
  split_ifs with miss
  · rw [misses, List.rtakeWhile_concat_pos _ _ _ miss, List.length_append]
    rfl
  · rw [misses, List.rtakeWhile_concat_neg _ _ _ miss]
    rfl

/-- How long the next pause is depends only on how often in a row the job has been not found. -/
lemma pauseAfter_eq (answers : List JobAnswer) :
    pauseAfter w answers = w.delayAfter? (misses answers) := by
  induction answers using List.reverseRecOn with
  | nil => rfl
  | append_singleton answers answer ih =>
    rw [pauseAfter_concat, misses_concat, ih]
    split <;> rfl

lemma report_of_pending {job : SchedulerJob} {state : JobState} (hs : job.jobState? = some state)
    (terminal : state.isTerminal = false) :
    reportOf job = some "PENDING" ∨ reportOf job = some "RUNNING" := by
  obtain ⟨s, report, -, rfl⟩ := jobState?_eq_some_iff.1 hs
  have waits : ¬(s ≠ "PENDING" ∧ s ≠ "RUNNING") := by
    rw [← isTerminal_parse_iff, terminal]
    exact Bool.false_ne_true
  rw [report, Option.some.injEq, Option.some.injEq]
  exact Decidable.or_iff_not_not_and_not.2 waits

/-- A job that may be not found once more is paused for. -/
lemma Waiting.due_missing (h : Waiting w jobId seen left delay) (more : ¬left ≤ 1)
    (what : String) : Due w seen (.error (.notFound what)) delay := by
  have left := h.left
  exact .missing (by omega) (pauseAfter_eq seen ▸ h.pause)

/-- A wait keeps its rhythm, wherever it ends. -/
theorem Waiting.rhythm {log : Log} {r : Except Stop SchedulerJob}
    (h : Waiting w jobId seen left delay)
    (course : (waitFrom w jobId rounds left delay).Course log r) :
    Rhythm w seen (Log.beats log) := by
  -- On the rounds. `Waiting` carries what the answers so far have left of attempts and pauses.
  induction rounds generalizing seen left delay log with
  | zero =>
    cases course
    exact .silent seen
  | succ rounds ih =>
    rcases TakesRound.of_course course with round | ⟨first, rest, left', delay', round, next, rfl⟩
    · have bar := bar_of_round round
      generalize Log.beats log = beats at bar
      generalize hn : Next.ends r = next at bar
      cases bar with
      | silent => exact .silent seen
      | unanswered o => exact .unanswered seen o
      | answered answer => exact .answered seen answer
      | observed hs terminal x =>
        exact .paused (.observed (report_of_pending hs terminal)) (.silent _)
      | missing what more x => exact .paused (h.due_missing more what) (.silent _)
    · have bar := bar_of_round round
      rw [Log.beats_append]
      generalize Log.beats first = beats at bar
      generalize hn : Next.goesOn left' delay' = next' at bar
      cases bar with
      | @observed job state hs terminal x =>
        cases x with
        | error s => cases hn
        | ok =>
          have goesOn : Waiting w jobId (seen ++ [.ok job]) left' delay' :=
            h.goesOn (hn ▸ Responds.pending hs terminal)
          exact .paused (.observed (report_of_pending hs terminal)) (ih goesOn next)
      | missing what more x =>
        cases x with
        | error s => cases hn
        | ok =>
          have goesOn : Waiting w jobId (seen ++ [.error (.notFound what)]) left' delay' :=
            h.goesOn (hn ▸ Responds.missing more)
          exact .paused (h.due_missing more what) (ih goesOn next)
      | _ => cases hn

/-! ### What a rhythm tells -/

namespace Rhythm

lemma opens (h : Rhythm w seen beats) (d : Span) (rest : List Beat) :
    beats ≠ .paused d :: rest := by
  cases h <;> simp

/-- Questions and pauses take turns. -/
lemma turns (h : Rhythm w seen beats) {b b' : Beat} (split : beats = before ++ b :: b' :: after) :
    b.isPause ≠ b'.isPause := by
  have chain : beats.IsChain fun b b' => b.isPause ≠ b'.isPause := ?_
  exact List.isChain_iff_forall_rel_of_append_cons_cons.1 chain split
  clear split
  induction h with
  | silent => exact .nil
  | unanswered => exact .singleton _
  | answered => exact .singleton _
  | @paused seen answer d beats due rest ih =>
    refine .cons_cons (by simp [Beat.isPause]) ?_
    cases beats with
    | nil => exact .singleton _
    | cons b beats =>
      refine .cons_cons ?_ ih
      cases b with
      | asked => simp [Beat.isPause]
      | paused d' => exact absurd rfl (rest.opens d' beats)

lemma answersIn_cons (answer : JobAnswer) (d : Span) (beats : List Beat) :
    answersIn (.asked (.answered answer) :: .paused d :: beats) = answer :: answersIn beats :=
  rfl

/-- A pause is that which is due to the answer before it. -/
lemma due (h : Rhythm w seen beats) (split : beats = before ++ .paused d :: after) :
    ∃ earlier answer, before = earlier ++ [.asked (.answered answer)] ∧
      Due w (seen ++ answersIn earlier) answer d := by
  induction h generalizing before with
  | silent => simp at split
  | unanswered seen o => simp [List.cons_eq_append_iff] at split
  | answered seen answer => simp [List.cons_eq_append_iff] at split
  | @paused seen answer d' beats due rest ih =>
    match before with
    | [] => cases split
    | [b] =>
      cases split
      exact ⟨[], answer, rfl, by rwa [answersIn, List.filterMap_nil, List.append_nil]⟩
    | b :: b' :: before =>
      simp only [List.cons_append, List.cons.injEq] at split
      obtain ⟨rfl, rfl, later⟩ := split
      obtain ⟨earlier, last, rfl, due⟩ := ih later
      refine ⟨_ :: _ :: earlier, last, rfl, ?_⟩
      rwa [answersIn_cons, List.append_cons]

end Rhythm

/-- An answer that leads to a pause does not decide. -/
lemma Due.not_decides {answer : JobAnswer} (h : Due w seen answer d)
    (r : Except TransferError SchedulerJob) : ¬Decides w jobId seen answer r := by
  intro decides
  cases h with
  | observed report =>
    cases decides with
    | completed report' => simp [report'] at report
    | ended _ report' _ pending running => simp [report', pending, running] at report
    | blank report' => rcases report with report | report <;> simp [report] at report'
  | missing more =>
    cases decides with
    | refused found => exact found _ rfl
    | missing last => omega

lemma Due.eq_delayAfter? {answer : JobAnswer} (h : Due w seen answer d) :
    ∃ k, w.delayAfter? k = some d := by
  cases h with
  | observed => exact ⟨0, rfl⟩
  | missing _ delay => exact ⟨_, delay⟩

end Polling

/-! ### Time -/

/-- Nothing but pauses takes time, and a pause takes as long as it is unless it is given up. The
clock counts nanoseconds. -/
structure Environment.Punctual {σ : Type} (env : Environment (StateM σ)) (clock : σ → Nat) :
    Prop where
  cancelled : ∀ s, clock (env.cancelled s).2 = clock s
  await     : ∀ a s, (∀ d, a ≠ .pause d) → clock (env.await a s).2 = clock s
  pause     : ∀ d s, (env.await (.pause d) s).1 = .answered (.ok ()) →
    clock (env.await (.pause d) s).2 = clock s + d.nanos
  act       : ∀ a s, clock (env.act a s).2 = clock s
  choose    : ∀ state s, clock (env.choose state s).2 = clock s

/-- How long something waited for takes where nothing but pauses takes time. -/
def Await.nanos : Await → Nat
  | .pause d => d.nanos
  | _        => 0

/-- The same environment with a clock that pauses move on. -/
def Environment.clocked {σ : Type} (env : Environment (StateM σ)) :
    Environment (StateM (σ × Nat)) where
  cancelled p    := ((env.cancelled p.1).1, (env.cancelled p.1).2, p.2)
  await a p      := ((env.await a p.1).1, (env.await a p.1).2, p.2 + a.nanos)
  act a p        := ((env.act a p.1).1, (env.act a p.1).2, p.2)
  choose state p := ((env.choose state p.1).1, (env.choose state p.1).2, p.2)

lemma Environment.punctual_clocked {σ : Type} (env : Environment (StateM σ)) :
    env.clocked.Punctual Prod.snd where
  cancelled _ := rfl
  await a p other := by
    cases a with
    | pause d => exact absurd rfl (other d)
    | _ => rfl
  pause _ _ _ := rfl
  act _ _ := rfl
  choose _ _ := rfl

/-- How long the pauses take together, in nanoseconds. -/
def Log.pausing (log : Log) : Nat :=
  ((Log.beats log).map Beat.nanos).sum

lemma Log.pausing_append (first rest : Log) :
    pausing (first ++ rest) = pausing first + pausing rest := by
  simp [pausing]

lemma Log.Patient.uncut {log : Log} (h : log.Patient) : log.Uncut := by
  intro d x hn
  obtain ⟨passed, hx⟩ := h _ hn
  exact hx

lemma Log.Uncut.append {first rest : Log} (h : Uncut (first ++ rest)) : Uncut first ∧ Uncut rest :=
  ⟨fun d x hn => h d x (List.mem_append_left _ hn),
    fun d x hn => h d x (List.mem_append_right _ hn)⟩

namespace Environment.Punctual

variable {σ : Type} {env : Environment (StateM σ)} {clock : σ → Nat}

/-- What a log has got more, the clock has moved on by its pauses. -/
def Elapses (clock : σ → Nat) (p q : σ × Log) : Prop :=
  ∃ new, q.2 = p.2 ++ new ∧ (Log.Uncut new → clock q.1 = clock p.1 + Log.pausing new)

lemma Elapses.refl (p : σ × Log) : Elapses clock p p :=
  ⟨[], (List.append_nil _).symm, fun _ => rfl⟩

lemma Elapses.trans {p q r : σ × Log} (first : Elapses clock p q) (later : Elapses clock q r) :
    Elapses clock p r := by
  obtain ⟨new, log, time⟩ := first
  obtain ⟨new', log', time'⟩ := later
  refine ⟨new ++ new', by rw [log', log, List.append_assoc], fun uncut => ?_⟩
  rw [time' uncut.append.2, time uncut.append.1, Log.pausing_append, Nat.add_assoc]

lemma recorded (h : env.Punctual clock) :
    env.recorded.Alike (.along (Elapses clock) .refl .trans) env.recorded where
  cancelled p := ⟨_, rfl, fun _ => h.cancelled p.1⟩
  await a p := by
    refine ⟨_, rfl, fun uncut => ?_⟩
    cases a with
    | pause d =>
      have time := h.pause d p.1 (uncut d _ List.mem_cons_self)
      exact time
    | call c =>
      have time := h.await (.call c) p.1 (by simp)
      cases c <;> exact time
    | tokenExpired => exact h.await .tokenExpired p.1 (by simp)
    | refresh => exact h.await .refresh p.1 (by simp)
  act a p := ⟨_, rfl, fun _ => h.act a p.1⟩
  choose s p := ⟨_, rfl, fun _ => h.choose s p.1⟩

/-- Whatever is done takes as long as its pauses. -/
theorem elapsed {α : Type} (h : env.Punctual clock) (a : Activity α) (s : σ)
    (uncut : (a.log env s).Uncut) :
    clock (a.run env s).2 = clock s + (a.log env s).pausing := by
  obtain ⟨new, log, time⟩ := h.recorded.run a (s, [])
  rw [a.run_recorded_start env s] at log time
  obtain rfl : a.log env s = new := log
  exact time uncut

end Environment.Punctual

/-! ### The rhythm of a wait -/

namespace Polling

/-- How a wait asks for its job and pauses. -/
structure Rhythmic (w : WaitPlan) (jobId : Int64) (beats : List Beat) : Prop where
  /-- There is no pause before the first question. -/
  opens : ∀ d rest, beats ≠ .paused d :: rest
  /-- Between two questions that follow each other there is one pause. -/
  between : ∀ before x pauses y after,
    beats = before ++ .asked x :: (pauses ++ .asked y :: after) →
      (∀ b ∈ pauses, b.isPause = true) → ∃ d, pauses = [.paused d]
  /-- A pause comes right after an answer. If that shows a job that is pending or runs, it is the
  usual pause; if it does not show the job, the pause grows with each time in a row. -/
  due : ∀ before d after, beats = before ++ .paused d :: after →
    ∃ earlier answer, before = earlier ++ [.asked (.answered answer)] ∧
      Due w (answersIn earlier) answer d
  /-- There is nothing after an answer that decides. -/
  closes : ∀ before answer after r, beats = before ++ .asked (.answered answer) :: after →
    Decides w jobId (answersIn before) answer r → after = []
  /-- Without growth every pause is the usual one. -/
  steady : w.backoff.le .one = true → ∀ d, .paused d ∈ beats → d = w.interval
  /-- No pause is above the bound. -/
  bounded : ∀ d, .paused d ∈ beats → d ≤ w.cap

variable {w : WaitPlan} {jobId : Int64} {beats : List Beat}

/-- Each pause is one of those that follow the usual one while the job is not found. -/
lemma Rhythm.eq_delayAfter? {seen : List JobAnswer} (h : Rhythm w seen beats) {d : Span}
    (mem : .paused d ∈ beats) : ∃ k, w.delayAfter? k = some d := by
  obtain ⟨before, after, split⟩ := List.append_of_mem mem
  obtain ⟨earlier, answer, -, due⟩ := h.due split
  exact due.eq_delayAfter?

lemma Rhythm.rhythmic (h : Rhythm w [] beats) : Rhythmic w jobId beats where
  opens := h.opens
  between before x pauses y after split all := by
    match pauses with
    | [] => exact (h.turns split rfl).elim
    | .asked x' :: pauses => cases all _ List.mem_cons_self
    | [.paused d] => exact ⟨d, rfl⟩
    | .paused d :: b :: pauses =>
      rw [List.append_cons] at split
      have pause : b.isPause = true := all b (List.mem_cons_of_mem _ List.mem_cons_self)
      exact (h.turns split pause.symm).elim
  due before d after split := h.due split
  closes before answer after r split decides := by
    match after with
    | [] => rfl
    | .asked x :: after => exact (h.turns split rfl).elim
    | .paused d :: after =>
      rw [List.append_cons] at split
      obtain ⟨earlier, answer', same, due⟩ := h.due split
      obtain ⟨rfl, last⟩ := List.append_inj' same rfl
      obtain rfl := Reply.answered.inj (Beat.asked.inj (List.head_eq_of_cons_eq last))
      exact absurd decides (due.not_decides r)
  steady hw d mem := by
    obtain ⟨k, hk⟩ := h.eq_delayAfter? mem
    rw [WaitPlan.delayAfter?_of_le hw] at hk
    exact (Option.some.inj hk).symm
  bounded d mem := by
    obtain ⟨k, hk⟩ := h.eq_delayAfter? mem
    exact WaitPlan.le_cap_of_delayAfter? hk

/-- A wait asks and pauses in turn, and it takes as long as its pauses take together. -/
theorem waitForJob_rhythmic (w : WaitPlan) (rounds : Nat) (jobId : Int64) {σ : Type}
    (env : Environment (StateM σ)) (s : σ) :
    Rhythmic w jobId ((waitForJob w rounds jobId).log env s).beats ∧
      ∀ clock, env.Punctual clock → ((waitForJob w rounds jobId).log env s).Uncut →
        clock ((waitForJob w rounds jobId).run env s).2 =
          clock s + ((waitForJob w rounds jobId).log env s).pausing := by
  have course := course_log env (waitForJob w rounds jobId) s
  refine ⟨((Waiting.start w jobId).rhythm course).rhythmic, ?_⟩
  intro clock punctual uncut
  exact punctual.elapsed _ s uncut

/-- The job is not found twice, then it runs, then it is not found once more. The pauses are of one,
two, one and one second. -/
theorem waitForJob_rhythmic_relapse :
    let w : WaitPlan := ⟨.ofMillis 1000, 10, .ofNat 2, .ofMillis 30000⟩
    let answers : List JobAnswer := [.error (.notFound "job 7"), .error (.notFound "job 7"),
      .ok (jobIn "RUNNING"), .error (.notFound "job 7"), .ok (jobIn "COMPLETED")]
    Rhythmic w 7 ((waitForJob w 9 7).log answering.clocked (answers, 0)).beats ∧
      ((waitForJob w 9 7).run answering.clocked (answers, 0)).2.2 = 5000000000 := by
  intro w answers
  obtain ⟨rhythmic, time⟩ := waitForJob_rhythmic w 9 7 answering.clocked (answers, 0)
  have patient : Log.Patient ((waitForJob w 9 7).log answering.clocked (answers, 0)) := by
    decide +kernel
  have pausing : Log.pausing ((waitForJob w 9 7).log answering.clocked (answers, 0)) =
      5000000000 := by decide +kernel
  refine ⟨rhythmic, ?_⟩
  have total := time Prod.snd answering.punctual_clocked patient.uncut
  rwa [pausing, Nat.zero_add] at total

end Polling

end StagedTransfer
