import StagedTransfer.Proofs.Polling.Decision
import StagedTransfer.Proofs.Upload.Stages

/-!
# The stages of a download

All courses that a download through the store can take: it is planned, its job is waited for, and the
object is fetched; each stage can fail, and only the error of the last one names the file.
-/

namespace StagedTransfer

open Activity Wire

/-! ### How a wait for a job fails -/

/-- A wait for a job fails with an answer in its log or with a verdict of its own. -/
inductive Activity.FailsWith (jobId : Int64) (log : Log) : TransferError → Prop
  | cancelled : FailsWith jobId log .cancelled
  | answered {w : Await} {e : TransferError} (h : .awaited w (.answered (.error e)) ∈ log) :
    FailsWith jobId log e
  | malformed : FailsWith jobId log (.malformedJobStatus jobId)
  | ended (state : String) (reason : Option String) (exitCode : Option Int32) :
    FailsWith jobId log (.transferFailed jobId state reason exitCode)
  | missing (attempts : UInt32) : FailsWith jobId log (.notFoundExhausted jobId attempts)

namespace Activity

variable {w : WaitPlan} {jobId : Int64} {rounds left : Nat} {delay : Span} {log log' : Log}
  {e : TransferError}

lemma FailsWith.mono (h : FailsWith jobId log e) (sub : log ⊆ log') : FailsWith jobId log' e := by
  cases h with
  | cancelled => exact .cancelled
  | answered mem => exact .answered (sub mem)
  | malformed => exact .malformed
  | ended => exact .ended _ _ _
  | missing => exact .missing _

lemma FailsWith.of_waits {a : Await} (h : Waits a log (.error (.failed e))) :
    FailsWith jobId log e := by
  cases h with
  | giveUp => exact .cancelled
  | error => exact .answered (w := a) (by simp)

lemma FailsWith.of_ensureToken (h : ensureToken.Course log (.error (.failed e))) :
    FailsWith jobId log e := by
  rcases ensureToken_cases h with ⟨_, waits, ⟨rfl⟩⟩ | ⟨-, ⟨⟩⟩ | ⟨_, _, -, waits, rfl⟩
  · exact .of_waits waits
  · exact (FailsWith.of_waits waits).mono (by simp)

/-- The end of a pause is that of its round. -/
lemma FailsWith.of_pause {d : Span} {pause : Log} {x : Except Stop Unit} {next : Next}
    (waits : Waits (.pause d) pause x) (sub : pause ⊆ log)
    (failed : Next.after x next = .ends (.error (.failed e)))
    (goesOn : next ≠ .ends (.error (.failed e))) : FailsWith jobId log e := by
  cases x with
  | ok _ => exact absurd failed goesOn
  | error s =>
    obtain rfl : s = .failed e := by simpa [Next.after] using failed
    exact (FailsWith.of_waits waits).mono sub

lemma Round.fails (round : Round w jobId left delay log (.ends (.error (.failed e)))) :
    FailsWith jobId log e := by
  generalize ended : Next.ends (.error (.failed e)) = next at round
  cases round with
  | untokened h =>
    cases ended
    exact .of_ensureToken h
  | unanswered h unasked =>
    cases ended
    rcases unasked with ⟨⟨rfl⟩, -⟩ | ⟨o, ⟨⟩, -⟩
    exact .cancelled
  | refused h found =>
    cases ended
    refine .answered (w := .call (.job jobId)) (List.mem_append_right _ ?_)
    exact List.mem_cons_of_mem _ (List.mem_singleton_self _)
  | malformed h state =>
    cases ended
    exact .malformed
  | @ended _ job state h hs terminal =>
    rw [concluded] at ended
    split at ended
    · cases ended
    · cases ended
      exact .ended _ _ _
  | pending h hs terminal pause =>
    refine .of_pause pause (fun note mem => ?_) ended.symm (by simp)
    exact List.mem_append_right _ (List.mem_cons_of_mem _ mem)
  | exhausted h last =>
    cases ended
    exact .missing _
  | missing h more pause =>
    refine .of_pause pause (fun note mem => ?_) ended.symm ?_
    · exact List.mem_append_right _ (List.mem_cons_of_mem _ mem)
    · rw [Next.missing]
      split <;> simp

/-- How a wait for a job fails. -/
theorem waitFrom_fails (h : (waitFrom w jobId rounds left delay).Course log (.error (.failed e))) :
    FailsWith jobId log e := by
  induction rounds generalizing left delay log with
  | zero => cases h
  | succ rounds ih =>
    rcases TakesRound.of_course h with round | ⟨first, rest, left', delay', -, next, rfl⟩
    · exact round.fails
    · exact (ih next).mono (by simp)

/-- A wait that succeeds has been told of a job that has completed. -/
lemma waitFrom_completed {job : SchedulerJob}
    (h : (waitFrom w jobId rounds left delay).Course log (.ok job)) :
    Polling.reportOf job = some "COMPLETED" ∧
      .awaited (.call (.job jobId)) (.answered (.ok job)) ∈ log := by
  obtain ⟨last, report⟩ := Polling.of_waitFrom_ok h
  refine ⟨report, ?_⟩
  obtain ⟨note, mem, answer⟩ := List.mem_filterMap.1 (List.mem_of_getLast? last)
  cases waitFrom_asks h mem with
  | job reply =>
    cases reply with
    | answered x =>
      obtain rfl : x = .ok job := Option.some.inj answer
      exact mem
    | overrun o => cases answer
  | _ => cases answer

end Activity

/-! ### A download -/

namespace Profile

variable (p : Profile)

/-- What the gateway is asked for before a download. -/
def downloadRequest (remote : String) : DownloadPlanRequest :=
  ⟨remote, p.account⟩

/-- What is told of a download that has been planned. -/
def planned (remote : String) (plan : DownloadPlan) : Log :=
  [.asked false, .awaited (.call (.downloadPlan (p.downloadRequest remote))) (.ok plan),
    .acted (.emit (.planReceived plan.transferJob.jobId 0)) (), .acted (.enter .jobPolling) ()]

/-- What a download comes to with what has come of the fetch. -/
def delivered (file : String) : Except Stop Nat → Except Stop Nat
  | .error (.failed e) => .error (.failed (fetchError file e))
  | r                  => r

/-- A course of a download. -/
inductive Downloads (remote file : String) : Log → Except Stop Nat → Prop
  | unplanned {asked : Log} {s : Stop}
    (waits : Waits (.call (.downloadPlan (p.downloadRequest remote))) asked (.error s)) :
    Downloads remote file asked (.error s)
  | unawaited {plan : DownloadPlan} {polling : Log} {s : Stop}
    (course : (p.waitForJob plan.transferJob.jobId).Course polling (.error s)) :
    Downloads remote file (p.planned remote plan ++ polling) (.error s)
  | fetched {plan : DownloadPlan} {polling fetching : Log} {job : SchedulerJob}
    {x : Except Stop Nat} (course : (p.waitForJob plan.transferJob.jobId).Course polling (.ok job))
    (waits : Waits (.call (.fetch plan.downloadUrl file)) fetching x) :
    Downloads remote file (p.planned remote plan ++ (polling ++ .acted (.enter .downloading) () ::
        .acted (.emit (.downloading plan.transferJob.jobId file)) () :: fetching))
      (delivered file x)

variable {p}

theorem Downloads.of_course {remote file : String} {log : Log} {r : Except Stop (Int64 × Nat)}
    (h : (p.downloadSteps remote file).Course log r) :
    p.Downloads remote file log (r.map (·.2)) := by
  unfold downloadSteps at h
  rcases Course.of_bind h with ⟨asked, rest, plan, hplan, htold, rfl⟩ | ⟨s, hplan, rfl⟩
  swap
  · exact .unplanned (Course.of_call hplan)
  obtain rfl := (Course.of_call hplan).of_ok
  obtain ⟨⟨⟩, rest, rfl, hphase⟩ := Course.of_perform_bind htold
  obtain ⟨⟨⟩, rest, rfl, hpoll⟩ := Course.of_perform_bind hphase
  rcases Course.of_bind hpoll with ⟨polling, rest, job, hjob, hdone, rfl⟩ | ⟨s, hjob, rfl⟩
  swap
  · exact .unawaited hjob
  obtain ⟨⟨⟩, rest, rfl, hevent⟩ := Course.of_perform_bind hdone
  obtain ⟨⟨⟩, rest, rfl, hfetch⟩ := Course.of_perform_bind hevent
  rcases Course.of_bind hfetch with ⟨fetching, rest, y, hasked, hend, rfl⟩ | ⟨s, hasked, rfl⟩
  · obtain ⟨x, hx, hy⟩ := Course.of_attempt hasked
    have fetched : p.Downloads remote file _ _ := .fetched hjob (Course.of_call hx)
    cases y with
    | ok size =>
      obtain ⟨rfl, rfl⟩ := Course.of_pure hend
      rw [List.append_nil]
      rcases x with (_ | _ | _) | x <;> cases hy
      exact fetched
    | error e =>
      obtain ⟨rfl, rfl⟩ := Course.of_fail hend
      rw [List.append_nil]
      rcases x with (_ | _ | _) | x <;> cases hy
      exact fetched
  · obtain ⟨x, hx, hy⟩ := Course.of_attempt hasked
    have fetched : p.Downloads remote file _ _ := .fetched hjob (Course.of_call hx)
    rcases x with (_ | _ | _) | x <;> cases hy <;> exact fetched

end Profile

end StagedTransfer
