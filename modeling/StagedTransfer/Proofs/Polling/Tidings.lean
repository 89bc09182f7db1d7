import Mathlib.Tactic.ByCases
import StagedTransfer.Gateway.Answer
import StagedTransfer.Proofs.Polling.Decision

/-!
# Tidings of a job

What a response means for whoever has asked for a job is told by its status, by what can be decoded
of its body and by the list in it. The job is not found if the status says so or if the list is
empty, and in no other case.
-/

namespace StagedTransfer

open Http Wire
open Json (Message)

namespace Http.Response

/-- The jobs that the body of a success lists, if the body has come whole. -/
def jobs? (r : Response) : Option (Except Json.ReadError JobsResponse) :=
  if r.isSuccess ∧ r.whole then some (Message.decodeBytes r.body) else none

/-- The response does not show the job that has been asked for. -/
def LacksJob (r : Response) : Prop :=
  r.status = 404 ∨ r.jobs? = some (.ok ⟨[]⟩)

instance (r : Response) : Decidable r.LacksJob :=
  inferInstanceAs (Decidable (_ ∨ _))

/-- The answer for a job that a transfer makes of a response. -/
def jobAnswer (r : Response) (jobId : Int64) : JobAnswer :=
  (r.firstJob jobId).mapError .ofGateway

end Http.Response

/-- What a response means for whoever has asked for a job. -/
inductive Tidings (jobId : Int64) (r : Response) : JobAnswer → Prop
  | absent (status : r.status = 404) : Tidings jobId r (.error (.notFound r.report))
  | unlisted (jobs : r.jobs? = some (.ok ⟨[]⟩)) :
    Tidings jobId r (.error (.notFound ("job " ++ toString jobId.toInt)))
  | listed {job : SchedulerJob} {others : List SchedulerJob}
    (jobs : r.jobs? = some (.ok ⟨job :: others⟩)) : Tidings jobId r (.ok job)
  | garbled {e : Json.ReadError} (jobs : r.jobs? = some (.error e)) :
    Tidings jobId r (.error (.malformedResponse e.message))
  | brokenOff (success : r.isSuccess = true) (part : r.whole = false) :
    Tidings jobId r (.error (.http (GatewayError.http Response.brokenOff).message))
  | refused (failure : r.isSuccess = false) (status : r.status ≠ 404) :
    Tidings jobId r (.error (.http (GatewayError.api r.status r.report).message))

namespace Http.Response

variable {r : Response} {jobId : Int64}

lemma successBody_of_bytes (success : r.isSuccess = true) :
    r.successBody = if r.whole then .ok r.body else .error (.http brokenOff) := by
  rw [successBody, checked, if_pos success]
  change r.bytes.mapError _ = _
  rw [bytes]
  split <;> rfl

lemma firstJob_of_error {e : GatewayError} (h : r.successBody = .error e) :
    r.firstJob jobId = .error e := by
  rw [firstJob, message, h]
  rfl

/-- What is made of a body is made of the jobs that it lists. -/
lemma firstJob_of_body {body : Bytes} (h : r.successBody = .ok body) :
    r.firstJob jobId = ((Message.decodeBytes body).mapError .json).bind fun answer =>
      match JobsResponse.jobs answer with
      | job :: _ => .ok job
      | []       => .error (.notFound ("job " ++ toString jobId.toInt)) := by
  rw [firstJob, message, h]
  rfl

variable (r jobId)

theorem tidings_jobAnswer : Tidings jobId r (r.jobAnswer jobId) := by
  rw [jobAnswer]
  cases success : r.isSuccess with
  | false =>
    have unsuccessful : r.successBody = if r.status = 404 then .error (.notFound r.report)
        else .error (.api r.status r.report) := by
      rw [successBody, checked, success, if_neg Bool.false_ne_true]
      split <;> rfl
    by_cases status : r.status = 404
    · rw [firstJob_of_error (unsuccessful.trans (if_pos status))]
      exact .absent status
    · rw [firstJob_of_error (unsuccessful.trans (if_neg status))]
      exact .refused success status
  | true =>
    have body := successBody_of_bytes success
    cases whole : r.whole with
    | false =>
      rw [whole, if_neg Bool.false_ne_true] at body
      rw [firstJob_of_error body]
      exact .brokenOff success whole
    | true =>
      rw [whole, if_pos rfl] at body
      have jobs : r.jobs? = some (Message.decodeBytes r.body) := if_pos ⟨success, whole⟩
      rw [firstJob_of_body body]
      cases decoded : (Message.decodeBytes r.body : Except Json.ReadError JobsResponse) with
      | error e => exact .garbled (jobs.trans (congrArg some decoded))
      | ok answer =>
        obtain ⟨_ | ⟨job, others⟩⟩ := answer
        · exact .unlisted (jobs.trans (congrArg some decoded))
        · exact .listed (jobs.trans (congrArg some decoded))

/-- Only a response that lacks the job is told as not found. -/
theorem jobAnswer_notFound_iff :
    (∃ what, r.jobAnswer jobId = .error (.notFound what)) ↔ r.LacksJob := by
  have success : r.status = 404 → r.isSuccess = false := fun status => by
    rw [isSuccess, status]
    rfl
  have listless (failure : r.isSuccess = false) : r.jobs? = none :=
    if_neg fun h => by simp [failure] at h
  have tidings := r.tidings_jobAnswer jobId
  generalize r.jobAnswer jobId = answer at tidings
  cases tidings with
  | absent status => exact ⟨fun _ => .inl status, fun _ => ⟨_, rfl⟩⟩
  | unlisted jobs => exact ⟨fun _ => .inr jobs, fun _ => ⟨_, rfl⟩⟩
  | listed jobs =>
    refine ⟨nofun, ?_⟩
    rintro (status | lacks)
    · cases jobs.symm.trans (listless (success status))
    · cases jobs.symm.trans lacks
  | garbled jobs =>
    refine ⟨nofun, ?_⟩
    rintro (status | lacks)
    · cases jobs.symm.trans (listless (success status))
    · cases jobs.symm.trans lacks
  | brokenOff success' part =>
    refine ⟨nofun, ?_⟩
    rintro (status | lacks)
    · cases success'.symm.trans (success status)
    · cases lacks.symm.trans (if_neg fun h => by simp [part] at h)
  | refused failure status =>
    refine ⟨nofun, ?_⟩
    rintro (status' | lacks)
    · exact absurd status' status
    · cases lacks.symm.trans (listless failure)

lemma isMissing_jobAnswer : Polling.isMissing (r.jobAnswer jobId) = decide r.LacksJob := by
  rw [Bool.eq_iff_iff, decide_eq_true_iff, ← r.jobAnswer_notFound_iff jobId]
  generalize r.jobAnswer jobId = answer
  constructor
  · intro missing
    cases answer with
    | ok => cases missing
    | error e =>
      cases e with
      | notFound what => exact ⟨what, rfl⟩
      | _ => cases missing
  · rintro ⟨what, rfl⟩
    rfl

end Http.Response

end StagedTransfer
