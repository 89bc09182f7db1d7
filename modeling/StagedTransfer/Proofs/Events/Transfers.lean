import StagedTransfer.Proofs.Download.Stages
import StagedTransfer.Proofs.Events.Stages
import StagedTransfer.Proofs.Upload.Order

/-!
# What a transfer tells

All that is told of a transfer by the store is true: the plan that the gateway has agreed to, then
what its stages tell, and at last how the transfer has ended. A transfer that comes to no result, as
when a pause is no span of time, does not tell of its end. The main statement is
`large_tellsTruth`.
-/

namespace StagedTransfer

open Activity Wire

/-- The event tells of the end of a transfer. -/
def Event.isFinal : Event → Bool
  | done _   => true
  | failed _ => true
  | _        => false

/-- What the gateway has agreed to: a job, and the number of parts that go to the store. -/
structure Agreement where
  jobId : Int64
  parts : Nat

def Note.agreement? : Note → Option Agreement
  | .awaited (.call (.uploadPlan _)) (.answered (.ok plan))   =>
    some ⟨plan.transferJob.jobId, plan.partsUploadUrls.length⟩
  | .awaited (.call (.downloadPlan _)) (.answered (.ok plan)) => some ⟨plan.transferJob.jobId, 0⟩
  | _                                                         => none

/-- All that the gateway has agreed to in a run. -/
def Log.agreements (log : Log) : List Agreement :=
  log.filterMap Note.agreement?

@[simp] lemma Log.agreements_append (first rest : Log) :
    agreements (first ++ rest) = agreements first ++ agreements rest :=
  List.filterMap_append

/-! ### What is told up to the end -/

/-- The job is asked for only if it is waited for, and no other job is. -/
def Log.AsksOnly (log : Log) (wait : Bool) (jobId : Int64) : Prop :=
  ∀ asked reply, .awaited (.call (.job asked)) reply ∈ log → wait = true ∧ asked = jobId

/-- What is told of an upload before its end. -/
inductive UploadTold (wait : Bool) (log : Log) : List Event → Prop
  | nothing (none' : log.agreements = []) : UploadTold wait log []
  | agreed {a : Agreement} {parts : List Event} (one : log.agreements = [a])
    (retold : List.Forall₂ (Sending.Retells a.parts log.puts) log.answers parts)
    (once : log.posts.length ≤ 1) (asks : log.AsksOnly wait a.jobId) :
    UploadTold wait log (.planReceived a.jobId a.parts :: (parts ++
      log.posts.filterMap (Posted.event? a.parts) ++ log.jobAnswers.filterMap (polled? a.jobId)))

/-- A job has been told of that has completed. -/
def Log.HasCompleted (log : Log) : Prop :=
  ∃ job, .ok job ∈ log.jobAnswers ∧ Polling.reportOf job = some "COMPLETED"

/-- What is told of a download into a file before its end. -/
inductive DownloadTold (file : String) (log : Log) : List Event → Prop
  | nothing (none' : log.agreements = []) : DownloadTold file log []
  | waited {jobId : Int64} (one : log.agreements = [⟨jobId, 0⟩]) (asks : log.AsksOnly true jobId)
    (uncompleted : ¬log.HasCompleted) :
    DownloadTold file log (.planReceived jobId 0 :: log.jobAnswers.filterMap (polled? jobId))
  | fetched {jobId : Int64} (one : log.agreements = [⟨jobId, 0⟩]) (asks : log.AsksOnly true jobId)
    (completed : log.HasCompleted) :
    DownloadTold file log (.planReceived jobId 0 ::
      (log.jobAnswers.filterMap (polled? jobId) ++ [.downloading jobId file]))

/-! ### What is told of the end -/

/-- What is told of the end of a transfer that ends with a result. -/
inductive LastWords {α : Type} (log : Log) : Except Stop α → List Event → Prop
  | done {a : Agreement} (x : α) (one : log.agreements = [a]) :
    LastWords log (.ok x) [.done a.jobId]
  | failed (e : TransferError) : LastWords log (.error (.failed e)) [.failed e.message]
  | overrun (o : Overrun) : LastWords log (.error (.overrun o)) []
  | unfinished : LastWords log (.error .unfinished) []

/-- What is told of a run that ends with a result is true; `told` is what may be told before its
end. -/
structure TellsTruth {α : Type} (told : Log → List Event → Prop) (log : Log) (r : Except Stop α) :
    Prop where
  /-- The end is told last, and only then. -/
  story : ∃ body last, told log body ∧ (∀ e ∈ body, e.isFinal = false) ∧ LastWords log r last ∧
    log.events = body ++ last
  /-- Success is told of the job of the plan, just if there is success. -/
  done : ∀ jobId, .done jobId ∈ log.events ↔
    (∃ x, r = .ok x) ∧ log.agreements.map (·.jobId) = [jobId]
  /-- An error is told by its text, just if there is that error. -/
  failed : ∀ text, .failed text ∈ log.events ↔ ∃ e, r = .error (.failed e) ∧ text = e.message
  /-- The end is told once if there is success or an error, and not at all otherwise. -/
  once : (log.events.filter (·.isFinal)).length =
    match r with
    | .ok _              => 1
    | .error (.failed _) => 1
    | .error _           => 0

lemma TellsTruth.of_story {α : Type} {told : Log → List Event → Prop} {log : Log}
    {r : Except Stop α} {body last : List Event} (h : told log body)
    (early : ∀ e ∈ body, e.isFinal = false) (words : LastWords log r last)
    (events : log.events = body ++ last) : TellsTruth told log r := by
  have late {e : Event} (final : e.isFinal = true) : e ∈ log.events ↔ e ∈ last := by
    rw [events, List.mem_append, or_iff_right]
    intro mem
    rw [early e mem] at final
    cases final
  have none' : body.filter (·.isFinal) = [] := by
    simpa [List.filter_eq_nil_iff] using early
  refine ⟨⟨body, last, h, early, words, events⟩, fun jobId => ?_, fun text => ?_, ?_⟩
  · rw [late rfl]
    cases words with
    | done x one => simp [one, eq_comm]
    | _ => simp
  · rw [late rfl]
    cases words <;> simp
  · rw [events, List.filter_append, none', List.nil_append]
    cases words <;> rfl

/-! ### Stages tell nothing of the end -/

lemma Sending.Retells.isFinal {total : Nat} {puts : List Held} {a : Settled} {e : Event}
    (h : Retells total puts a e) : e.isFinal = false := by
  cases h <;> rfl

lemma Posted.isFinal_of_event? {total : Nat} {x : Posted} {e : Event}
    (h : x.event? total = some e) : e.isFinal = false := by
  rw [event?] at h
  split at h <;> cases h
  rfl

lemma isFinal_of_polled? {jobId : Int64} {answer : JobAnswer} {e : Event}
    (h : polled? jobId answer = some e) : e.isFinal = false := by
  cases answer with
  | error e =>
    cases e <;> cases h
    rfl
  | ok job =>
    obtain ⟨state, -, told⟩ := Option.bind_eq_some_iff.1 h
    split at told <;> cases told
    rfl

lemma isFinal_of_retells {total : Nat} {puts : List Sending.Held} {answers : List Sending.Settled}
    {parts : List Event} (h : List.Forall₂ (Sending.Retells total puts) answers parts) :
    ∀ e ∈ parts, e.isFinal = false := by
  induction h with
  | nil => simp
  | cons retells _ ih => exact List.forall_mem_cons.2 ⟨retells.isFinal, ih⟩

lemma isFinal_of_jobAnswers {jobId : Int64} (log : Log) :
    ∀ e ∈ log.jobAnswers.filterMap (polled? jobId), e.isFinal = false := by
  intro e mem
  obtain ⟨answer, -, told⟩ := List.mem_filterMap.1 mem
  exact isFinal_of_polled? told

lemma UploadTold.early {wait : Bool} {log : Log} {body : List Event}
    (h : UploadTold wait log body) : ∀ e ∈ body, e.isFinal = false := by
  cases h with
  | nothing => simp
  | agreed one retold once asks =>
    refine List.forall_mem_cons.2 ⟨rfl, fun e mem => ?_⟩
    rcases List.mem_append.1 mem with mem | mem
    · rcases List.mem_append.1 mem with mem | mem
      · exact isFinal_of_retells retold e mem
      · obtain ⟨x, -, told⟩ := List.mem_filterMap.1 mem
        exact Posted.isFinal_of_event? told
    · exact isFinal_of_jobAnswers log e mem

lemma DownloadTold.early {file : String} {log : Log} {body : List Event}
    (h : DownloadTold file log body) : ∀ e ∈ body, e.isFinal = false := by
  cases h with
  | nothing => simp
  | waited => exact List.forall_mem_cons.2 ⟨rfl, isFinal_of_jobAnswers log⟩
  | fetched =>
    refine List.forall_mem_cons.2 ⟨rfl, fun e mem => ?_⟩
    rcases List.mem_append.1 mem with mem | mem
    · exact isFinal_of_jobAnswers log e mem
    · obtain rfl := List.mem_singleton.1 mem
      rfl

/-! ### Uploads -/

/-- A note of the wait for a job that is waited for, or of something done at once. -/
def Note.Follows (wait : Bool) (jobId : Int64) (note : Note) : Prop :=
  (wait = true ∧ Asks jobId note) ∨ ∃ a x, note = .acted a x

/-- What neither a wait nor something done at once tells is not in their log. -/
lemma filterMap_of_follows {α : Type} {f : Note → Option α} {wait : Bool} {jobId : Int64}
    {tail : Log} (follows : ∀ note ∈ tail, note.Follows wait jobId)
    (asks : ∀ note, Asks jobId note → f note = none) (acts : ∀ a x, f (.acted a x) = none) :
    tail.filterMap f = [] := by
  rw [List.filterMap_eq_nil_iff]
  intro note mem
  rcases follows note mem with ⟨-, asked⟩ | ⟨a, x, rfl⟩
  · exact asks note asked
  · exact acts a x

namespace Profile

variable {p : Profile} {file remote : String} {wait : Bool} {log : Log}

/-- What only answers to questions other than the completion tell is not in the log of the sending
of a file. -/
lemma SendsFile.filterMap_eq_nil {α : Type} {f : Note → Option α} {plan : UploadPlan}
    {r : Except Stop (OrderedMap Nat String)} (h : p.SendsFile file plan log r)
    (asked : ∀ c, f (.asked c) = none) (acts : ∀ a x, f (.acted a x) = none)
    (chosen : ∀ c x, f (.chosen c x) = none)
    (posted : ∀ manifest reply,
      f (.awaited (.call (.complete plan.completeUploadUrl manifest)) reply) = none) :
    log.filterMap f = [] := by
  rw [List.filterMap_eq_nil_iff]
  intro note mem
  cases note with
  | asked c => exact asked c
  | acted a x => exact acts a x
  | chosen c x => exact chosen c x
  | awaited w reply =>
    obtain ⟨manifest, rfl⟩ := h.of_awaited mem
    exact posted manifest reply

lemma SendsFile.agreements_eq_nil {plan : UploadPlan} {r : Except Stop (OrderedMap Nat String)}
    (h : p.SendsFile file plan log r) : Log.agreements log = [] :=
  h.filterMap_eq_nil (fun _ => rfl) (fun _ _ => rfl) (fun _ _ => rfl) fun _ _ => rfl

lemma SendsFile.jobAnswers_eq_nil {plan : UploadPlan} {r : Except Stop (OrderedMap Nat String)}
    (h : p.SendsFile file plan log r) : Log.jobAnswers log = [] :=
  h.filterMap_eq_nil (fun _ => rfl) (fun _ _ => rfl) (fun _ _ => rfl) fun _ _ => rfl

/-- What is told of an upload once the file is being sent. -/
lemma told_of_begun (dir name : String) (size : Nat) {plan : UploadPlan} {sending tail : Log}
    {r : Except Stop (OrderedMap Nat String)} (sends : p.SendsFile file plan sending r)
    (follows : ∀ note ∈ tail, note.Follows wait plan.transferJob.jobId)
    (polls : Log.events tail = (Log.jobAnswers tail).filterMap (polled? plan.transferJob.jobId)) :
    Log.agreements (p.begun file dir name size plan ++ (sending ++ tail)) =
        [⟨plan.transferJob.jobId, plan.partsUploadUrls.length⟩] ∧
      UploadTold wait (p.begun file dir name size plan ++ (sending ++ tail))
        (Log.events (p.begun file dir name size plan ++ (sending ++ tail))) := by
  obtain ⟨parts, retold, events⟩ := sends.events_eq
  -- Parts are put by the sending alone and jobs asked for by the tail alone, so each projection
  -- of the log is that of one piece.
  have rest {α : Type} {f : Note → Option α} (acts : ∀ a x, f (.acted a x) = none)
      (asks : ∀ note, Asks plan.transferJob.jobId note → f note = none) : tail.filterMap f = [] :=
    filterMap_of_follows follows asks acts
  have stage {α : Type} {f : Note → Option α} (acts : ∀ a x, f (.acted a x) = none)
      (asks : ∀ note, Asks plan.transferJob.jobId note → f note = none)
      (begins : (p.begun file dir name size plan).filterMap f = []) :
      (p.begun file dir name size plan ++ (sending ++ tail)).filterMap f = sending.filterMap f := by
    rw [List.filterMap_append, List.filterMap_append, begins, rest acts asks, List.append_nil,
      List.nil_append]
  have puts : Log.puts (p.begun file dir name size plan ++ (sending ++ tail)) = Log.puts sending :=
    stage (fun _ _ => rfl) (by rintro _ ⟨⟩ <;> rfl) rfl
  have answers : Log.answers (p.begun file dir name size plan ++ (sending ++ tail)) =
      Log.answers sending := stage (fun _ _ => rfl) (by rintro _ ⟨⟩ <;> rfl) rfl
  have posts : Log.posts (p.begun file dir name size plan ++ (sending ++ tail)) =
      Log.posts sending := stage (fun _ _ => rfl) (by rintro _ ⟨⟩ <;> rfl) rfl
  have jobs : Log.jobAnswers (p.begun file dir name size plan ++ (sending ++ tail)) =
      Log.jobAnswers tail := by
    rw [Log.jobAnswers_append, Log.jobAnswers_append, sends.jobAnswers_eq_nil]
    rfl
  have agreements : Log.agreements (p.begun file dir name size plan ++ (sending ++ tail)) =
      [⟨plan.transferJob.jobId, plan.partsUploadUrls.length⟩] := by
    have none' : Log.agreements tail = [] := rest (fun _ _ => rfl) (by rintro _ ⟨⟩ <;> rfl)
    rw [Log.agreements_append, Log.agreements_append, sends.agreements_eq_nil, none']
    rfl
  have told : Log.events (p.begun file dir name size plan ++ (sending ++ tail)) =
      .planReceived plan.transferJob.jobId plan.partsUploadUrls.length ::
        (parts ++ (Log.posts sending).filterMap (Posted.event? plan.partsUploadUrls.length) ++
          (Log.jobAnswers tail).filterMap (polled? plan.transferJob.jobId)) := by
    rw [Log.events_append, Log.events_append, events, polls]
    rfl
  refine ⟨agreements, ?_⟩
  rw [told, ← posts, ← jobs]
  refine .agreed agreements (by rwa [puts, answers]) (posts ▸ sends.completesOnce.once) ?_
  intro asked reply mem
  rcases List.mem_append.1 mem with mem | mem
  · simp [begun] at mem
  · rcases List.mem_append.1 mem with mem | mem
    · obtain ⟨manifest, same⟩ := sends.of_awaited mem
      cases same
    · rcases follows _ mem with ⟨waits, asks⟩ | ⟨a, x, same⟩
      · cases asks
        exact ⟨waits, rfl⟩
      · cases same

lemma Uploads.told {r : Except Stop (Int64 × Int64)} (h : p.Uploads file remote wait log r) :
    UploadTold wait log (Log.events log) ∧
      ∀ ids, r = .ok ids → ∃ a, Log.agreements log = [a] ∧ a.jobId = ids.1 := by
  cases h with
  | misnamed => exact ⟨.nothing rfl, by simp⟩
  | unread => exact ⟨.nothing rfl, by simp⟩
  | unplanned _ waits =>
    rcases waits.of_error with ⟨rfl, -⟩ | ⟨e, rfl, -⟩ | ⟨o, rfl, -⟩ <;>
      exact ⟨.nothing rfl, by simp⟩
  | @unsent dir name size plan sending s _ sends =>
    have follows : ∀ note ∈ ([] : Log), note.Follows wait plan.transferJob.jobId := by simp
    have told := told_of_begun dir name size sends follows rfl
    rw [List.append_nil] at told
    exact ⟨told.2, by simp⟩
  | @sent dir name size plan sending etags _ sends _ =>
    have follows : ∀ note ∈ ([.acted (.enter .completionSent) ()] : Log),
        note.Follows wait plan.transferJob.jobId := by simp [Note.Follows]
    have told := told_of_begun dir name size sends follows rfl
    refine ⟨told.2, ?_⟩
    rintro _ ⟨rfl⟩
    exact ⟨_, told.1, rfl⟩
  | @awaited dir name size plan sending polling etags x _ sends stays course =>
    have follows : ∀ note ∈ (.acted (.enter .completionSent) () ::
        .acted (.enter .jobPolling) () :: polling : Log),
        note.Follows wait plan.transferJob.jobId := by
      intro note mem
      rcases List.mem_cons.1 mem with rfl | mem
      · exact .inr ⟨_, _, rfl⟩
      rcases List.mem_cons.1 mem with rfl | mem
      · exact .inr ⟨_, _, rfl⟩
      · exact .inl ⟨stays, waitFrom_asks course mem⟩
    have polls := events_of_waitFrom course
    have told := told_of_begun dir name size sends follows polls
    refine ⟨told.2, fun ids ok => ⟨_, told.1, ?_⟩⟩
    cases x with
    | error s => cases ok
    | ok job =>
      cases ok
      rfl

/-! ### Downloads -/

/-- What the log of a planned download holds if nothing but the fetch follows the wait. -/
structure AfterPlan (file : String) (jobId : Int64) (polling tail log : Log) : Prop where
  agreements : Log.agreements log = [⟨jobId, 0⟩]
  jobAnswers : Log.jobAnswers log = Log.jobAnswers polling
  asks       : log.AsksOnly true jobId
  events     : Log.events log = .planReceived jobId 0 ::
    ((Log.jobAnswers polling).filterMap (polled? jobId) ++ Log.events tail)

variable (remote file) in
lemma AfterPlan.of_wait {plan : DownloadPlan} {polling tail : Log} {r : Except Stop SchedulerJob}
    (course : (p.waitForJob plan.transferJob.jobId).Course polling r)
    (fetch : ∀ w reply, .awaited w reply ∈ tail → w = .call (.fetch plan.downloadUrl file)) :
    AfterPlan file plan.transferJob.jobId polling tail
      (p.planned remote plan ++ (polling ++ tail)) := by
  have quiet {α : Type} {f : Note → Option α} (asked : ∀ c, f (.asked c) = none)
      (acts : ∀ a x, f (.acted a x) = none) (chosen : ∀ s c, f (.chosen s c) = none)
      (fetched : ∀ reply, f (.awaited (.call (.fetch plan.downloadUrl file)) reply) = none) :
      tail.filterMap f = [] := by
    rw [List.filterMap_eq_nil_iff]
    intro note mem
    cases note with
    | asked c => exact asked c
    | acted a x => exact acts a x
    | chosen s c => exact chosen s c
    | awaited w reply =>
      obtain rfl := fetch w reply mem
      exact fetched reply
  have agreements : Log.agreements polling = [] := by
    rw [Log.agreements, List.filterMap_eq_nil_iff]
    intro note mem
    cases waitFrom_asks course mem <;> rfl
  constructor
  case agreements =>
    have none' : Log.agreements tail = [] :=
      quiet (fun _ => rfl) (fun _ _ => rfl) (fun _ _ => rfl) fun _ => rfl
    rw [Log.agreements_append, Log.agreements_append, agreements, none']
    rfl
  case jobAnswers =>
    have none' : Log.jobAnswers tail = [] :=
      quiet (fun _ => rfl) (fun _ _ => rfl) (fun _ _ => rfl) fun _ => rfl
    rw [Log.jobAnswers_append, Log.jobAnswers_append, none', List.append_nil]
    rfl
  case asks =>
    intro asked reply mem
    rcases List.mem_append.1 mem with mem | mem
    · simp [planned] at mem
    · rcases List.mem_append.1 mem with mem | mem
      · cases waitFrom_asks course mem
        exact ⟨rfl, rfl⟩
      · cases fetch _ _ mem
  case events =>
    rw [Log.events_append, Log.events_append, events_of_waitFrom course]
    rfl

lemma Downloads.told {r : Except Stop Nat} (h : p.Downloads remote file log r) :
    DownloadTold file log (Log.events log) ∧
      ∀ size, r = .ok size → ∃ jobId, Log.agreements log = [⟨jobId, 0⟩] := by
  cases h with
  | unplanned waits =>
    rcases waits.of_error with ⟨rfl, -⟩ | ⟨e, rfl, -⟩ | ⟨o, rfl, -⟩ <;>
      exact ⟨.nothing rfl, by simp⟩
  | @unawaited plan polling s course =>
    have after : AfterPlan file plan.transferJob.jobId polling [] _ :=
      AfterPlan.of_wait file remote course (by simp)
    rw [List.append_nil] at after
    refine ⟨?_, by simp⟩
    rw [after.events, ← after.jobAnswers]
    refine (List.append_nil _).symm ▸ .waited after.agreements after.asks ?_
    rw [Log.HasCompleted, after.jobAnswers, completed_iff_of_waitFrom course]
    simp
  | @fetched plan polling fetching job x course waits =>
    have fetch : ∀ w reply, .awaited w reply ∈ (.acted (.enter .downloading) () ::
        .acted (.emit (.downloading plan.transferJob.jobId file)) () :: fetching : Log) →
        w = .call (.fetch plan.downloadUrl file) := by
      intro w reply mem
      simp only [List.mem_cons, reduceCtorEq, false_or] at mem
      rcases waits.mem mem with ⟨c, same⟩ | ⟨_, same⟩ <;> cases same
      rfl
    have after := AfterPlan.of_wait file remote course fetch
    have told : Log.events (.acted (.enter .downloading) () ::
        .acted (.emit (.downloading plan.transferJob.jobId file)) () :: fetching) =
        [.downloading plan.transferJob.jobId file] := congrArg (_ :: ·) waits.events_eq_nil
    refine ⟨?_, fun _ _ => ⟨_, after.agreements⟩⟩
    rw [after.events, told, ← after.jobAnswers]
    refine .fetched after.agreements after.asks ?_
    rw [Log.HasCompleted, after.jobAnswers]
    exact (completed_iff_of_waitFrom course).2 ⟨job, rfl⟩

/-- A download that succeeds yields the job of its plan. -/
lemma planned_of_downloadSteps {ids : Int64 × Nat}
    (h : (p.downloadSteps remote file).Course log (.ok ids)) :
    ⟨ids.1, 0⟩ ∈ Log.agreements log := by
  unfold downloadSteps at h
  rcases Course.of_bind h with ⟨asked, rest, plan, hplan, htold, rfl⟩ | ⟨s, hplan, ⟨⟩⟩
  obtain rfl := (Course.of_call hplan).of_ok
  obtain ⟨⟨⟩, rest, rfl, hphase⟩ := Course.of_perform_bind htold
  obtain ⟨⟨⟩, rest, rfl, hpoll⟩ := Course.of_perform_bind hphase
  rcases Course.of_bind hpoll with ⟨polling, rest, job, hjob, hdone, rfl⟩ | ⟨s, hjob, ⟨⟩⟩
  obtain ⟨⟨⟩, rest, rfl, hevent⟩ := Course.of_perform_bind hdone
  obtain ⟨⟨⟩, rest, rfl, hfetch⟩ := Course.of_perform_bind hevent
  rcases Course.of_bind hfetch with ⟨fetching, rest, y, hasked, hend, rfl⟩ | ⟨s, hasked, ⟨⟩⟩
  cases y with
  | ok size =>
    obtain ⟨rfl, same⟩ := Course.of_pure hend
    cases same
    exact List.mem_cons_self
  | error e => cases (Course.of_fail hend).2

/-! ### Whole transfers -/

lemma Parting.acted {α : Type} {x : Except Stop (Int64 × α)} {last : Log} (h : Parting x last) :
    ∀ note ∈ last, ∃ a y, note = .acted a y := by
  intro note mem
  cases h with
  | overrun => cases mem
  | unfinished => cases mem
  | _ =>
    simp only [List.mem_cons, List.not_mem_nil, or_false] at mem
    rcases mem with rfl | rfl <;> exact ⟨_, _, rfl⟩

lemma Parting.lastWords {α : Type} {x : Except Stop (Int64 × α)} {last : Log} (h : Parting x last)
    (agreed : ∀ ids, x = .ok ids → ∃ a, Log.agreements log = [a] ∧ a.jobId = ids.1) :
    LastWords log (x.map (·.2)) (Log.events last) := by
  cases h with
  | done jobId x =>
    obtain ⟨a, one, rfl⟩ := agreed _ rfl
    exact .done x one
  | failed e => exact .failed e
  | overrun o => exact .overrun o
  | unfinished => exact .unfinished

end Profile

section

variable {log last : Log} (acted : ∀ note ∈ last, ∃ a x, note = .acted a x)

include acted

/-- What is done at once says nothing of what has been waited for. -/
lemma filterMap_append_acted {α : Type} {f : Note → Option α}
    (acts : ∀ a x, f (.acted a x) = none) : (log ++ last).filterMap f = log.filterMap f := by
  have none' : last.filterMap f = [] := by
    rw [List.filterMap_eq_nil_iff]
    intro note mem
    obtain ⟨a, x, rfl⟩ := acted note mem
    exact acts a x
  rw [List.filterMap_append, none', List.append_nil]

lemma agreements_append_acted : Log.agreements (log ++ last) = log.agreements :=
  filterMap_append_acted acted fun _ _ => rfl

lemma jobAnswers_append_acted : Log.jobAnswers (log ++ last) = log.jobAnswers :=
  filterMap_append_acted acted fun _ _ => rfl

lemma Log.AsksOnly.append_acted {wait : Bool} {jobId : Int64} (h : log.AsksOnly wait jobId) :
    Log.AsksOnly (log ++ last) wait jobId := by
  intro asked reply mem
  rcases List.mem_append.1 mem with mem | mem
  · exact h asked reply mem
  · obtain ⟨a, x, same⟩ := acted _ mem
    cases same

lemma UploadTold.append_acted {wait : Bool} {body : List Event} (h : UploadTold wait log body) :
    UploadTold wait (log ++ last) body := by
  have puts : Log.puts (log ++ last) = log.puts := filterMap_append_acted acted fun _ _ => rfl
  have answers : Log.answers (log ++ last) = log.answers :=
    filterMap_append_acted acted fun _ _ => rfl
  have posts : Log.posts (log ++ last) = log.posts := filterMap_append_acted acted fun _ _ => rfl
  have agreements : Log.agreements (log ++ last) = log.agreements := agreements_append_acted acted
  cases h with
  | nothing none' => exact .nothing (agreements.trans none')
  | agreed one retold once asks =>
    rw [← posts, ← jobAnswers_append_acted acted]
    exact .agreed (agreements.trans one) (by rwa [puts, answers]) (by rwa [posts])
      (asks.append_acted acted)

lemma DownloadTold.append_acted {file : String} {body : List Event}
    (h : DownloadTold file log body) : DownloadTold file (log ++ last) body := by
  have agreements : Log.agreements (log ++ last) = log.agreements := agreements_append_acted acted
  have jobs : Log.jobAnswers (log ++ last) = log.jobAnswers := jobAnswers_append_acted acted
  cases h with
  | nothing none' => exact .nothing (agreements.trans none')
  | waited one asks uncompleted =>
    rw [← jobs]
    refine .waited (agreements.trans one) (asks.append_acted acted) ?_
    rwa [Log.HasCompleted, jobs]
  | fetched one asks completed =>
    rw [← jobs]
    refine .fetched (agreements.trans one) (asks.append_acted acted) ?_
    rwa [Log.HasCompleted, jobs]

end

namespace Profile

/-- What is told of an upload or of a download through the store is true, whatever the other sides
do: the plan, the parts by their answers, the completion if the store has accepted it, each answer
for the job that tells how it stands, and the end. -/
theorem large_tellsTruth (p : Profile) (file remote : String) {σ : Type}
    (env : Environment (StateM σ)) (s : σ) :
    (∀ wait, TellsTruth (UploadTold wait) ((p.uploadLarge file remote wait).log env s)
        ((p.uploadLarge file remote wait).run env s).1) ∧
      TellsTruth (DownloadTold file) ((p.downloadLarge remote file).log env s)
        ((p.downloadLarge remote file).run env s).1 := by
  constructor
  · intro wait
    obtain ⟨first, last, x, course, parting, split, result⟩ :=
      parting_of_concluding (course_log env (p.uploadLarge file remote wait) s)
    obtain ⟨told, agreed⟩ := (Uploads.of_course course).told
    have told := told.append_acted parting.acted
    rw [split, result]
    refine .of_story told told.early (parting.lastWords fun ids ok => ?_) (Log.events_append _ _)
    rw [agreements_append_acted parting.acted]
    exact agreed ids ok
  · obtain ⟨first, last, x, course, parting, split, result⟩ :=
      parting_of_concluding (course_log env (p.downloadLarge remote file) s)
    obtain ⟨told, agreed⟩ := (Downloads.of_course course).told
    have told := told.append_acted parting.acted
    rw [split, result]
    refine .of_story told told.early (parting.lastWords fun ids ok => ?_) (Log.events_append _ _)
    obtain ⟨jobId, one⟩ := agreed ids.2 (by rw [ok]; rfl)
    subst ok
    have planned := planned_of_downloadSteps course
    rw [one, List.mem_singleton, Agreement.mk.injEq] at planned
    rw [agreements_append_acted parting.acted]
    exact ⟨_, one, planned.1.symm⟩

/-- The other sides do all that they are asked, but the job is never found. -/
def losing (contents : Bytes) (plan : UploadPlan) : Environment (StateM Unit) :=
  { willing contents plan with
    await
      | .call (.job _) => pure (.answered (.error (.notFound "no job")))
      | w              => (willing contents plan).await w }

/-- The pause of the wait for a job grows beyond all spans of time. -/
def rash : Profile :=
  ⟨none, { WaitPlan.default with backoff := .ofDecimal false 1 300 }, 2, 0, 3⟩

/-- The job is not found once, and there is no span for the next pause: the end is not told. -/
theorem large_tellsTruth_rash :
    let upload := rash.uploadLarge "file" "/there/file" true
    let log := upload.log (losing [1, 2, 3] threeBytes) ()
    TellsTruth (UploadTold true) log (upload.run (losing [1, 2, 3] threeBytes) ()).1 ∧
      log.events = [.planReceived 7 2, .partUploaded 1 2 2, .partUploaded 2 2 1, .completionSent 2,
        .jobPolled 7 none] :=
  ⟨(large_tellsTruth rash "file" "/there/file" (losing [1, 2, 3] threeBytes) ()).1 true,
    by decide +kernel⟩

end Profile

end StagedTransfer
