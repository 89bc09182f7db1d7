import StagedTransfer.Proofs.Sending.Safety
import StagedTransfer.Transfer.Operations

/-!
# The stages of an upload

All courses that the sending of a file can take: what is asked in each of them and how it ends.
-/

namespace StagedTransfer.Profile

open Activity Wire

variable (p : Profile) (file : String) (plan : UploadPlan)

/-! ### The sending of the parts -/

/-- The state in which the sending of a file of a size begins. -/
def startOf (fileSize : Nat) : Sending.State :=
  .start p.slots (.after plan.maxPartSize.toNat fileSize 0) plan.partsUploadUrls

/-- The parts of a file can be sent to the places of a plan. -/
structure Fits (plan : UploadPlan) (fileSize : Nat) : Prop where
  positive : 0 < plan.maxPartSize.toNat
  count    : plan.partsUploadUrls.length = partCount fileSize plan.maxPartSize.toNat

/-- A course of the sending of the parts. -/
inductive SendsParts : Log → Except Stop (OrderedMap Nat String) → Prop
  | zero (h : plan.maxPartSize.toNat = 0) :
    SendsParts [] (.error (.failed (.malformedResponse "upload plan has a zero maxPartSize")))
  | unopened (h : plan.maxPartSize.toNat ≠ 0) (e : IoError) :
    SendsParts [.acted (.size file) (.error e)] (.error (.failed (.chunk (.io e))))
  | mismatch (h : plan.maxPartSize.toNat ≠ 0) (fileSize : Nat)
    (count : partCount fileSize plan.maxPartSize.toNat ≠ plan.partsUploadUrls.length) :
    SendsParts [.acted (.size file) (.ok fileSize)]
      (.error (.failed (.malformedResponse (countMessage plan.partsUploadUrls.length fileSize
        (partCount fileSize plan.maxPartSize.toNat)))))
  | crowded (fileSize : Nat) (h : slotLimit < p.slots) :
    SendsParts [.acted (.size file) (.ok fileSize)] (.error (.overrun .slots))
  | cancelled (fileSize : Nat) :
    SendsParts [.acted (.size file) (.ok fileSize), .asked true] (.error (.failed .cancelled))
  | sent {fileSize : Nat} {sending : Log} {t : Sending.State} {x : Sending.Result}
    (fits : Fits plan fileSize)
    (course : Sending.Course file (p.startOf plan fileSize).moveBound (p.startOf plan fileSize)
      sending t) (result : t.result = some x) :
    SendsParts (.acted (.size file) (.ok fileSize) :: .asked false :: sending) (x.mapError .failed)
  | stalled {fileSize : Nat} {sending : Log} {t : Sending.State} (fits : Fits plan fileSize)
    (course : Sending.Course file (p.startOf plan fileSize).moveBound (p.startOf plan fileSize)
      sending t) (result : t.result = none) :
    SendsParts (.acted (.size file) (.ok fileSize) :: .asked false :: sending) (.error .unfinished)

variable {p file plan}

theorem SendsParts.of_course {log : Log} {r : Except Stop (OrderedMap Nat String)}
    (h : (p.sendParts file plan).Course log r) : p.SendsParts file plan log r := by
  simp only [sendParts] at h
  by_cases zero : plan.maxPartSize.toNat = 0
  · rw [if_pos zero] at h
    obtain ⟨rfl, rfl⟩ := Course.of_fail h
    exact .zero zero
  rw [if_neg zero] at h
  replace ⟨x, rest, hlog, h⟩ := Course.of_perform_bind h
  subst hlog
  cases hopen : PartReader.open x plan.maxPartSize.toNat with
  | error e =>
    rw [hopen] at h
    obtain ⟨rfl, rfl⟩ := Course.of_fail h
    cases x with
    | error e' =>
      obtain rfl : .io e' = e := by simpa [PartReader.open, zero] using hopen
      exact .unopened zero e'
    | ok n => simp [PartReader.open, zero] at hopen
  | ok reader =>
    obtain ⟨positive, fileSize, rfl, rfl⟩ := PartReader.open_eq_ok hopen
    simp only [hopen] at h
    by_cases count : partCount (PartReader.after plan.maxPartSize.toNat fileSize 0).fileSize
        plan.maxPartSize.toNat ≠ plan.partsUploadUrls.length
    · rw [if_pos count] at h
      obtain ⟨rfl, rfl⟩ := Course.of_fail h
      exact .mismatch zero fileSize count
    rw [if_neg count] at h
    by_cases crowded : slotLimit < p.slots
    · rw [if_pos crowded] at h
      obtain ⟨rfl, rfl⟩ := Course.of_overrun h
      exact .crowded fileSize crowded
    rw [if_neg crowded] at h
    -- All that can be checked has been checked, and the rest is up to the sending.
    have fits : Fits plan fileSize := ⟨positive, (Decidable.not_not.1 count).symm⟩
    cases h with
    | giveUpSending rest =>
      obtain ⟨rfl, rfl⟩ := Course.of_fail rest
      exact .cancelled fileSize
    | send sent result rest =>
      obtain ⟨rfl, rfl⟩ := Course.of_ofExcept rest
      rw [List.append_nil]
      exact .sent fits sent result
    | stalled sent result => exact .stalled fits sent result

/-- Tags are yielded only once each part has been answered for by its tag. -/
theorem SendsParts.of_ok {log : Log} {etags : OrderedMap Nat String}
    (h : p.SendsParts file plan log (.ok etags)) :
    etags = Sending.tags (Log.answers log) ∧
      (∃ tag : Nat → String, (Log.answers log).Perm
        ((Sending.numbered plan.partsUploadUrls).map (.of fun n => .ok (tag n)))) ∧
      ((Log.puts log).map (·.address)).Perm (Sending.numbered plan.partsUploadUrls) := by
  generalize hr : Except.ok etags = r at h
  cases h with
  | @sent fileSize sending t x fits course result =>
    cases x with
    | ok etags' =>
      obtain rfl := Except.ok.inj hr
      exact course.of_ok fits.positive fits.count result
    | error e => cases hr
  | zero => cases hr
  | unopened => cases hr
  | mismatch => cases hr
  | crowded => cases hr
  | cancelled => cases hr
  | stalled => cases hr

/-! ### The sending of a file -/

/-- How the sending of a file ends after the answer to the completion. -/
inductive Concludes (etags : OrderedMap Nat String) (count : Nat) :
    Reply TransferError Unit → Log → Except Stop (OrderedMap Nat String) → Prop
  | ok : Concludes etags count (.answered (.ok ())) [.acted (.emit (.completionSent count)) ()]
      (.ok etags)
  | error (e : TransferError) : Concludes etags count (.answered (.error e)) [] (.error (.failed e))
  | overrun (o : Overrun) : Concludes etags count (.overrun o) [] (.error (.overrun o))

lemma Concludes.puts_eq_nil {etags : OrderedMap Nat String} {count : Nat}
    {reply : Reply TransferError Unit} {log : Log} {r : Except Stop (OrderedMap Nat String)}
    (h : Concludes etags count reply log r) : Log.puts log = [] := by
  cases h <;> rfl

lemma Concludes.answers_eq_nil {etags : OrderedMap Nat String} {count : Nat}
    {reply : Reply TransferError Unit} {log : Log} {r : Except Stop (OrderedMap Nat String)}
    (h : Concludes etags count reply log r) : Log.answers log = [] := by
  cases h <;> rfl

variable (p file plan)

/-- A course of the sending of a file. -/
inductive SendsFile : Log → Except Stop (OrderedMap Nat String) → Prop
  | stopped {log : Log} {s : Stop} (parts : p.SendsParts file plan log (.error s)) :
    SendsFile log (.error s)
  | cancelled {log : Log} {etags : OrderedMap Nat String}
    (parts : p.SendsParts file plan log (.ok etags)) :
    SendsFile (log ++ [.asked true]) (.error (.failed .cancelled))
  | posted {log last : Log} {etags : OrderedMap Nat String} {manifest : Manifest}
    {reply : Reply TransferError Unit} {r : Except Stop (OrderedMap Nat String)}
    (parts : p.SendsParts file plan log (.ok etags))
    (ofEtags : Manifest.ofEtags etags plan.partsUploadUrls.length = .ok manifest)
    (concludes : Concludes etags manifest.parts.length reply last r) :
    SendsFile (log ++ .asked false ::
      .awaited (.call (.complete plan.completeUploadUrl manifest.toXml)) reply :: last) r

variable {p file plan}

theorem SendsFile.of_course {log : Log} {r : Except Stop (OrderedMap Nat String)}
    (h : (p.sendFile file plan).Course log r) : p.SendsFile file plan log r := by
  unfold sendFile at h
  rcases Course.of_bind h with ⟨first, rest, etags, parts, then', rfl⟩ | ⟨s, parts, rfl⟩
  swap
  · exact .stopped (.of_course parts)
  have parts := SendsParts.of_course parts
  obtain ⟨rfl, ⟨tag, answers⟩, -⟩ := parts.of_ok
  have ofEtags := Sending.ofEtags_tags answers
  simp only [ofEtags] at then'
  rcases Course.of_bind then' with ⟨second, rest, x, call, told, rfl⟩ | ⟨s, call, rfl⟩
  · obtain rfl := (Course.of_call call).of_ok
    obtain ⟨x, last, rfl, done⟩ := Course.of_perform_bind told
    obtain ⟨rfl, rfl⟩ := Course.of_pure done
    exact .posted parts ofEtags .ok
  · rcases (Course.of_call call).of_error with ⟨rfl, rfl⟩ | ⟨e, rfl, rfl⟩ | ⟨o, rfl, rfl⟩
    · exact .cancelled parts
    · exact .posted parts ofEtags (.error e)
    · exact .posted parts ofEtags (.overrun o)

/-! ### The end of a transfer -/

/-- What is told at the end asks for nothing of the other sides. -/
inductive Farewell : Log → Prop
  | none : Farewell []
  | told (phase : Phase) (event : Event) :
    Farewell [.acted (.enter phase) (), .acted (.emit event) ()]

/-- What is told at the end of a transfer that has come to a result. -/
inductive Parting {α : Type} : Except Stop (Int64 × α) → Log → Prop
  | done (jobId : Int64) (x : α) :
    Parting (.ok (jobId, x)) [.acted (.enter .done) (), .acted (.emit (.done jobId)) ()]
  | failed (e : TransferError) :
    Parting (.error (.failed e))
      [.acted (.enter (.failed e.message)) (), .acted (.emit (.failed e.message)) ()]
  | overrun (o : Overrun) : Parting (.error (.overrun o)) []
  | unfinished : Parting (.error .unfinished) []

lemma Parting.farewell {α : Type} {x : Except Stop (Int64 × α)} {last : Log} (h : Parting x last) :
    Farewell last := by
  cases h with
  | done => exact .told _ _
  | failed => exact .told _ _
  | overrun => exact .none
  | unfinished => exact .none

lemma parting_of_concluding {α : Type} {a : Activity (Int64 × α)} {log : Log} {r : Except Stop α}
    (h : (concluding a).Course log r) :
    ∃ first last x, a.Course first x ∧ Parting x last ∧ log = first ++ last ∧ r = x.map (·.2) := by
  rcases Course.of_bind h with ⟨first, rest, y, ha, hphase, rfl⟩ | ⟨s, ha, rfl⟩
  · obtain ⟨x, hx, hy⟩ := Course.of_attempt ha
    cases y with
    | ok y =>
      obtain ⟨⟨⟩, rest, rfl, hevent⟩ := Course.of_perform_bind hphase
      obtain ⟨⟨⟩, rest, rfl, hdone⟩ := Course.of_perform_bind hevent
      obtain ⟨rfl, rfl⟩ := Course.of_pure hdone
      rcases x with (_ | _ | _) | x <;> cases hy
      exact ⟨first, _, _, hx, .done _ _, rfl, rfl⟩
    | error e =>
      obtain ⟨⟨⟩, rest, rfl, hevent⟩ := Course.of_perform_bind hphase
      obtain ⟨⟨⟩, rest, rfl, hdone⟩ := Course.of_perform_bind hevent
      obtain ⟨rfl, rfl⟩ := Course.of_fail hdone
      rcases x with (_ | _ | _) | x <;> cases hy
      exact ⟨first, _, _, hx, .failed _, rfl, rfl⟩
  · obtain ⟨x, hx, hy⟩ := Course.of_attempt ha
    rcases x with (e | o | _) | x <;> cases hy
    · exact ⟨log, [], _, hx, .overrun o, by simp, rfl⟩
    · exact ⟨log, [], _, hx, .unfinished, by simp, rfl⟩

lemma of_concluding {α : Type} {a : Activity (Int64 × α)} {log : Log} {r : Except Stop α}
    (h : (concluding a).Course log r) :
    ∃ first last x, a.Course first x ∧ Farewell last ∧ log = first ++ last ∧ r = x.map (·.2) := by
  obtain ⟨first, last, x, course, parting, split, result⟩ := parting_of_concluding h
  exact ⟨first, last, x, course, parting.farewell, split, result⟩

/-! ### An upload -/

variable (p file)

/-- What the gateway is asked for before an upload. -/
def requestFor (dir name : String) (size : Nat) : UploadPlanRequest :=
  ⟨dir, name, p.account, UInt64.ofNat size⟩

/-- The notes before the first part of an upload is read. -/
def begun (dir name : String) (size : Nat) (plan : UploadPlan) : Log :=
  [.acted (.size file) (.ok size), .asked false,
    .awaited (.call (.uploadPlan (p.requestFor dir name size))) (.answered (.ok plan)),
    .acted (.emit (.planReceived plan.transferJob.jobId plan.partsUploadUrls.length)) (),
    .acted (.enter .partsUploading) ()]

/-- A course of an upload. -/
inductive Uploads (remote : String) (wait : Bool) : Log → Except Stop (Int64 × Int64) → Prop
  | misnamed {e : ChunkError} (split : RemotePath.split remote = .error e) :
    Uploads remote wait [] (.error (.failed (.chunk e)))
  | unread {dir name : String} (split : RemotePath.split remote = .ok (dir, name)) (e : IoError) :
    Uploads remote wait [.acted (.size file) (.error e)] (.error (.failed (.io e)))
  | unplanned {dir name : String} {size : Nat} {last : Log} {s : Stop}
    (split : RemotePath.split remote = .ok (dir, name))
    (waits : Waits (.call (.uploadPlan (p.requestFor dir name size))) last (.error s)) :
    Uploads remote wait (.acted (.size file) (.ok size) :: last) (.error s)
  | unsent {dir name : String} {size : Nat} {plan : UploadPlan} {sending : Log} {s : Stop}
    (split : RemotePath.split remote = .ok (dir, name))
    (sends : p.SendsFile file plan sending (.error s)) :
    Uploads remote wait (p.begun file dir name size plan ++ sending) (.error s)
  | sent {dir name : String} {size : Nat} {plan : UploadPlan} {sending : Log}
    {etags : OrderedMap Nat String} (split : RemotePath.split remote = .ok (dir, name))
    (sends : p.SendsFile file plan sending (.ok etags)) (leaves : wait = false) :
    Uploads remote wait
      (p.begun file dir name size plan ++ (sending ++ [.acted (.enter .completionSent) ()]))
      (.ok (plan.transferJob.jobId, plan.transferJob.jobId))
  | awaited {dir name : String} {size : Nat} {plan : UploadPlan} {sending polling : Log}
    {etags : OrderedMap Nat String} {x : Except Stop SchedulerJob}
    (split : RemotePath.split remote = .ok (dir, name))
    (sends : p.SendsFile file plan sending (.ok etags)) (stays : wait = true)
    (course : (Activity.waitForJob p.wait p.patience plan.transferJob.jobId).Course polling x) :
    Uploads remote wait
      (p.begun file dir name size plan ++ (sending ++ .acted (.enter .completionSent) () ::
        .acted (.enter .jobPolling) () :: polling))
      (x.map fun _ => (plan.transferJob.jobId, plan.transferJob.jobId))

variable {p file}

theorem Uploads.of_course {remote : String} {wait : Bool} {log : Log}
    {r : Except Stop (Int64 × Int64)} (h : (p.uploadSteps file remote wait).Course log r) :
    p.Uploads file remote wait log r := by
  unfold uploadSteps at h
  -- Step by step: a step that stops is the way the upload ends, any other leads on to the next.
  rcases Course.of_bind h with ⟨first, rest, ⟨dir, name⟩, hsplit, hrest, rfl⟩ | ⟨s, hsplit, rfl⟩
  swap
  · obtain ⟨rfl, hs⟩ := Course.of_ofExcept hsplit
    cases split : RemotePath.split remote with
    | ok parts =>
      rw [split] at hs
      cases hs
    | error e =>
      rw [split] at hs
      obtain rfl := Except.error.inj hs
      exact .misnamed split
  obtain ⟨rfl, hs⟩ := Course.of_ofExcept hsplit
  have split : RemotePath.split remote = .ok (dir, name) := by
    cases split : RemotePath.split remote with
    | ok parts =>
      rw [split] at hs
      cases hs
      rfl
    | error e =>
      rw [split] at hs
      cases hs
  obtain ⟨size, rest, rfl, hsize⟩ := Course.of_perform_bind hrest
  cases size with
  | error e =>
    obtain ⟨rfl, rfl⟩ := Course.of_fail hsize
    exact .unread split e
  | ok size =>
    replace hsize : ((call (.uploadPlan (p.requestFor dir name size)) >>= _) : Activity _).Course
      rest r := hsize
    rcases Course.of_bind hsize with ⟨asked, rest, plan, hplan, htold, rfl⟩ | ⟨s, hplan, rfl⟩
    swap
    · exact .unplanned split (Course.of_call hplan)
    obtain rfl := (Course.of_call hplan).of_ok
    obtain ⟨⟨⟩, rest, rfl, hphase⟩ := Course.of_perform_bind htold
    obtain ⟨⟨⟩, rest, rfl, hsend⟩ := Course.of_perform_bind hphase
    rcases Course.of_bind hsend with ⟨sending, rest, etags, hfile, hsent, rfl⟩ | ⟨s, hfile, rfl⟩
    swap
    · exact .unsent split (.of_course hfile)
    obtain ⟨⟨⟩, rest, rfl, hwait⟩ := Course.of_perform_bind hsent
    cases wait with
    | false =>
      obtain ⟨rfl, rfl⟩ := Course.of_pure hwait
      exact .sent split (.of_course hfile) rfl
    | true =>
      obtain ⟨⟨⟩, rest, rfl, hpoll⟩ := Course.of_perform_bind hwait
      rcases Course.of_bind hpoll with ⟨polling, rest, job, hjob, hdone, rfl⟩ | ⟨s, hjob, rfl⟩
      · obtain ⟨rfl, rfl⟩ := Course.of_pure hdone
        rw [List.append_nil]
        exact .awaited split (.of_course hfile) rfl hjob
      · exact .awaited split (.of_course hfile) rfl hjob

end StagedTransfer.Profile
