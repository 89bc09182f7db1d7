import StagedTransfer.Proofs.Download.Tale
import StagedTransfer.Proofs.Polling.Pauses
import StagedTransfer.Proofs.Token.Grants

/-!
# What leaves its range

A transfer is ended by a quantity that has left its range for one of three reasons: there are more
slots than can be counted, a wait for a job has no next pause, or a token has been granted up to an
instant that no calendar tells.
-/

namespace StagedTransfer

open Activity Http Wire

/-! ### Courses -/

namespace Profile

/-- Why a course ends in an overrun. -/
inductive Exceeds (p : Profile) (log : Log) : Overrun → Prop
  | answered {w : Await} {o : Overrun} (mem : .awaited w (.overrun o) ∈ log) : Exceeds p log o
  | crowded (many : slotLimit < p.slots) : Exceeds p log .slots
  | endless {k : Nat} (none' : p.wait.delayAfter? k = none) : Exceeds p log .pause

variable {p : Profile} {file remote : String} {wait : Bool} {log log' : Log} {o : Overrun}

lemma Exceeds.mono (h : p.Exceeds log o) (sub : log ⊆ log') : p.Exceeds log' o := by
  cases h with
  | answered mem => exact .answered (sub mem)
  | crowded many => exact .crowded many
  | endless none' => exact .endless none'

lemma exceeds_of_waits {w : Await} (h : Waits w log (.error (.overrun o))) : p.Exceeds log o :=
  .answered (Polling.mem_of_waits_overrun h)

lemma exceeds_of_waitForJob {jobId : Int64}
    (course : (p.waitForJob jobId).Course log (.error (.overrun o))) : p.Exceeds log o := by
  rcases Polling.overrun_of_waitFrom ⟨0, rfl⟩ course with ⟨w, mem⟩ | ⟨rfl, k, none'⟩
  · exact .answered mem
  · exact .endless none'

lemma SendsParts.exceeds {plan : UploadPlan}
    (h : p.SendsParts file plan log (.error (.overrun o))) : p.Exceeds log o := by
  generalize ended : Except.error (Stop.overrun o) = r at h
  cases h with
  | crowded _ many =>
    cases ended
    exact .crowded many
  | @sent _ _ _ x => cases x <;> cases ended
  | _ => cases ended

lemma SendsFile.exceeds {plan : UploadPlan} (h : p.SendsFile file plan log (.error (.overrun o))) :
    p.Exceeds log o := by
  generalize ended : Except.error (Stop.overrun o) = r at h
  cases h with
  | stopped parts =>
    cases ended
    exact parts.exceeds
  | cancelled => cases ended
  | posted parts ofEtags concludes =>
    cases concludes with
    | overrun o' =>
      cases ended
      exact .answered (List.mem_append_right _ (List.mem_cons_of_mem _ List.mem_cons_self))
    | ok | error => cases ended

lemma Uploads.exceeds (h : p.Uploads file remote wait log (.error (.overrun o))) :
    p.Exceeds log o := by
  generalize ended : Except.error (Stop.overrun o) = r at h
  cases h with
  | unplanned _ waits =>
    cases ended
    exact (exceeds_of_waits waits).mono (List.subset_cons_self _ _)
  | unsent _ sends =>
    cases ended
    exact sends.exceeds.mono (List.subset_append_right _ _)
  | @awaited _ _ _ _ sending polling _ x _ _ _ course =>
    cases x with
    | ok => cases ended
    | error s =>
      cases ended
      refine (exceeds_of_waitForJob course).mono fun note mem => ?_
      exact List.mem_append_right _ (List.mem_append_right _
        (List.mem_cons_of_mem _ (List.mem_cons_of_mem _ mem)))
  | _ => cases ended

lemma Downloads.exceeds (h : p.Downloads remote file log (.error (.overrun o))) :
    p.Exceeds log o := by
  generalize ended : Except.error (Stop.overrun o) = r at h
  cases h with
  | unplanned waits =>
    cases ended
    exact exceeds_of_waits waits
  | unawaited course =>
    cases ended
    exact (exceeds_of_waitForJob course).mono (List.subset_append_right _ _)
  | @fetched _ _ fetching _ x _ waits =>
    rcases x with (_ | _ | _) | x <;> cases ended
    refine (exceeds_of_waits waits).mono fun note mem => ?_
    exact List.mem_append_right _ (List.mem_append_right _
      (List.mem_cons_of_mem _ (List.mem_cons_of_mem _ mem)))

/-- What is made of the result of an activity is no overrun of its own. -/
lemma exceeds_of_bind {α β : Type} {a : Activity α} {f : α → Activity β}
    (h : (a >>= f).Course log (.error (.overrun o)))
    (first : ∀ log, a.Course log (.error (.overrun o)) → p.Exceeds log o)
    (rest : ∀ x log, (f x).Course log (.error (.overrun o)) → p.Exceeds log o) :
    p.Exceeds log o := by
  rcases Course.of_bind h with ⟨log, log', x, -, later, rfl⟩ | ⟨s, course, same⟩
  · exact (rest x log' later).mono (List.subset_append_right _ _)
  · obtain rfl := Except.error.inj same
    exact first log course

lemma exceeds_of_call {call : Call}
    (course : (Activity.call call).Course log (.error (.overrun o))) : p.Exceeds log o :=
  exceeds_of_waits (Course.of_call course)

lemma exceeds_of_ofExcept {α : Type} {x : Except TransferError α}
    (course : (ofExcept x).Course log (.error (.overrun o))) : p.Exceeds log o := by
  obtain ⟨-, same⟩ := Course.of_ofExcept course
  cases x <;> cases same

lemma exceeds_of_uploadLarge
    (course : (p.uploadLarge file remote wait).Course log (.error (.overrun o))) :
    p.Exceeds log o := by
  obtain ⟨first, last, x, steps, -, rfl, same⟩ := of_concluding course
  cases x with
  | ok => cases same
  | error s =>
    cases same
    exact (Uploads.of_course steps).exceeds.mono (List.subset_append_left _ _)

lemma exceeds_of_downloadLarge
    (course : (p.downloadLarge remote file).Course log (.error (.overrun o))) :
    p.Exceeds log o := by
  obtain ⟨first, last, x, steps, -, rfl, same⟩ := of_concluding course
  cases x with
  | ok => cases same
  | error s =>
    cases same
    exact (Downloads.of_course steps).exceeds.mono (List.subset_append_left _ _)

/-- Why the upload of a file of any size ends in an overrun. -/
theorem exceeds_of_upload
    (course : (p.upload file remote wait).Course log (.error (.overrun o))) : p.Exceeds log o := by
  obtain ⟨size, rest, rfl, known⟩ := Course.of_perform_bind course
  refine (exceeds_of_bind known (fun _ => exceeds_of_ofExcept) fun n log course => ?_).mono
    (List.subset_cons_self _ _)
  split at course
  · refine exceeds_of_bind course (fun log course => ?_) nofun
    exact exceeds_of_bind course (fun _ => exceeds_of_ofExcept) fun _ _ => exceeds_of_call
  · exact exceeds_of_bind course (fun _ => exceeds_of_uploadLarge) nofun

/-- Why the download of a file of any size ends in an overrun. -/
theorem exceeds_of_download
    (course : (p.download remote file).Course log (.error (.overrun o))) : p.Exceeds log o := by
  refine exceeds_of_bind course (fun _ => exceeds_of_call) fun stat log course => ?_
  split at course
  · exact exceeds_of_call course
  · exact exceeds_of_downloadLarge course

end Profile

/-! ### Tokens that are granted -/

section

variable {g : Gateway} {D : Diary} {k k' : Option AccessToken} {o : Overrun}

lemma Obtains.granted_of_overrun (h : Obtains k D (.overrun o) k') : .granted (.overrun o) ∈ D := by
  generalize same : Reply.overrun o = reply at h
  cases h <;> cases same
  simp

lemma Exchanges.granted_of_overrun {d : Demand} (h : Exchanges d k D (.overrun o) k') :
    .granted (.overrun o) ∈ D := by
  cases h with
  | overrun _ obtains => exact obtains.granted_of_overrun

lemma Performs.granted_of_overrun {call : Call} (h : Performs g call k D (.overrun o) k') :
    .granted (.overrun o) ∈ D := by
  generalize same : Reply.overrun o = reply at h
  cases h with
  | answered _ _ receives => cases receives <;> cases same
  | overrun _ exchanges =>
    cases same
    exact exchanges.granted_of_overrun
  | _ => cases same

/-- Nothing that is waited for is answered by an overrun but with a token that is granted so. -/
lemma Awaits.granted_of_overrun {w : Await} (h : Awaits g w k D (.overrun o) k') :
    .granted (.overrun o) ∈ D := by
  generalize same : Reply.overrun o = reply at h
  cases h with
  | callOverrun performs =>
    cases same
    exact performs.granted_of_overrun
  | refreshOverrun =>
    cases same
    exact List.mem_singleton_self _
  | _ => cases same

end

/-- What is granted comes from where the client gets its tokens. -/
def Client.account {S : Type} (c : Client (StateM S)) : Diary.Account S where
  Holds _ D _ := ∀ reply, .granted reply ∈ D → ∃ s, (c.source s).1 = reply
  nil _ := by simp
  append h h' reply mem := (List.mem_append.1 mem).elim (h reply) (h' reply)

namespace Client

variable {S : Type} (c : Client (StateM S))

lemma account_alike : c.written.Alike (.telling c.account) c.written where
  gateway         := rfl
  source p        := ⟨_, rfl, fun reply mem => ⟨p.1, by simpa [eq_comm] using mem⟩⟩
  exchange _ _    := ⟨_, rfl, by simp [account]⟩
  now _           := ⟨_, rfl, by simp [account]⟩
  pause _ _       := ⟨_, rfl, by simp [account]⟩
  cancelled p     := ⟨_, rfl, by cases (c.around.cancelled p.1).1 <;> simp [account]⟩
  size _ _        := ⟨_, rfl, by simp [account]⟩
  content _ _     := ⟨_, rfl, by simp [account]⟩
  write _ _ _     := ⟨_, rfl, by simp [account]⟩
  prefer _        := ⟨_, rfl, by simp [account]⟩
  listen _ _      := ⟨_, rfl, by simp [account]⟩
  enter _ _       := ⟨_, rfl, by simp [account]⟩

lemma granted_of_mem {α : Type} {a : Activity α} {v : Session} {s : S}
    {reply : Reply TokenError AccessToken} (mem : .granted reply ∈ c.diary a v s) :
    ∃ s, (c.source s).1 = reply :=
  diary_telling c.account_alike (by simp [account]) a v s reply mem

end Client

/-- A token endpoint leaves no range but that of the calendar. -/
lemma AccessToken.eq_expiry_of_ofGrant {text : String} {expiresIn : Option Int64} {now : Instant}
    {o : Overrun} (h : ofGrant text expiresIn now = .overrun o) : o = .expiry := by
  unfold ofGrant at h
  split at h
  · cases h
  · cases h
  · split at h <;> cases h
    rfl

lemma AccessToken.eq_expiry_of_ofResponse {r : Response} {now : Instant} {o : Overrun}
    (h : ofResponse r now = .overrun o) : o = .expiry := by
  unfold ofResponse at h
  split at h
  · cases h
  split at h
  · cases h
  split at h
  · cases h
  split at h
  · cases h
  · exact eq_expiry_of_ofGrant h

lemma Credentials.eq_expiry_of_fetch {S : Type} {c : Credentials} {around : Surroundings (StateM S)}
    {s : S} {o : Overrun} (h : (c.fetch around s).1 = .overrun o) : o = .expiry := by
  cases addressed : c.request? with
  | none =>
    rw [fetch_unaddressed addressed] at h
    cases h
  | some request =>
    cases comes : (around.exchange request s).1 with
    | lost reason =>
      rw [fetch_lost addressed comes] at h
      cases h
    | answered r =>
      rw [fetch_answered addressed comes] at h
      exact AccessToken.eq_expiry_of_ofResponse h

/-! ### Transfers -/

/-- Why a transfer ends in an overrun. -/
inductive Profile.Overruns (p : Profile) (D : Diary) : Overrun → Prop
  | slots (many : slotLimit < p.slots) : Overruns p D .slots
  | pause {k : Nat} (none' : p.wait.delayAfter? k = none) : Overruns p D .pause
  | expiry (granted : .granted (.overrun .expiry) ∈ D) : Overruns p D .expiry

/-- A transfer whose tokens are granted with credentials ends in an overrun for one of these
reasons. -/
theorem Client.overruns_of_run {S α : Type} {c : Client (StateM S)} {credentials : Credentials}
    {p : Profile} (source : c.source = credentials.fetch c.around) {a : Activity α}
    (exceeds : ∀ log o, a.Course log (.error (.overrun o)) → p.Exceeds log o) {v : Session} {s : S}
    {o : Overrun} (ended : (c.run a v s).1.1 = .error (.overrun o)) :
    p.Overruns (c.diary a v s) o := by
  obtain ⟨log, k, course, tells⟩ := c.tells a v s
  rw [ended] at course
  cases exceeds log o course with
  | crowded many => exact .slots many
  | endless none' => exact .pause none'
  | answered mem =>
    obtain ⟨_, D, _, awaits, sub⟩ := tells.awaits_within mem
    have granted := sub awaits.granted_of_overrun
    obtain ⟨t, reply⟩ := c.granted_of_mem granted
    rw [source] at reply
    obtain rfl := Credentials.eq_expiry_of_fetch reply
    exact .expiry granted

end StagedTransfer
