import StagedTransfer.Proofs.Download.Destination
import StagedTransfer.Proofs.Session.Delivery
import StagedTransfer.Proofs.Session.Routing
import StagedTransfer.Proofs.Session.Steady
import StagedTransfer.Proofs.Upload.Completion

/-!
# What a success stands for

A transfer that succeeds has come all its way. Of an upload the content of the file has gone to the
gateway in a request that was answered with a success, or to the store part by part, each of them
answered with its tag, and then the job of the plan has completed. After a download the file holds
the body of a response that has come to its end.
-/

namespace StagedTransfer

open Activity Http Wire

/-! ### Calls -/

/-- What is written down of a call that has been answered with a value. -/
inductive Succeeds (g : Gateway) (call : Call) (a : call.Answer) : Diary → Prop
  | intro {content : Bytes} {token : Option String} {q : Request} {response : Response}
    {before after : Diary} (loads : Loads call (.ok content))
    (request : (g.demand content call).request? token = some q)
    (receives : Receives call response after (.ok a)) :
    Succeeds g call a (before ++ .exchanged q (.answered response) :: after)

section

variable {g : Gateway} {call : Call} {a : call.Answer} {D : Diary} {k k' : Option AccessToken}

lemma Sends.of_ok {d : Demand} {token : Option String} {response : Response}
    (h : Sends d token D (.ok response)) :
    ∃ q, d.request? token = some q ∧ D = [.exchanged q (.answered response)] := by
  cases h with
  | answered request => exact ⟨_, request, rfl⟩

lemma Exchanges.of_ok {d : Demand} {response : Response} (h : Exchanges d k D (.ok response) k') :
    ∃ token q before, d.request? token = some q ∧
      D = before ++ [.exchanged q (.answered response)] := by
  generalize same : Reply.ok response = reply at h
  cases h with
  | plain _ sends =>
    cases same
    obtain ⟨q, request, rfl⟩ := sends.of_ok
    exact ⟨_, q, [], request, rfl⟩
  | authorized _ _ sends =>
    cases same
    obtain ⟨q, request, rfl⟩ := sends.of_ok
    exact ⟨_, q, _, request, rfl⟩
  | denied | overrun => cases same

lemma Performs.succeeds (h : Performs g call k D (.ok a) k') : Succeeds g call a D := by
  generalize same : Reply.ok a = reply at h
  cases h with
  | answered loads exchanges receives =>
    subst same
    obtain ⟨token, q, before, request, rfl⟩ := exchanges.of_ok
    rw [List.append_assoc]
    exact .intro loads request receives
  | _ => cases same

lemma Awaits.succeeds (h : Awaits g (.call call) k D (.ok a) k') : Succeeds g call a D := by
  generalize same : Reply.ok a = reply at h
  cases h with
  | @call _ _ _ _ x performs =>
    cases x with
    | ok b =>
      cases same
      exact performs.succeeds
    | error e => cases same
  | callOverrun | callCancelled => cases same

end

lemma Reply.eq_ok_of_ended {α : Type} {reply : Reply TransferError α} {a : α}
    (h : Except.ok a = reply.ended) : reply = .ok a := by
  rcases reply with (e | b) | o
  · cases h
  · cases h
    rfl
  · cases h

lemma Http.Response.success_of_checked {response r : Response} (h : response.checked = .ok r) :
    response.isSuccess = true := by
  unfold checked at h
  split at h
  · assumption
  · split at h <;> cases h

/-- A whole file has been sent only if the gateway says so. -/
lemma Receives.success {file dir name : String} {response : Response} {D : Diary}
    {a : (Call.uploadSmall file dir name).Answer}
    (h : Receives (.uploadSmall file dir name) response D (.ok a)) : response.isSuccess = true := by
  generalize same : Reply.ok a = reply at h
  cases h with
  | read =>
    have read : response.checked.map (fun _ => ()) = .ok a := (Reply.answered.inj same).symm
    cases checked : response.checked with
    | ok r => exact Http.Response.success_of_checked checked
    | error e =>
      rw [checked] at read
      cases read
  | wrote into | unwritten into => cases into

/-- The diary of a single call that has been answered with a value. -/
lemma Client.succeeds_of_call {S : Type} {c : Client (StateM S)} (call : Call) {a : call.Answer}
    {v : Session} {s : S} (ok : (c.run (Activity.call call) v s).1.1 = .ok a) :
    ∃ D, Succeeds c.gateway call a D ∧
      c.diary (Activity.call call) v s = D ++ [.awaited (.call call) (.ok a)] := by
  obtain ⟨log, k, course, tells⟩ := c.tells (Activity.call call) v s
  rw [ok] at course
  rcases tells.of_waits (Course.of_call course) with
    ⟨-, -, ⟨⟩⟩ | ⟨D, reply, awaits, written, result⟩
  obtain rfl := Reply.eq_ok_of_ended result
  exact ⟨D, awaits.succeeds, written⟩

/-- What a diary says of a note. -/
def Note.entry? : Note → Option Entry
  | .awaited w reply => some (.awaited w reply)
  | _                => none

/-- All that has been waited for stands in the diary, in order. -/
lemma Tells.sublist {g : Gateway} {log : Log} {D : Diary} {k k' : Option AccessToken}
    (h : Tells g k log D k') : (log.filterMap Note.entry?).Sublist D := by
  induction h with
  | nil => exact List.nil_sublist _
  | cancelled _ ih => exact ih.trans (List.sublist_cons_self _ _)
  | notCancelled _ ih => exact ih
  | awaited _ _ ih => exact (ih.cons_cons _).trans (List.sublist_append_right _ _)
  | acted _ _ _ ih => exact ih
  | chosen _ _ _ _ ih => exact ih.trans (List.sublist_append_right _ _)

/-! ### Parts -/

namespace Sending

/-- A part that is held when something is chosen is the slice of the file at its place. -/
lemma Course.slice_of_held {file : String} {contents : Bytes} {partSize slots fuel : Nat}
    {urls : List String} {log : Log} {t s : State} {choice : Choice} {part : Held}
    (positive : 0 < partSize) (count : urls.length = partCount contents.length partSize)
    (course : Course file fuel (.start slots (.after partSize contents.length 0) urls) log t)
    (unchanged : log.Unchanged file contents) (chosen : .chosen s choice ∈ log)
    (held : part ∈ s.held) :
    urls[part.number - 1]? = some part.url ∧
      part.data = slice contents partSize (part.number - 1) := by
  obtain ⟨before, after, split⟩ := List.append_of_mem chosen
  have reads := course.moment (Reads.kept positive count) rfl (Reads.start ..) split
  obtain ⟨contents', read, data, -⟩ := reads.held part held
  obtain rfl := Except.ok.inj
    (unchanged.content (split ▸ List.mem_append_left _ (by simpa using read)))
  exact ⟨(Sending.mem_numbered.1 (reads.toBalanced.held_mem_numbered held)).2,
    data.trans (take_sliceLength ..)⟩

end Sending

lemma Log.exists_finish {log : Log} {a : Sending.Settled} (mem : a ∈ log.answers) :
    ∃ s, .chosen s (.finish a.number a.outcome) ∈ log := by
  obtain ⟨note, chosen, answer⟩ := List.mem_filterMap.1 mem
  cases note with
  | chosen s choice =>
    cases choice with
    | finish n outcome =>
      obtain ⟨part, -, rfl⟩ := Option.map_eq_some_iff.1 answer
      exact ⟨s, chosen⟩
    | proceed | begin => cases answer
  | _ => cases answer

namespace Profile

/-- What a diary tells of a file that has gone to the store part by part, and of which the job has
completed. -/
structure GoesInParts (p : Profile) (remote : String) (contents : Bytes) (plan : UploadPlan)
    (D : Diary) : Prop where
  fits : Fits plan contents.length
  /-- The parts put together are the file. -/
  whole : ((List.range plan.partsUploadUrls.length).map
    (slice contents plan.maxPartSize.toNat)).flatten = contents
  /-- Each part has been sent to its address and answered with its tag; then all tags have been told
  to the store, and after that the job has completed. -/
  stages : ∃ dir name job, ∃ tag : Nat → String, RemotePath.split remote = .ok (dir, name) ∧
    (∀ n url, plan.partsUploadUrls[n]? = some url → ∃ q response,
      (Store.put url (slice contents plan.maxPartSize.toNat n)).request? none = some q ∧
        .exchanged q (.answered response) ∈ D ∧ response.etag = .ok (tag (n + 1))) ∧
    [.awaited (.call (.uploadPlan (p.requestFor dir name contents.length))) (.ok plan),
      .awaited (.call (.complete plan.completeUploadUrl (manifestOf plan tag))) (.ok ()),
      .awaited (.call (.job plan.transferJob.jobId)) (.ok job)].Sublist D ∧
    Polling.reportOf job = some "COMPLETED"

/-- What a log tells of a file of which all parts have been sent and answered with their tags. -/
structure SendsAll (file : String) (plan : UploadPlan) (contents : Bytes) (tag : Nat → String)
    (log : Log) : Prop where
  fits : Fits plan contents.length
  answered : ∀ n url, plan.partsUploadUrls[n]? = some url →
    ∃ s, .chosen s (.finish (n + 1) (.ok (tag (n + 1)))) ∈ log
  held : ∀ s choice part, .chosen s choice ∈ log → part ∈ s.held →
    plan.partsUploadUrls[part.number - 1]? = some part.url ∧
      part.data = slice contents plan.maxPartSize.toNat (part.number - 1)

variable {p : Profile} {file remote : String} {plan : UploadPlan} {contents : Bytes} {log : Log}
  {etags : OrderedMap Nat String}

/-- Tags are yielded only if parts have been sent. -/
lemma SendsParts.exists_sending (h : p.SendsParts file plan log (.ok etags)) :
    ∃ fileSize sending t, Fits plan fileSize ∧
      Sending.Course file (p.startOf plan fileSize).moveBound (p.startOf plan fileSize) sending t ∧
      log = .acted (.size file) (.ok fileSize) :: .asked false :: sending := by
  generalize ended : Except.ok etags = r at h
  cases h with
  | sent fits course => exact ⟨_, _, _, fits, course, rfl⟩
  | _ => cases ended

lemma SendsParts.sendsAll (h : p.SendsParts file plan log (.ok etags))
    (unchanged : log.Unchanged file contents) :
    ∃ tag, SendsAll file plan contents tag log ∧
      Manifest.ofEtags etags plan.partsUploadUrls.length =
        .ok ⟨(List.range' 1 plan.partsUploadUrls.length).map fun n => (n, tag n)⟩ := by
  obtain ⟨rfl, ⟨tag, answers⟩, -⟩ := h.of_ok
  obtain ⟨fileSize, sending, t, fits, course, rfl⟩ := h.exists_sending
  obtain rfl := Except.ok.inj (unchanged.size List.mem_cons_self)
  refine ⟨tag, ⟨fits, fun n url place => ?_, fun s choice part chosen held => ?_⟩,
    Sending.ofEtags_tags answers⟩
  · have address : (n + 1, url) ∈ Sending.numbered plan.partsUploadUrls :=
      Sending.mem_numbered.2 ⟨Nat.succ_pos n, place⟩
    exact Log.exists_finish (answers.symm.subset (List.mem_map_of_mem address))
  · have chosen : .chosen s choice ∈ sending := by simpa using chosen
    have sub : sending ⊆ .acted (.size file) (.ok contents.length) :: .asked false :: sending :=
      fun note mem => List.mem_cons_of_mem _ (List.mem_cons_of_mem _ mem)
    exact course.slice_of_held fits.positive fits.count (unchanged.subset sub) chosen held

lemma SendsAll.mono {tag : Nat → String} {log' : Log} (h : SendsAll file plan contents tag log)
    (sub : log ⊆ log') (only : ∀ s choice, .chosen s choice ∈ log' → .chosen s choice ∈ log) :
    SendsAll file plan contents tag log' where
  fits := h.fits
  answered n url place := by
    obtain ⟨s, chosen⟩ := h.answered n url place
    exact ⟨s, sub chosen⟩
  held s choice part chosen := h.held s choice part (only s choice chosen)

lemma SendsFile.sendsAll (h : p.SendsFile file plan log (.ok etags))
    (unchanged : log.Unchanged file contents) :
    ∃ tag, SendsAll file plan contents tag log ∧
      .awaited (.call (.complete plan.completeUploadUrl (manifestOf plan tag))) (.ok ()) ∈ log := by
  generalize ended : Except.ok etags = r at h
  cases h with
  | stopped | cancelled => cases ended
  | @posted log last etags manifest reply r parts ofEtags concludes =>
    obtain ⟨tag, sent, listed⟩ :=
      parts.sendsAll (unchanged.subset (List.subset_append_left _ _))
    obtain rfl := Except.ok.inj (ofEtags.symm.trans listed)
    cases concludes with
    | ok =>
      refine ⟨tag, sent.mono (List.subset_append_left _ _) fun s choice mem => ?_, ?_⟩
      · simpa using mem
      · exact List.mem_append_right _ (List.mem_cons_of_mem _ List.mem_cons_self)
    | error | overrun => cases ended

/-- What the log of an upload in parts tells that has been waited for and has succeeded. -/
lemma sendsAll_of_uploadLarge {jobId : Int64}
    (course : (p.uploadLarge file remote true).Course log (.ok jobId))
    (unchanged : log.Unchanged file contents) :
    ∃ dir name plan tag job, RemotePath.split remote = .ok (dir, name) ∧
      jobId = plan.transferJob.jobId ∧ SendsAll file plan contents tag log ∧
      Polling.reportOf job = some "COMPLETED" ∧
      [Note.awaited (.call (.uploadPlan (p.requestFor dir name contents.length))) (.ok plan),
        .awaited (.call (.complete plan.completeUploadUrl (manifestOf plan tag))) (.ok ()),
        .awaited (.call (.job plan.transferJob.jobId)) (.ok job)].Sublist log := by
  obtain ⟨first, last, x, steps, farewell, rfl, result⟩ := of_concluding course
  have uploads := Uploads.of_course steps
  obtain ⟨ids, rfl⟩ : ∃ ids, x = .ok ids := by
    cases x with
    | ok ids => exact ⟨ids, rfl⟩
    | error s => cases result
  generalize ended : Except.ok ids = r at uploads
  -- Of the ways an upload can go only the awaited one ends well here, and only with a job.
  cases uploads with
  | @awaited dir name size plan sending polling etags y split sends _ polled =>
    cases y with
    | error s => cases ended
    | ok job =>
      cases ended
      obtain rfl := Except.ok.inj (unchanged.size (x := .ok size) (by simp [begun]))
      obtain ⟨tag, sent, completed⟩ := sends.sendsAll (unchanged.subset (by simp))
      obtain ⟨report, told⟩ := waitFrom_completed polled
      refine ⟨dir, name, plan, tag, job, split, Except.ok.inj result, ?_, report, ?_⟩
      · refine sent.mono (by simp) fun s choice mem => ?_
        have unsent : .chosen s choice ∉ polling := fun mem => early_of_waitForJob polled _ mem
        simpa [begun, unsent, farewell.not_mem_chosen] using mem
      · have planned : [Note.awaited (.call (.uploadPlan (p.requestFor dir name contents.length)))
            (.ok plan)].Sublist (p.begun file dir name contents.length plan) := by
          simp [begun, Reply.ok]
        refine (planned.append ((List.singleton_sublist.2 completed).append ?_)).trans
          (List.sublist_append_left _ last)
        exact List.singleton_sublist.2
          (List.mem_cons_of_mem _ (List.mem_cons_of_mem _ told))
  | sent _ _ leaves => cases leaves
  | _ => cases ended

end Profile

/-! ### Uploads -/

namespace Client

variable {S : Type} {c : Client (StateM S)} {disk : S → Disk} {p : Profile} {file remote : String}
  {contents : Bytes} {v : Session} {s : S}

/-- An upload in parts that has been waited for and has succeeded has sent all of the file. -/
theorem LivesOn.goesInParts (lives : c.LivesOn disk) (idle : v.flights = [])
    (held : (disk s).content file = .ok contents) {jobId : Int64}
    (ok : (c.run (p.uploadLarge file remote true) v s).1.1 = .ok jobId) :
    ∃ plan, p.GoesInParts remote contents plan (c.diary (p.uploadLarge file remote true) v s) ∧
      jobId = plan.transferJob.jobId := by
  obtain ⟨log, y, course, leads, ends⟩ := c.exists_leads (p.uploadLarge file remote true) v s
  obtain ⟨D, written, tells⟩ := c.tells_of_leads leads
  obtain rfl : c.diary (p.uploadLarge file remote true) v s = D :=
    (congrArg Prod.snd ends).symm.trans written
  rw [ok] at course
  have nothing : log.FetchesNothing := fun call reply mem => by
    cases Profile.ofUpload_of_course course mem <;> rfl
  have known : Known log ((v, s, []) : Session × S × Diary) := fun n outcome mem => by
    simp [idle] at mem
  obtain ⟨dir, name, plan, tag, job, split, id, sent, report, stages⟩ :=
    Profile.sendsAll_of_uploadLarge course (lives.unchanged leads nothing held).2
  refine ⟨plan, ⟨sent.fits, ?_, dir, name, job, tag, split, fun n url place => ?_, ?_, report⟩, id⟩
  · rw [sent.fits.count]
    exact flatten_slice_partCount sent.fits.positive contents
  · -- the tag is that of the part with this number, which was held when it went on its way
    obtain ⟨t, answered⟩ := sent.answered n url place
    have carried := carried_of_leads leads (List.Subset.refl log) known t _ _ answered
    obtain ⟨u, part, q, response, chosen, here, number, request, exchanged, etag⟩ := carried.of_ok
    obtain ⟨address, data⟩ := sent.held u _ part chosen here
    rw [number, Nat.add_sub_cancel] at address data
    obtain rfl := Option.some.inj (place.symm.trans address)
    exact ⟨q, response, data ▸ request, by rwa [ends] at exchanged, etag⟩
  · exact (stages.filterMap Note.entry?).trans tells.sublist

/-- A file on the disk is found as it is. -/
lemma LivesOn.findsFile (lives : c.LivesOn disk) (held : (disk s).content file = .ok contents) :
    c.Finds file contents.length (.ok contents) s := by
  have size : (disk s).size file = .ok contents.length := Disk.size_of_content held
  change ((c.around.size file s).1, (c.around.size file _).1, (c.around.content file _).1) = _
  rw [(lives.finds _ _).1, (lives.finds _ _).1, (lives.finds _ _).2]
  simp only [lives.size, lives.cancelled]
  rw [size, held]

end Client

/-- What a diary tells of a file that has been uploaded, with the number of its job if any. -/
inductive Profile.Delivered (p : Profile) (g : Gateway) (remote : String) (contents : Bytes)
    (D : Diary) : Option Int64 → Prop
  /-- A small file has gone to the gateway as a whole, which has answered with a success. -/
  | whole {dir name : String} {token : Option String} {q : Request} {response : Response}
    (small : contents.length ≤ g.smallLimit) (named : RemotePath.split remote = .ok (dir, name))
    (request : (g.sendWhole dir name contents).request? token = some q)
    (sent : .exchanged q (.answered response) ∈ D) (success : response.isSuccess = true) :
    Delivered p g remote contents D none
  | parts {plan : UploadPlan} (large : g.smallLimit < contents.length)
    (goes : p.GoesInParts remote contents plan D) :
    Delivered p g remote contents D (some plan.transferJob.jobId)

namespace Client

variable {S : Type} {c : Client (StateM S)} {disk : S → Disk} {p : Profile} {file remote : String}
  {contents : Bytes} {v : Session} {s : S}

/-- A whole file that has been sent has a remote name. -/
lemma succeeds_of_uploadSmall {a : Unit}
    (ok : (c.run (Profile.uploadSmall file remote) v s).1.1 = .ok a) :
    ∃ dir name D tail, Succeeds c.gateway (.uploadSmall file dir name) a D ∧
      c.diary (Profile.uploadSmall file remote) v s = D ++ tail := by
  cases split : RemotePath.split remote with
  | ok path =>
    have named : Profile.uploadSmall file remote =
        Activity.call (.uploadSmall file path.1 path.2) := by
      rw [Profile.uploadSmall, split]
      rfl
    rw [named] at ok ⊢
    obtain ⟨D, succeeds, written⟩ := succeeds_of_call (.uploadSmall file path.1 path.2) ok
    exact ⟨path.1, path.2, D, _, succeeds, written⟩
  | error e =>
    have misnamed : Profile.uploadSmall file remote = fail (.chunk e) := by
      rw [Profile.uploadSmall, split]
      rfl
    rw [misnamed] at ok
    cases ok

/-- A small file that has been uploaded has been sent. -/
lemma LivesOn.delivered_whole (lives : c.LivesOn disk) (agree : p.smallLimit = c.gateway.smallLimit)
    (small : contents.length ≤ c.gateway.smallLimit)
    (held : (disk s).content file = .ok contents) {job : Option Int64}
    (ok : (c.run (p.upload file remote true) v s).1.1 = .ok job) :
    p.Delivered c.gateway remote contents (c.diary (p.upload file remote true) v s) job := by
  have found := lives.findsFile held
  have bySize : p.UploadsBySize c v s file remote true contents.length :=
    Profile.uploadsBySize agree
  have goes := (bySize.whole small _ found).requests
  have known : c.run (p.upload file remote true) v s = _ ∧
      c.diary (p.upload file remote true) v s = _ := Profile.run_upload found.each.1
  obtain ⟨run, diary⟩ := known
  obtain ⟨run', diary'⟩ := c.run_map (a := Profile.uploadSmall file remote) (v := v)
    (s := (c.around.size file s).2) fun _ => (none : Option Int64)
  rw [Profile.uploadKnown, if_pos (agree ▸ small)] at run diary
  rw [run, run'] at ok
  rw [diary, diary'] at goes ⊢
  cases sent : (c.run (Profile.uploadSmall file remote) v (c.around.size file s).2).1.1 with
  | error e =>
    rw [sent] at ok
    cases ok
  | ok a =>
    rw [sent] at ok
    obtain rfl : none = job := Except.ok.inj ok
    obtain ⟨dir, name, D, tail, succeeds, written⟩ := succeeds_of_uploadSmall sent
    rw [written] at goes ⊢
    cases succeeds with
    | @intro _ _ q response before after loads request receives =>
      have mem : Entry.exchanged q (.answered response) ∈
          (before ++ .exchanged q (.answered response) :: after) ++ tail := by simp
      -- no request is sent but that of the content which has been found
      obtain ⟨_, _, _, _, split, same, request⟩ := goes.only q (Diary.mem_requests.2 ⟨_, mem⟩)
      obtain rfl := Except.ok.inj same
      exact .whole small split request mem receives.success

/-- A large file that has been uploaded has been sent part by part. -/
lemma LivesOn.delivered_parts (lives : c.LivesOn disk) (agree : p.smallLimit = c.gateway.smallLimit)
    (idle : v.flights = []) (large : c.gateway.smallLimit < contents.length)
    (held : (disk s).content file = .ok contents) {job : Option Int64}
    (ok : (c.run (p.upload file remote true) v s).1.1 = .ok job) :
    p.Delivered c.gateway remote contents (c.diary (p.upload file remote true) v s) job := by
  have bySize : p.UploadsBySize c v s file remote true contents.length :=
    Profile.uploadsBySize agree
  obtain ⟨run, diary, -⟩ := bySize.parts large (lives.findsFile held).each.1
  rw [run] at ok
  rw [diary]
  cases sent : (c.run (p.uploadLarge file remote true) v (c.around.size file s).2).1.1 with
  | error e =>
    rw [sent] at ok
    cases ok
  | ok jobId =>
    rw [sent] at ok
    obtain rfl : some jobId = job := Except.ok.inj ok
    have held : (disk (c.around.size file s).2).content file = .ok contents := by
      rw [lives.size, held]
    obtain ⟨plan, goes, rfl⟩ := lives.goesInParts idle held sent
    exact .parts large goes

/-- A file that has been uploaded has been sent on the way that its size asks for. -/
theorem LivesOn.delivered (lives : c.LivesOn disk) (agree : p.smallLimit = c.gateway.smallLimit)
    (idle : v.flights = []) (held : (disk s).content file = .ok contents) {job : Option Int64}
    (ok : (c.run (p.upload file remote true) v s).1.1 = .ok job) :
    p.Delivered c.gateway remote contents (c.diary (p.upload file remote true) v s) job := by
  by_cases small : contents.length ≤ c.gateway.smallLimit
  · exact lives.delivered_whole agree small held ok
  · exact lives.delivered_parts agree idle (Nat.lt_of_not_le small) held ok

end Client

/-! ### Downloads -/

/-- What a diary tells of a file that has been downloaded: its size is asked for, and then what has
come at last is the body of a response, which goes into the file. -/
inductive Profile.Collected (p : Profile) (g : Gateway) (remote file : String) :
    Bytes → Diary → Prop
  /-- A small file comes from the gateway as a whole. -/
  | whole {stat : FileStat} {asked before : Diary} {token : Option String} {q : Request}
    {response : Response} (told : .awaited (.call (.stat remote)) (.ok stat) ∈ asked)
    (small : stat.size.toNat ≤ g.smallLimit)
    (request : (g.demand [] (.downloadSmall remote file)).request? token = some q)
    (success : response.isSuccess = true) (whole : response.whole = true) :
    Collected p g remote file response.body (asked ++ (before ++
      [.exchanged q (.answered response), .wrote file response.body (.ok ()),
        .awaited (.call (.downloadSmall remote file)) (.ok response.body.length)]))
  /-- A large one comes from the store after the job of its plan has completed. -/
  | store {stat : FileStat} {asked here : Diary} {plan : DownloadPlan} {response : Response}
    (told : .awaited (.call (.stat remote)) (.ok stat) ∈ asked)
    (large : g.smallLimit < stat.size.toNat) (served : p.Served remote plan response here)
    (whole : response.whole = true) :
    Collected p g remote file response.body (asked ++ (here ++
      [.wrote file response.body (.ok ()),
        .awaited (.call (.fetch plan.downloadUrl file)) (.ok response.body.length)]))

lemma Http.Response.whole_of_successBody {r : Response} {size : Nat}
    (h : r.successBody.map List.length = .ok size) : r.whole = true ∧ size = r.body.length := by
  cases success : r.isSuccess with
  | false =>
    obtain ⟨e, failed⟩ := successBody_of_failure success
    rw [failed] at h
    cases h
  | true =>
    rw [successBody_of_success success, bytes] at h
    split at h
    · next whole => exact ⟨whole, (Except.ok.inj h).symm⟩
    · cases h

/-- What has been fetched as a whole has come to its end and goes into its file. -/
lemma Receives.of_downloadSmall {remote file : String} {response : Response} {D : Diary}
    {size : (Call.downloadSmall remote file).Answer}
    (h : Receives (.downloadSmall remote file) response D (.ok size)) :
    response.isSuccess = true ∧ response.whole = true ∧ size = response.body.length ∧
      D = [.wrote file response.body (.ok ())] := by
  generalize same : Reply.ok size = reply at h
  cases h with
  | read elsewhere =>
    obtain ⟨⟨⟩⟩ | failure := elsewhere
    obtain ⟨e, failed⟩ := Response.successBody_of_failure failure
    have read : response.successBody.map List.length = .ok size := (Reply.answered.inj same).symm
    rw [failed] at read
    cases read
  | wrote into success =>
    obtain ⟨rfl⟩ := into
    obtain ⟨whole, length⟩ :=
      Response.whole_of_successBody (Reply.answered.inj same).symm
    exact ⟨success, whole, length, rfl⟩
  | unwritten => cases same

namespace Client

variable {S : Type} {c : Client (StateM S)} {disk : S → Disk} {p : Profile} {file remote : String}
  {v : Session} {s : S}

/-- The tale of a run of a download through the store. -/
lemma tale_of_downloadLarge : p.Tale remote file (c.diary (p.downloadLarge remote file) v s)
    (c.run (p.downloadLarge remote file) v s).1.1 := by
  obtain ⟨log, k, course, tells⟩ := c.tells (p.downloadLarge remote file) v s
  obtain ⟨first, last, r, steps, farewell, rfl, result⟩ := Profile.of_concluding course
  obtain ⟨D, _, _, told, told', written⟩ := tells.of_append
  obtain rfl := farewell.unwritten told'
  rw [written, List.append_nil, result]
  exact Profile.Tale.of_downloads (Profile.Downloads.of_course steps) told

/-- After a download the file holds what has come at last. -/
theorem WritesOn.collected (writes : c.WritesOn disk) (agree : p.smallLimit = c.gateway.smallLimit)
    {size : Nat} (ok : (c.run (p.download remote file) v s).1.1 = .ok size) :
    ∃ received, p.Collected c.gateway remote file received (c.diary (p.download remote file) v s) ∧
      (disk (c.run (p.download remote file) v s).2).content file = .ok received := by
  have bySize : p.DownloadsBySize c v s remote file := Profile.downloadsBySize agree
  cases known : (c.run (Activity.call (.stat remote)) v s).1.1 with
  | error e =>
    rw [(bySize.unknown e known).1] at ok
    cases ok
  | ok stat =>
    obtain ⟨asked, -, written⟩ := succeeds_of_call (.stat remote) known
    have told : .awaited (.call (.stat remote)) (.ok stat) ∈
        c.diary (Activity.call (.stat remote)) v s := by
      rw [written]
      exact List.mem_append_right _ (List.mem_singleton_self _)
    -- Below the limit the body comes from the gateway, above it from the store.
    by_cases small : stat.size.toNat ≤ c.gateway.smallLimit
    · obtain ⟨run, diary, -⟩ := bySize.whole stat known small
      rw [run] at ok
      obtain ⟨D, succeeds, written⟩ := succeeds_of_call (.downloadSmall remote file) ok
      have replays := writes.replays (Profile.downloadSmall remote file)
        (c.run (Activity.call (.stat remote)) v s).1.2 (c.run (Activity.call (.stat remote)) v s).2
      cases succeeds with
      | @intro _ token q response before after loads request receives =>
        obtain rfl := loads.eq_nil nofun
        obtain ⟨success, whole, rfl, rfl⟩ := receives.of_downloadSmall
        have written : c.diary (Profile.downloadSmall remote file)
            (c.run (Activity.call (.stat remote)) v s).1.2
            (c.run (Activity.call (.stat remote)) v s).2 =
              before ++ [.exchanged q (.answered response), .wrote file response.body (.ok ()),
                .awaited (.call (.downloadSmall remote file)) (.ok response.body.length)] :=
          written.trans (by simp)
        rw [written] at replays
        rw [run, diary, written]
        exact ⟨response.body, .whole told small request success whole,
          Replays.content_of_wrote (D := before ++ [.exchanged q (.answered response)])
            (by simpa using replays) (by simp)⟩
    · obtain ⟨run, diary, -⟩ := bySize.store stat known (Nat.lt_of_not_le small)
      rw [run] at ok
      obtain ⟨here, plan, response, served, written, whole, content, rfl⟩ :=
        tale_of_downloadLarge.landed (writes.replays (p.downloadLarge remote file) _ _) ok
      rw [run, diary, written]
      exact ⟨response.body, .store told (Nat.lt_of_not_le small) served whole, content⟩

end Client

end StagedTransfer
