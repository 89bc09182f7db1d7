import StagedTransfer.Proofs.Polling.Decision
import StagedTransfer.Proofs.Sending.Progress
import StagedTransfer.Proofs.Upload.Stages

/-!
# The order of an upload

The gateway is asked for a plan, the parts are sent, their completion is posted, and the job is
asked for. Wherever an upload ends, what has gone out is the beginning of that order, and an upload
that succeeds has gone through all of it.
-/

namespace StagedTransfer

open Activity Wire

/-! ### What goes out -/

/-- What goes out to the gateway or to the store. -/
inductive Issued
  | call (c : Call)
  | put (h : Sending.Held)

def Note.issued? : Note → Option Issued
  | .awaited (.call c) _ => some (.call c)
  | .chosen s c          => (s.put? c).map .put
  | _                    => none

namespace Log

/-- All that goes out in a run, in order. -/
def issued (log : Log) : List Issued :=
  log.filterMap Note.issued?

@[simp] lemma issued_append (first rest : Log) :
    issued (first ++ rest) = issued first ++ issued rest :=
  List.filterMap_append

end Log

/-- Nothing but parts goes out while parts are sent. -/
lemma Sending.Course.issued_eq {file : String} {fuel : Nat} {s t : Sending.State} {log : Log}
    (h : Sending.Course file fuel s log t) : Log.issued log = (Log.puts log).map .put := by
  rw [Log.issued, Log.puts, List.map_filterMap]
  apply List.filterMap_congr
  intro note hn
  cases h.asks hn <;> rfl

/-- Nothing but questions for the job goes out while it is waited for. -/
lemma issued_of_waitFrom {w : WaitPlan} {jobId : Int64} {rounds left : Nat} {delay : Span}
    {log : Log} {r : Except Stop SchedulerJob}
    (h : (waitFrom w jobId rounds left delay).Course log r) :
    ∃ n, Log.issued log = List.replicate n (.call (.job jobId)) := by
  refine ⟨_, List.eq_replicate_of_mem fun issued hi => ?_⟩
  obtain ⟨note, hn, hi⟩ := List.mem_filterMap.1 hi
  cases waitFrom_asks h hn with
  | job reply => exact (Option.some.inj hi).symm
  | _ => cases hi

/-- No part is sent while a job is waited for. -/
lemma puts_of_waitFrom {w : WaitPlan} {jobId : Int64} {rounds left : Nat} {delay : Span}
    {log : Log} {r : Except Stop SchedulerJob}
    (h : (waitFrom w jobId rounds left delay).Course log r) : Log.puts log = [] := by
  rw [Log.puts, List.filterMap_eq_nil_iff]
  intro note hn
  cases waitFrom_asks h hn <;> rfl

namespace Profile

variable {p : Profile} {file : String} {plan : UploadPlan}

lemma SendsParts.issued_eq {log : Log} {r : Except Stop (OrderedMap Nat String)}
    (h : p.SendsParts file plan log r) : Log.issued log = (Log.puts log).map .put := by
  cases h with
  | sent _ course _ => exact course.issued_eq
  | stalled _ course _ => exact course.issued_eq
  | _ => rfl

/-- No part goes on its way twice. -/
lemma SendsParts.subperm_puts {log : Log} {r : Except Stop (OrderedMap Nat String)}
    (h : p.SendsParts file plan log r) :
    ((Log.puts log).map (·.address)).Subperm (Sending.numbered plan.partsUploadUrls) := by
  cases h with
  | sent fits course _ =>
    have once := course.subperm_puts fits.positive fits.count
    exact once
  | stalled fits course _ =>
    have once := course.subperm_puts fits.positive fits.count
    exact once
  | _ => exact List.nil_subperm

/-- The parts that have been sent are as long together as the file was. -/
lemma SendsParts.sum_puts {log : Log} {etags : OrderedMap Nat String}
    (h : p.SendsParts file plan log (.ok etags)) :
    ∃ fileSize, .acted (.size file) (.ok fileSize) ∈ log ∧
      ((Log.puts log).map (·.data.length)).sum = fileSize := by
  obtain ⟨-, -, puts⟩ := h.of_ok
  generalize hr : Except.ok etags = r at h
  cases h with
  | @sent fileSize sending t x fits course _ =>
    refine ⟨fileSize, List.mem_cons_self, ?_⟩
    change ((Log.puts sending).map (·.address)).Perm _ at puts
    change ((Log.puts sending).map (·.data.length)).sum = fileSize
    have lengths : (Log.puts sending).map (·.data.length) =
        ((Log.puts sending).map (·.address)).map
          fun part => sliceLength fileSize plan.maxPartSize.toNat (part.1 - 1) := by
      rw [List.map_map]
      refine List.map_congr_left fun h hh => ?_
      obtain ⟨-, contents, -, -, length⟩ := course.holds fits.positive fits.count hh
      exact length
    rw [lengths, (puts.map _).sum_eq,
      Sending.map_numbered (sliceLength fileSize plan.maxPartSize.toNat), fits.count,
      sum_sliceLength_partCount fits.positive]
  | _ => cases hr

lemma SendsFile.subperm_puts {log : Log} {r : Except Stop (OrderedMap Nat String)}
    (h : p.SendsFile file plan log r) :
    ((Log.puts log).map (·.address)).Subperm (Sending.numbered plan.partsUploadUrls) := by
  cases h with
  | stopped parts => exact parts.subperm_puts
  | @cancelled log etags parts =>
    rw [Log.puts_append]
    exact (List.append_nil (Log.puts log)).symm ▸ parts.subperm_puts
  | @posted log last _ _ _ _ parts _ concludes =>
    rw [Log.puts_append]
    change ((Log.puts log ++ Log.puts last).map _).Subperm _
    rw [concludes.puts_eq_nil, List.append_nil]
    exact parts.subperm_puts

/-! ### The order -/

/-- The beginning of an upload, of which a log tells the answers: a plan, parts of it, their
completion, and questions for its job if it is waited for. -/
inductive InOrder (wait : Bool) (log : Log) : List Issued → Prop
  | nothing : InOrder wait log []
  | planned (request : UploadPlanRequest) : InOrder wait log [.call (.uploadPlan request)]
  | sending {request : UploadPlanRequest} {plan : UploadPlan} {puts : List Sending.Held}
    (answered : .awaited (.call (.uploadPlan request)) (.answered (.ok plan)) ∈ log)
    (once : (puts.map (·.address)).Subperm (Sending.numbered plan.partsUploadUrls)) :
    InOrder wait log (.call (.uploadPlan request) :: puts.map .put)
  | completing {request : UploadPlanRequest} {plan : UploadPlan} {puts : List Sending.Held}
    {manifest : String}
    (answered : .awaited (.call (.uploadPlan request)) (.answered (.ok plan)) ∈ log)
    (once : (puts.map (·.address)).Perm (Sending.numbered plan.partsUploadUrls)) :
    InOrder wait log (.call (.uploadPlan request) :: (puts.map .put ++
      [.call (.complete plan.completeUploadUrl manifest)]))
  | asking {request : UploadPlanRequest} {plan : UploadPlan} {puts : List Sending.Held}
    {manifest : String} (n : Nat)
    (answered : .awaited (.call (.uploadPlan request)) (.answered (.ok plan)) ∈ log)
    (once : (puts.map (·.address)).Perm (Sending.numbered plan.partsUploadUrls))
    (completed : .awaited (.call (.complete plan.completeUploadUrl manifest)) (.answered (.ok ())) ∈
      log) (waits : wait = true) :
    InOrder wait log (.call (.uploadPlan request) :: (puts.map .put ++
      .call (.complete plan.completeUploadUrl manifest) ::
        List.replicate n (.call (.job plan.transferJob.jobId))))

/-- An upload that has gone through the whole order. -/
structure GoneThrough (wait : Bool) (log : Log) (plan : UploadPlan) : Prop where
  planned   : ∃ request, .awaited (.call (.uploadPlan request)) (.answered (.ok plan)) ∈ log
  completed : ∃ manifest,
    .awaited (.call (.complete plan.completeUploadUrl manifest)) (.answered (.ok ())) ∈ log
  ended     : wait = true → ∃ job, (Log.jobAnswers log).getLast? = some (.ok job) ∧
    Polling.reportOf job = some "COMPLETED"

lemma Farewell.issued_eq_nil {log : Log} (h : Farewell log) : Log.issued log = [] := by
  cases h <;> rfl

lemma Farewell.puts_eq_nil {log : Log} (h : Farewell log) : Log.puts log = [] := by
  cases h <;> rfl

lemma Farewell.jobAnswers_eq_nil {log : Log} (h : Farewell log) : Log.jobAnswers log = [] := by
  cases h <;> rfl

lemma InOrder.mono {wait : Bool} {log log' : Log} {issued : List Issued} (sub : log ⊆ log')
    (h : InOrder wait log issued) : InOrder wait log' issued := by
  cases h with
  | nothing => exact .nothing
  | planned request => exact .planned request
  | sending answered once => exact .sending (sub answered) once
  | completing answered once => exact .completing (sub answered) once
  | asking n answered once completed waits =>
    exact .asking n (sub answered) once (sub completed) waits

/-- What goes out while a file is sent: its parts, and their completion if all have arrived. -/
lemma SendsFile.issued_cases {log : Log} {r : Except Stop (OrderedMap Nat String)}
    (h : p.SendsFile file plan log r) :
    ((∃ s, r = .error s) ∧ Log.issued log = (Log.puts log).map .put) ∨
      ∃ manifest, ((Log.puts log).map (·.address)).Perm (Sending.numbered plan.partsUploadUrls) ∧
        Log.issued log =
          (Log.puts log).map .put ++ [.call (.complete plan.completeUploadUrl manifest)] ∧
        ∀ etags, r = .ok etags → .awaited (.call (.complete plan.completeUploadUrl manifest))
          (.answered (.ok ())) ∈ log := by
  cases h with
  | @stopped log s parts => exact .inl ⟨⟨s, rfl⟩, parts.issued_eq⟩
  | cancelled parts =>
    refine .inl ⟨⟨_, rfl⟩, ?_⟩
    rw [Log.issued_append, Log.puts_append, List.map_append, parts.issued_eq]
    rfl
  | @posted log last etags manifest reply r parts _ concludes =>
    have puts : Log.puts (log ++ .asked false :: .awaited (.call (.complete plan.completeUploadUrl
        manifest.toXml)) reply :: last) = Log.puts log := by
      rw [Log.puts_append]
      change Log.puts log ++ Log.puts last = _
      rw [concludes.puts_eq_nil, List.append_nil]
    refine .inr ⟨manifest.toXml, ?_, ?_, ?_⟩
    · rw [puts]
      exact parts.of_ok.2.2
    · rw [puts, Log.issued_append, parts.issued_eq]
      cases concludes <;> rfl
    · rintro etags' rfl
      cases concludes
      exact List.mem_append_right _ (List.mem_cons_of_mem _ List.mem_cons_self)

variable {remote : String} {wait : Bool}

variable (p file) in
lemma mem_begun (dir name : String) (size : Nat) (plan : UploadPlan) (rest : Log) :
    .awaited (.call (.uploadPlan (p.requestFor dir name size))) (.answered (.ok plan)) ∈
      p.begun file dir name size plan ++ rest :=
  List.mem_append_left _ (by simp [begun])

lemma Uploads.inOrder {log : Log} {r : Except Stop (Int64 × Int64)}
    (h : p.Uploads file remote wait log r) : InOrder wait log (Log.issued log) := by
  cases h with
  | misnamed => exact .nothing
  | unread => exact .nothing
  | unplanned _ waits =>
    rcases waits.of_error with ⟨rfl, -⟩ | ⟨e, rfl, -⟩ | ⟨o, rfl, -⟩
    · exact .nothing
    · exact .planned _
    · exact .planned _
  | @unsent dir name size plan sending s _ sends =>
    have answered := mem_begun p file dir name size plan sending
    rw [Log.issued_append]
    change InOrder wait _ (_ :: Log.issued sending)
    rcases sends.issued_cases with ⟨-, issued⟩ | ⟨manifest, once, issued, -⟩
    · rw [issued]
      exact .sending answered sends.subperm_puts
    · rw [issued]
      exact .completing answered once
  | @sent dir name size plan sending etags _ sends _ =>
    have answered := mem_begun p file dir name size plan
      (sending ++ [.acted (.enter .completionSent) ()])
    rcases sends.issued_cases with ⟨⟨s, hs⟩, -⟩ | ⟨manifest, once, issued, -⟩
    · cases hs
    · rw [Log.issued_append, Log.issued_append, issued]
      change InOrder wait _ (_ :: (_ ++ []))
      rw [List.append_nil]
      exact .completing answered once
  | @awaited dir name size plan sending polling etags x _ sends stays course =>
    have answered := mem_begun p file dir name size plan (sending ++
      .acted (.enter .completionSent) () :: .acted (.enter .jobPolling) () :: polling)
    rcases sends.issued_cases with ⟨⟨s, hs⟩, -⟩ | ⟨manifest, once, issued, completed⟩
    · cases hs
    -- The manifest has been posted before the wait, which asks for the job and nothing else.
    · obtain ⟨n, asks⟩ := issued_of_waitFrom course
      rw [Log.issued_append, Log.issued_append, issued]
      change InOrder wait _ (_ :: ((_ ++ [_]) ++ Log.issued polling))
      rw [asks, List.append_assoc]
      exact .asking n answered once
        (List.mem_append_right _ (List.mem_append_left _ (completed etags rfl))) stays

lemma Uploads.goneThrough {log : Log} {ids : Int64 × Int64}
    (h : p.Uploads file remote wait log (.ok ids)) :
    ∃ plan, GoneThrough wait log plan ∧ ids.2 = plan.transferJob.jobId := by
  generalize hr : Except.ok ids = r at h
  cases h with
  | @sent dir name size plan sending etags _ sends leaves =>
    obtain rfl := Except.ok.inj hr
    rcases sends.issued_cases with ⟨⟨s, hs⟩, -⟩ | ⟨manifest, -, -, completed⟩
    · cases hs
    · refine ⟨plan, ⟨⟨_, mem_begun p file dir name size plan _⟩, ⟨manifest, ?_⟩, ?_⟩, rfl⟩
      · exact List.mem_append_right _ (List.mem_append_left _ (completed etags rfl))
      · simp [leaves]
  | @awaited dir name size plan sending polling etags x _ sends _ course =>
    cases x with
    | error s => cases hr
    | ok job =>
      obtain rfl := Except.ok.inj hr
      rcases sends.issued_cases with ⟨⟨s, hs⟩, -⟩ | ⟨manifest, -, -, completed⟩
      · cases hs
      · obtain ⟨last, report⟩ := Polling.of_waitFrom_ok course
        refine ⟨plan, ⟨⟨_, mem_begun p file dir name size plan _⟩, ⟨manifest, ?_⟩,
          fun _ => ⟨job, ?_, report⟩⟩, rfl⟩
        · exact List.mem_append_right _ (List.mem_append_left _ (completed etags rfl))
        · rw [Log.jobAnswers_append, Log.jobAnswers_append, List.getLast?_append,
            List.getLast?_append]
          change ((Log.jobAnswers polling).getLast?.or _).or _ = _
          rw [last]
          rfl
  | _ => cases hr

lemma SendsFile.sum_puts {log : Log} {etags : OrderedMap Nat String}
    (h : p.SendsFile file plan log (.ok etags)) :
    ∃ fileSize, .acted (.size file) (.ok fileSize) ∈ log ∧
      ((Log.puts log).map (·.data.length)).sum = fileSize := by
  generalize hr : Except.ok etags = r at h
  cases h with
  | @posted log last etags' _ _ _ parts _ concludes =>
    obtain ⟨fileSize, mem, sum⟩ := parts.sum_puts
    refine ⟨fileSize, List.mem_append_left _ mem, ?_⟩
    rw [Log.puts_append]
    change ((Log.puts log ++ Log.puts last).map _).sum = fileSize
    rw [concludes.puts_eq_nil, List.append_nil, sum]
  | _ => cases hr

/-- The parts of a file that stays as large as it is are as long together as was announced. -/
lemma Uploads.sum_puts {log : Log} {ids : Int64 × Int64} {size : Nat}
    (h : p.Uploads file remote wait log (.ok ids))
    (steady : ∀ x, .acted (.size file) x ∈ log → x = .ok size) :
    ∃ request rest, Log.issued log = .call (.uploadPlan request) :: rest ∧
      request.fileSize = UInt64.ofNat size ∧ ((Log.puts log).map (·.data.length)).sum = size := by
  generalize hr : Except.ok ids = r at h
  cases h with
  | @sent dir name first plan sending etags _ sends _ =>
    obtain ⟨fileSize, mem, sum⟩ := sends.sum_puts
    obtain rfl := Except.ok.inj (steady _ List.mem_cons_self)
    obtain rfl := Except.ok.inj
      (steady _ (List.mem_append_right _ (List.mem_append_left _ mem)))
    refine ⟨_, _, rfl, rfl, ?_⟩
    rw [Log.puts_append, Log.puts_append]
    change ((Log.puts sending ++ []).map _).sum = _
    rw [List.append_nil, sum]
  | @awaited dir name first plan sending polling etags x _ sends _ course =>
    obtain ⟨fileSize, mem, sum⟩ := sends.sum_puts
    obtain rfl := Except.ok.inj (steady _ List.mem_cons_self)
    obtain rfl := Except.ok.inj
      (steady _ (List.mem_append_right _ (List.mem_append_left _ mem)))
    refine ⟨_, _, rfl, rfl, ?_⟩
    rw [Log.puts_append, Log.puts_append]
    change ((Log.puts sending ++ Log.puts polling).map _).sum = _
    rw [puts_of_waitFrom course, List.append_nil, sum]
  | _ => cases hr

/-- Without a remote name or a size of the file nothing goes out. -/
lemma Uploads.issued_eq_nil {log : Log} {r : Except Stop (Int64 × Int64)}
    (h : p.Uploads file remote wait log r)
    (unable : (∃ e, RemotePath.split remote = .error e) ∨
      ∃ e, log.head? = some (.acted (.size file) (.error e))) : Log.issued log = [] := by
  have named {dir name : String} (split : RemotePath.split remote = .ok (dir, name)) :
      ∃ e, log.head? = some (.acted (.size file) (.error e)) := by
    rcases unable with ⟨e, he⟩ | sized
    · rw [split] at he
      cases he
    · exact sized
  cases h with
  | misnamed => rfl
  | unread => rfl
  | unplanned split => cases (named split).choose_spec
  | unsent split => cases (named split).choose_spec
  | sent split => cases (named split).choose_spec
  | awaited split => cases (named split).choose_spec

/-- What goes out in an upload is the beginning of one order: a plan, each part at most once, their
completion, and questions for the job. Nothing goes out without a remote name or a size of the file.
An upload succeeds only with the job of its plan and after the whole order, and then the parts of a
file that has stayed as large as it was are as long together as was announced. -/
theorem uploadLarge_inOrder (p : Profile) (file remote : String) (wait : Bool) {σ : Type}
    (env : Environment (StateM σ)) (s : σ) :
    InOrder wait ((p.uploadLarge file remote wait).log env s)
        ((p.uploadLarge file remote wait).log env s).issued ∧
      ((∃ e, RemotePath.split remote = .error e) ∨
          (∃ e, ((p.uploadLarge file remote wait).log env s).head? =
            some (.acted (.size file) (.error e))) →
        ((p.uploadLarge file remote wait).log env s).issued = []) ∧
      ∀ jobId, ((p.uploadLarge file remote wait).run env s).1 = .ok jobId →
        (∃ plan, GoneThrough wait ((p.uploadLarge file remote wait).log env s) plan ∧
          jobId = plan.transferJob.jobId) ∧
        ∀ size, (∀ x, .acted (.size file) x ∈ (p.uploadLarge file remote wait).log env s →
            x = .ok size) →
          ∃ request rest, ((p.uploadLarge file remote wait).log env s).issued =
              .call (.uploadPlan request) :: rest ∧
            request.fileSize = UInt64.ofNat size ∧
            (((p.uploadLarge file remote wait).log env s).puts.map (·.data.length)).sum = size := by
  obtain ⟨first, last, x, course, farewell, hlog, hr⟩ :=
    of_concluding (course_log env (p.uploadLarge file remote wait) s)
  have uploads := Uploads.of_course course
  rw [hlog, hr, Log.issued_append, farewell.issued_eq_nil, List.append_nil, Log.puts_append,
    farewell.puts_eq_nil, List.append_nil]
  refine ⟨uploads.inOrder.mono (List.subset_append_left first last), ?_, ?_⟩
  · intro unable
    refine uploads.issued_eq_nil (unable.imp_right ?_)
    rintro ⟨e, he⟩
    cases first with
    | cons note first => exact ⟨e, he⟩
    | nil => cases farewell <;> cases he
  · intro jobId ok
    cases x with
    | error s => cases ok
    | ok ids =>
      obtain rfl := Except.ok.inj ok
      obtain ⟨plan, through, id⟩ := uploads.goneThrough
      refine ⟨⟨plan, ⟨?_, ?_, fun hwait => ?_⟩, id⟩, fun size steady => ?_⟩
      · exact through.planned.imp fun _ h => List.mem_append_left _ h
      · exact through.completed.imp fun _ h => List.mem_append_left _ h
      · rw [Log.jobAnswers_append, farewell.jobAnswers_eq_nil, List.append_nil]
        exact through.ended hwait
      · exact uploads.sum_puts fun x hx => steady x (List.mem_append_left _ hx)

/-! ### A file of three bytes -/

/-- The other sides of an upload that nothing holds up: the file stays as it is, the first part that
is held goes its way to the end, and the job has completed when it is asked for. -/
def willing (contents : Bytes) (plan : UploadPlan) : Environment (StateM Unit) where
  cancelled := pure false
  await
    | .call (.uploadPlan _) => pure (.ok plan)
    | .call (.complete _ _) => pure (.ok ())
    | .call (.job jobId)    => pure (.ok { SchedulerJob.bare jobId with
      status := some ⟨some "COMPLETED", none, none, none⟩ })
    | .call _               => pure (.overrun .slots)
    | .tokenExpired         => pure (.ok false)
    | .refresh              => pure (.ok ())
    | .pause _              => pure (.ok ())
  act
    | .size _    => pure (.ok contents.length)
    | .content _ => pure (.ok contents)
    | .emit _    => pure ()
    | .enter _   => pure ()
  choose s :=
    match s.held.head? with
    | none   => pure .proceed
    | some h => pure (if h.begun then .finish h.number (.ok h.url) else .begin h.number)

def threeBytes : UploadPlan :=
  ⟨["first", "second"], "done", 2, { (default : TransferJob) with jobId := 7 }⟩

/-- An upload of two parts goes through the whole order and sends as many bytes as announced. -/
theorem uploadLarge_inOrder_threeBytes :
    let upload := (⟨none, .default, 2, 0, 1⟩ : Profile).uploadLarge "file" "/there/file" true
    let log := upload.log (willing [1, 2, 3] threeBytes) ()
    InOrder true log log.issued ∧
      (∃ plan, GoneThrough true log plan ∧ 7 = plan.transferJob.jobId) ∧
      (log.puts.map (·.data.length)).sum = 3 := by
  intro upload log
  obtain ⟨inOrder, -, ends⟩ := uploadLarge_inOrder ⟨none, .default, 2, 0, 1⟩ "file" "/there/file"
    true (willing [1, 2, 3] threeBytes) ()
  have yields : (upload.run (willing [1, 2, 3] threeBytes) ()).1.toOption = some 7 := by
    decide +kernel
  have ok : (upload.run (willing [1, 2, 3] threeBytes) ()).1 = .ok 7 := by
    cases h : (upload.run (willing [1, 2, 3] threeBytes) ()).1 with
    | error s =>
      rw [h] at yields
      cases yields
    | ok id =>
      rw [h] at yields
      exact congrArg _ (Option.some.inj yields)
  have steady : log.Undisturbed "file" 3 := by
    decide +kernel
  obtain ⟨through, sizes⟩ := ends 7 ok
  obtain ⟨-, -, -, -, sum⟩ := sizes 3 fun x hx => steady.size hx
  exact ⟨inOrder, through, sum⟩

end Profile

end StagedTransfer
