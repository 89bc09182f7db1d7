import StagedTransfer.Proofs.Download.Tale
import StagedTransfer.Proofs.Session.Origins
import StagedTransfer.Proofs.Upload.Order

/-!
# What goes by way of the store

The calls by which a large file is sent in parts or fetched, and so all requests of such a transfer:
none of them sends or fetches a whole file, and none is refused for the size of the file.
-/

namespace StagedTransfer

open Activity Http Wire

/-! ### Calls -/

/-- The calls by which a file is uploaded in parts. -/
inductive Call.OfUpload : Call → Prop
  | plan (request : UploadPlanRequest) : OfUpload (.uploadPlan request)
  | complete (url manifest : String) : OfUpload (.complete url manifest)
  | job (jobId : Int64) : OfUpload (.job jobId)

/-- The calls by which a file is downloaded through the store. -/
inductive Call.OfDownload (request : DownloadPlanRequest) (file : String) : Call → Prop
  | plan : OfDownload request file (.downloadPlan request)
  | job (jobId : Int64) : OfDownload request file (.job jobId)
  | fetch (url : String) : OfDownload request file (.fetch url file)

/-! ### The size of a file -/

/-- No part of a file is refused for the size of the file. -/
lemma Sending.Course.fits {file : String} {fuel slots : Nat} {reader : PartReader}
    {urls : List String} {log : Log} {t : State}
    (course : Course file fuel (.start slots reader urls) log t) {size limit : Nat} :
    t.result ≠ some (.error (.fileTooLarge size limit)) := by
  have kept : Kept file fun _ _ => True := fun _ _ _ _ _ _ _ _ _ _ _ _ => trivial
  have ends : Ends file (fun _ _ => True) ([] ++ log) t := course.ends kept rfl trivial
  generalize [] ++ log = whole at ends
  cases ends with
  | still _ open' => simp [open']
  | cancelled => simp [State.stop]
  | unread => simp [State.stop]
  | finished =>
    simp only [resultOf]
    split <;> simp

namespace Profile

variable {p : Profile} {file remote : String} {log : Log} {size limit : Nat}

lemma SendsParts.fits {plan : UploadPlan} {r : Except Stop (OrderedMap Nat String)}
    (h : p.SendsParts file plan log r) : r ≠ outsized size limit := by
  cases h with
  | @sent _ _ t x _ course result =>
    intro failed
    cases x with
    | ok _ => cases failed
    | error e =>
      cases failed
      exact course.fits result
  | _ => simp [outsized]

lemma SendsFile.awaited_of_outsized {plan : UploadPlan} {r : Except Stop (OrderedMap Nat String)}
    (h : p.SendsFile file plan log r) (failed : r = outsized size limit) :
    ∃ w, .awaited w (.answered (.error (.fileTooLarge size limit))) ∈ log := by
  cases h with
  | stopped parts => exact absurd failed parts.fits
  | cancelled => cases failed
  | posted _ _ concludes =>
    cases concludes with
    | error e =>
      cases failed
      exact ⟨_, List.mem_append_right _ (List.mem_cons_of_mem _ List.mem_cons_self)⟩
    | ok | overrun => cases failed

/-- An upload in parts fails for the size of a file only if it is told so. -/
lemma Uploads.awaited_of_outsized {wait : Bool} {r : Except Stop (Int64 × Int64)}
    (h : p.Uploads file remote wait log r) (failed : r = outsized size limit) :
    ∃ w, .awaited w (.answered (.error (.fileTooLarge size limit))) ∈ log := by
  cases h with
  | misnamed | unread | sent => cases failed
  | unplanned _ waits =>
    cases failed
    rcases waits.of_error with ⟨-, ⟨⟩⟩ | ⟨e, rfl, ⟨⟩⟩ | ⟨o, -, ⟨⟩⟩
    exact ⟨_, List.mem_cons_of_mem _ (List.mem_cons_of_mem _ List.mem_cons_self)⟩
  | unsent _ sends =>
    cases failed
    obtain ⟨w, mem⟩ := sends.awaited_of_outsized rfl
    exact ⟨w, List.mem_append_right _ mem⟩
  | @awaited _ _ _ _ _ polling _ x _ _ _ course =>
    cases x with
    | ok _ => cases failed
    | error s =>
      cases failed
      cases waitFrom_fails course with
      | answered mem =>
        exact ⟨_, List.mem_append_right _ (List.mem_append_right _
          (List.mem_cons_of_mem _ (List.mem_cons_of_mem _ mem)))⟩

lemma awaited_of_outsized {wait : Bool} {r : Except Stop Int64}
    (course : (p.uploadLarge file remote wait).Course log r) (failed : r = outsized size limit) :
    ∃ w, .awaited w (.answered (.error (.fileTooLarge size limit))) ∈ log := by
  obtain ⟨first, last, x, steps, -, rfl, rfl⟩ := of_concluding course
  obtain ⟨w, mem⟩ := (Uploads.of_course steps).awaited_of_outsized (eq_outsized_of_map failed)
  exact ⟨w, List.mem_append_left _ mem⟩

lemma InOrder.ofUpload {wait : Bool} {issued : List Issued} (h : InOrder wait log issued)
    {call : Call} (mem : .call call ∈ issued) : call.OfUpload := by
  cases h <;> simp only [List.mem_cons, List.mem_append, List.mem_map, List.mem_replicate,
    Issued.call.injEq, List.not_mem_nil, or_false, reduceCtorEq, and_false, exists_false,
    false_or] at mem
  · exact mem ▸ .plan _
  · exact mem ▸ .plan _
  · rcases mem with rfl | rfl
    · exact .plan _
    · exact .complete _ _
  · rcases mem with rfl | rfl | ⟨-, rfl⟩
    · exact .plan _
    · exact .complete _ _
    · exact .job _

/-- An upload in parts makes no other calls. -/
lemma ofUpload_of_course {wait : Bool} {r : Except Stop Int64}
    (course : (p.uploadLarge file remote wait).Course log r) {call : Call}
    {reply : Reply TransferError call.Answer} (mem : .awaited (.call call) reply ∈ log) :
    call.OfUpload := by
  obtain ⟨first, last, x, steps, farewell, rfl, -⟩ := of_concluding course
  have mem := (List.mem_append.1 mem).resolve_right farewell.not_mem_awaited
  exact (Uploads.of_course steps).inOrder.ofUpload (List.mem_filterMap.2 ⟨_, mem, rfl⟩)

lemma Downloads.ofDownload {r : Except Stop Nat} (h : p.Downloads remote file log r) {call : Call}
    {reply : Reply TransferError call.Answer} (mem : .awaited (.call call) reply ∈ log) :
    call.OfDownload (p.downloadRequest remote) file := by
  have of_waits {w : Call} {waited : Log} {y : Except Stop w.Answer}
      (waits : Waits (.call w) waited y) (mem : .awaited (.call call) reply ∈ waited) :
      call = w := by
    rcases waits.mem mem with ⟨_, ⟨⟩⟩ | ⟨_, ⟨⟩⟩
    rfl
  have of_polling {plan : DownloadPlan} {polling : Log} {y : Except Stop SchedulerJob}
      (polled : (p.waitForJob plan.transferJob.jobId).Course polling y)
      (mem : .awaited (.call call) reply ∈ polling) :
      call.OfDownload (p.downloadRequest remote) file := by
    cases waitFrom_asks polled mem
    exact .job _
  have of_planned {plan : DownloadPlan} (mem : .awaited (.call call) reply ∈ p.planned remote plan) :
      call.OfDownload (p.downloadRequest remote) file := by
    simp only [planned, List.mem_cons, List.not_mem_nil, reduceCtorEq, or_false, false_or] at mem
    cases mem
    exact .plan
  cases h with
  | unplanned waits => exact of_waits waits mem ▸ .plan
  | unawaited polled =>
    rcases List.mem_append.1 mem with mem | mem
    · exact of_planned mem
    · exact of_polling polled mem
  | fetched polled waits =>
    simp only [List.mem_append, List.mem_cons, reduceCtorEq, false_or] at mem
    rcases mem with mem | mem | mem
    · exact of_planned mem
    · exact of_polling polled mem
    · exact of_waits waits mem ▸ .fetch _

/-- A download through the store makes no other calls. -/
lemma ofDownload_of_course {r : Except Stop Nat}
    (course : (p.downloadLarge remote file).Course log r) {call : Call}
    {reply : Reply TransferError call.Answer} (mem : .awaited (.call call) reply ∈ log) :
    call.OfDownload (p.downloadRequest remote) file := by
  obtain ⟨first, last, x, steps, farewell, rfl, -⟩ := of_concluding course
  have mem := (List.mem_append.1 mem).resolve_right farewell.not_mem_awaited
  exact (Downloads.of_course steps).ofDownload mem

end Profile

/-! ### Sessions -/

section

variable {S : Type} (p : Profile) (c : Client (StateM S)) (file remote : String) (v : Session) (s : S)

/-- No request of an upload in parts sends a whole file. -/
lemma Profile.uploadLarge_requests (wait : Bool) :
    ∀ q ∈ (c.diary (p.uploadLarge file remote wait) v s).requests, ∀ part, q.body ≠ .file part := by
  intro q mem part
  obtain ⟨log, course, origins⟩ := c.origins (p.uploadLarge file remote wait) v s
  cases origins q mem with
  | call awaited _ sent =>
    rw [Demand.body_of_request? sent]
    cases Profile.ofUpload_of_course course awaited <;> nofun
  | part _ sent =>
    rw [Demand.body_of_request? sent]
    nofun

/-- The requests of a download through the store are those of its calls. -/
lemma Profile.downloadLarge_requests :
    ∀ q ∈ (c.diary (p.downloadLarge remote file) v s).requests, ∃ call token,
      call.OfDownload (p.downloadRequest remote) file ∧
        (c.gateway.demand [] call).request? token = some q := by
  intro q mem
  obtain ⟨log, course, origins⟩ := c.origins (p.downloadLarge remote file) v s
  cases origins q mem with
  | @call call content token reply awaited loads sent =>
    have asked := Profile.ofDownload_of_course course awaited
    obtain rfl := loads.eq_nil (by rintro _ _ _ rfl; cases asked)
    exact ⟨call, token, asked, sent⟩
  | part chosen =>
    obtain ⟨first, last, x, steps, farewell, rfl, -⟩ := of_concluding course
    rcases List.mem_append.1 chosen with chosen | chosen
    · exact absurd chosen (Downloads.of_course steps).not_mem_chosen
    · exact absurd chosen farewell.not_mem_chosen

/-- No upload in parts is refused for the size of the file. -/
lemma Profile.uploadLarge_ne_outsized (wait : Bool) (size limit : Nat) :
    (c.run (p.uploadLarge file remote wait) v s).1.1 ≠ outsized size limit := by
  intro failed
  obtain ⟨log, k, course, tells⟩ := c.tells (p.uploadLarge file remote wait) v s
  obtain ⟨w, mem⟩ := Profile.awaited_of_outsized course failed
  -- only a call that sends a whole file could be told so, and there is none
  obtain ⟨_, _, _, awaits⟩ := tells.awaits_of_mem mem
  obtain ⟨_, _, _, rfl⟩ := awaits.exists_uploadSmall
  cases Profile.ofUpload_of_course course mem

end

end StagedTransfer
