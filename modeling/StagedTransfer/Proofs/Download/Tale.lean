import StagedTransfer.Proofs.Download.Stages
import StagedTransfer.Proofs.Heed
import StagedTransfer.Proofs.Session.Writing

/-!
# The tale of a download

What a diary tells of a download through the store: at first each request goes to the gateway and no
file is written; then the object is fetched, and the fetch can be broken off at each of its steps.
-/

namespace StagedTransfer

open Activity Http Wire

/-! ### Before the fetch -/

/-- What is written down before anything is fetched: no file is written, each request goes to the
gateway, and no call fetches. -/
@[simp]
def Entry.Early : Entry → Prop
  | .wrote _ _ _            => False
  | .exchanged q _          => q.authorization.isSome = true
  | .awaited (.call call) _ => call.destination? = none
  | _                       => True

/-- A question that is not put to the store and asks for no file. -/
def Note.Early : Note → Prop
  | .awaited (.call call) _ => call.destination? = none ∧
    ∀ g content, (Gateway.demand g content call).authorized = true
  | .chosen _ _             => False
  | _                       => True

section

variable {g : Gateway} {D : Diary} {k k' : Option AccessToken} {log : Log}

lemma Entry.OfCall.early {call : Call} {x : Entry} (h : x.OfCall g call)
    (nowhere : call.destination? = none)
    (authorized : ∀ g content, (Gateway.demand g content call).authorized = true) : x.Early := by
  cases h with
  | demand h =>
    cases h with
    | looked | granted => trivial
    | exchanged sent => exact sent.trans (authorized g _)
  | wrote h => cases nowhere.symm.trans h

lemma Awaits.early {w : Await} {reply : Reply TransferError w.Answer}
    (h : Awaits g w k D reply k') (early : (Note.awaited w reply).Early) :
    (∀ x ∈ D, x.Early) ∧ (Entry.awaited w reply).Early := by
  cases h with
  | call performs | callOverrun performs =>
    exact ⟨fun x hx => (performs.mem hx).early early.1 early.2, early.1⟩
  | callCancelled quits =>
    refine ⟨fun x hx => ?_, early.1⟩
    rcases List.mem_append.1 hx with hx | hx
    · exact (quits.mem hx).early early.1 early.2
    · obtain rfl := List.mem_singleton.1 hx
      trivial
  | _ => simp

lemma Tells.early (h : Tells g k log D k') (early : ∀ note ∈ log, note.Early) :
    ∀ x ∈ D, x.Early := by
  induction h with
  | nil => simp
  | cancelled _ ih =>
    have tail := ih fun note mem => early note (List.mem_cons_of_mem _ mem)
    intro x hx
    rcases List.mem_cons.1 hx with rfl | hx
    · trivial
    · exact tail x hx
  | notCancelled _ ih => exact ih fun note mem => early note (List.mem_cons_of_mem _ mem)
  | acted _ _ _ ih => exact ih fun note mem => early note (List.mem_cons_of_mem _ mem)
  | chosen s c => exact (early (.chosen s c) (by simp)).elim
  | @awaited w _ _ _ _ D D' reply awaits _ ih =>
    have tail := ih fun note mem => early note (List.mem_cons_of_mem _ mem)
    obtain ⟨head, last⟩ := awaits.early (early _ (List.mem_cons_self ..))
    intro x hx
    rcases List.mem_append.1 hx with hx | hx
    · exact head x hx
    rcases List.mem_cons.1 hx with rfl | hx
    · exact last
    · exact tail x hx

lemma Tells.awaited_mem {w : Await} {reply : Reply TransferError w.Answer}
    (h : Tells g k log D k') (mem : .awaited w reply ∈ log) : .awaited w reply ∈ D := by
  induction h with
  | nil => simp at mem
  | cancelled _ ih => exact List.mem_cons_of_mem _ (ih (by simpa using mem))
  | notCancelled _ ih => exact ih (by simpa using mem)
  | acted _ _ _ ih => exact ih (by simpa using mem)
  | chosen _ _ _ _ ih => exact List.mem_append_right _ (ih (by simpa using mem))
  | awaited _ _ ih =>
    rcases List.mem_cons.1 mem with same | mem
    · cases same
      simp
    · exact List.mem_append_right _ (List.mem_cons_of_mem _ (ih mem))

/-- What is written down of something that has been waited for stands in the diary. -/
lemma Tells.awaits_within {w : Await} {reply : Reply TransferError w.Answer}
    (h : Tells g k log D k') (mem : .awaited w reply ∈ log) :
    ∃ k D' k', Awaits g w k D' reply k' ∧ D' ⊆ D := by
  induction h with
  | nil => simp at mem
  | cancelled _ ih =>
    obtain ⟨k, D', k', awaits, sub⟩ := ih (by simpa using mem)
    exact ⟨k, D', k', awaits, List.subset_cons_of_subset _ sub⟩
  | notCancelled _ ih => exact ih (by simpa using mem)
  | acted _ _ _ ih => exact ih (by simpa using mem)
  | chosen _ _ _ _ ih =>
    obtain ⟨k, D', k', awaits, sub⟩ := ih (by simpa using mem)
    exact ⟨k, D', k', awaits, List.subset_append_of_subset_right _ sub⟩
  | awaited awaits _ ih =>
    rcases List.mem_cons.1 mem with same | mem
    · cases same
      exact ⟨_, _, _, awaits, List.subset_append_left _ _⟩
    · obtain ⟨k, D', k', awaits, sub⟩ := ih mem
      exact ⟨k, D', k', awaits,
        List.subset_append_of_subset_right _ (List.subset_cons_of_subset _ sub)⟩

lemma Tells.awaits_of_mem {w : Await} {reply : Reply TransferError w.Answer}
    (h : Tells g k log D k') (mem : .awaited w reply ∈ log) :
    ∃ k D k', Awaits g w k D reply k' := by
  obtain ⟨k, D', k', awaits, -⟩ := h.awaits_within mem
  exact ⟨k, D', k', awaits⟩

/-- A wait for a job fails with no error that names a file. -/
lemma Tells.bare {jobId : Int64} {e : TransferError} (h : Tells g k log D k')
    (fails : FailsWith jobId log e) (path : String) (source : TransferError) :
    e ≠ .download path source := by
  cases fails with
  | answered mem =>
    obtain ⟨_, _, _, awaits⟩ := h.awaits_of_mem mem
    exact awaits.bare path source
  | _ => simp

end

/-! ### Cancellation -/

lemma Sending.Course.chosen_mem {file : String} {n : Nat} {s t : Sending.State} {log : Log}
    (h : Course file (n + 1) s log t) (open' : s.result = none) : ∃ c, .chosen s c ∈ log := by
  cases h with
  | ended ended => cases open'.symm.trans ended
  | move => exact ⟨_, List.mem_cons_self ..⟩

/-- Whoever is told of a cancellation ends as cancelled. -/
lemma Activity.Heedful.cancelled_of_mem {α : Type} {a : Activity α} {lax : Prop} {g : Gateway}
    {log : Log} {D : Diary} {k k' : Option AccessToken} {r : Except Stop α} (h : Heedful lax a)
    (course : a.Course log r) (tells : Tells g k log D k') (still : ∀ s c, .chosen s c ∉ log)
    (told : .cancelled ∈ D) : r = .error (.failed .cancelled) := by
  -- On the activity: the first wait has been told of the cancellation, or what comes after it has.
  induction h generalizing log k D with
  | done =>
    cases course
    obtain ⟨rfl, -⟩ := tells.of_nil
    simp at told
  | act rest ih =>
    cases course with
    | act x course =>
      cases tells with
      | acted _ _ tells => exact ih x course tells (by simpa using still) told
  | @await w next up rest ih =>
    cases course with
    | giveUp course => exact (up.of_course course).2
    | @await _ _ log _ x course =>
      cases tells with
      | notCancelled tells =>
        obtain ⟨D₁, D₂, _, awaits, later, rfl⟩ := tells.of_awaited
        rcases List.mem_append.1 told with told | told
        · cases awaits.reply_of_cancelled told
          exact (up.of_course course).2
        · have told : .cancelled ∈ D₂ := by simpa using told
          refine ih x (fun unfinished => ?_) course later (by simpa using still) told
          rw [unfinished] at course
          cases course
          obtain ⟨rfl, -⟩ := later.of_nil
          simp at told
    | overrun o =>
      cases tells with
      | notCancelled tells =>
        obtain ⟨D₁, D₂, _, awaits, later, rfl⟩ := tells.of_awaited
        obtain ⟨rfl, -⟩ := later.of_nil
        cases awaits.reply_of_cancelled (by simpa using told)
  | @send b next some' up rest ih =>
    cases course with
    | giveUpSending course => exact (up.of_course course).2
    | send sent result course =>
      obtain ⟨c, mem⟩ := sent.chosen_mem rfl
      exact absurd (by simp [mem]) (still b.start c)
    | stalled sent result =>
      obtain ⟨c, mem⟩ := sent.chosen_mem rfl
      exact absurd (by simp [mem]) (still b.start c)

/-! ### The fetch -/

/-- The request for an object, which shows no token. -/
def Store.objectRequest (place : Url) : Request :=
  ⟨.get, place, none, .empty⟩

lemma Store.request?_fetch (url : String) :
    (Store.fetch url).request? none = (Url.parse? url).map objectRequest := by
  cases h : Url.parse? url <;> simp [Store.fetch, Demand.request?, h, objectRequest]

namespace Http.Response

variable {r : Response}

lemma successBody_of_success (success : r.isSuccess = true) :
    r.successBody = r.bytes.mapError .http := by
  rw [successBody, checked, if_pos success]
  rfl

lemma successBody_of_failure (failure : r.isSuccess = false) : ∃ e, r.successBody = .error e := by
  rw [successBody, checked, failure, if_neg Bool.false_ne_true]
  split <;> exact ⟨_, rfl⟩

end Http.Response

/-- What is written down of the fetch of an object into a file, and the answer. -/
inductive Fetches (url file : String) : Diary → Except GatewayError Nat → Prop
  | unsendable (nowhere : Url.parse? url = none) :
    Fetches url file [] (.error (.http "builder error"))
  | lost {place : Url} (found : Url.parse? url = some place) (reason : String) :
    Fetches url file [.exchanged (Store.objectRequest place) (.lost reason)] (.error (.http reason))
  | refused {place : Url} {response : Response} {e : GatewayError}
    (found : Url.parse? url = some place) (failure : response.isSuccess = false) :
    Fetches url file [.exchanged (Store.objectRequest place) (.answered response)] (.error e)
  | unwritten {place : Url} {response : Response} (found : Url.parse? url = some place)
    (success : response.isSuccess = true) (e : IoError) :
    Fetches url file [.exchanged (Store.objectRequest place) (.answered response),
      .wrote file response.body (.error e)] (.error (.io e))
  | brokenOff {place : Url} {response : Response} {e : GatewayError}
    (found : Url.parse? url = some place) (success : response.isSuccess = true)
    (part : response.whole = false) :
    Fetches url file [.exchanged (Store.objectRequest place) (.answered response),
      .wrote file response.body (.ok ())] (.error e)
  | fetched {place : Url} {response : Response} (found : Url.parse? url = some place)
    (success : response.isSuccess = true) (whole : response.whole = true) :
    Fetches url file [.exchanged (Store.objectRequest place) (.answered response),
      .wrote file response.body (.ok ())] (.ok response.body.length)

/-- What is written down of a fetch that is given up, once its request has been answered for or the file
has been written. -/
inductive Abandons (url file : String) : Diary → Prop
  | asked {place : Url} (found : Url.parse? url = some place) (o : Outcome) :
    Abandons url file [.exchanged (Store.objectRequest place) o]
  | wrote {place : Url} {response : Response} (found : Url.parse? url = some place)
    (success : response.isSuccess = true) (result : Except IoError Unit) :
    Abandons url file [.exchanged (Store.objectRequest place) (.answered response),
      .wrote file response.body result]

section

variable {g : Gateway} {D : Diary} {k k' : Option AccessToken} {url file : String}

lemma Store.exists_place {q : Request} (h : (Store.fetch url).request? none = some q) :
    ∃ place, Url.parse? url = some place ∧ Store.objectRequest place = q := by
  rw [Store.request?_fetch] at h
  exact Option.map_eq_some_iff.1 h

lemma Fetches.of_receives {place : Url} {response : Response}
    {reply : Reply GatewayError (Call.fetch url file).Answer}
    (found : Url.parse? url = some place)
    (receives : Receives (.fetch url file) response D reply) :
    ∃ x, reply = .answered x ∧
      Fetches url file (.exchanged (Store.objectRequest place) (.answered response) :: D) x := by
  cases receives with
  | read elsewhere =>
    obtain ⟨⟨⟩⟩ | failure := elsewhere
    obtain ⟨e, report⟩ := Response.successBody_of_failure failure
    rw [Call.read, report]
    exact ⟨_, rfl, .refused found failure⟩
  | wrote h success =>
    cases h
    rw [Call.read, Response.successBody_of_success success, Response.bytes]
    cases whole : response.whole with
    | true => exact ⟨_, rfl, .fetched found success whole⟩
    | false => exact ⟨_, rfl, .brokenOff found success whole⟩
  | unwritten h success e =>
    cases h
    exact ⟨_, rfl, .unwritten found success e⟩

lemma Fetches.of_performs {reply : Reply GatewayError (Call.fetch url file).Answer}
    (h : Performs g (.fetch url file) k D reply k') :
    ∃ x, reply = .answered x ∧ Fetches url file D x := by
  cases h with
  | unread loads => cases loads
  | answered loads exchanges receives =>
    cases exchanges with
    | authorized authorized => cases authorized
    | plain _ sends =>
      cases sends with
      | answered h =>
        obtain ⟨place, found, rfl⟩ := Store.exists_place h
        exact Fetches.of_receives found receives
  | failed loads exchanges =>
    cases exchanges with
    | authorized authorized => cases authorized
    | denied authorized => cases authorized
    | plain _ sends =>
      cases sends with
      | unsendable h =>
        have unsent : (Store.fetch url).request? none = none := h
        rw [Store.request?_fetch, Option.map_eq_none_iff] at unsent
        exact ⟨_, rfl, .unsendable unsent⟩
      | lost h reason =>
        obtain ⟨place, found, rfl⟩ := Store.exists_place h
        exact ⟨_, rfl, .lost found reason⟩
  | overrun loads exchanges =>
    cases exchanges with
    | overrun authorized => cases authorized

lemma Abandons.of_quits (h : Quits g (.fetch url file) k D k') : Abandons url file D := by
  cases h with
  | exchanging loads forgoes =>
    cases forgoes with
    | plain _ sent o =>
      obtain ⟨place, found, rfl⟩ := Store.exists_place sent
      exact .asked found o
    | untold authorized => cases authorized
    | unanswered authorized => cases authorized
  | writing loads exchanges destination success result =>
    cases destination
    cases exchanges with
    | authorized authorized => cases authorized
    | plain _ sends =>
      cases sends with
      | answered h =>
        obtain ⟨place, found, rfl⟩ := Store.exists_place h
        exact .wrote found success result

/-- What is written down of the fetch before its end, which may be a cancellation. -/
lemma Fetches.of_awaits {reply : Reply TransferError Nat}
    (h : Awaits g (.call (.fetch url file)) k D reply k') :
    (∃ x, Fetches url file D x ∧ reply = .answered (x.mapError .ofGateway)) ∨
      ∃ D', Abandons url file D' ∧ D = D' ++ [.cancelled] ∧ reply = .fail .cancelled := by
  cases h with
  | call performs =>
    obtain ⟨x, ⟨rfl⟩, fetches⟩ := Fetches.of_performs performs
    exact .inl ⟨_, fetches, rfl⟩
  | callOverrun performs =>
    obtain ⟨x, ⟨⟩, -⟩ := Fetches.of_performs performs
  | callCancelled quits => exact .inr ⟨_, .of_quits quits, rfl, rfl⟩

end

/-- A file is written only with what the store has served right before. -/
lemma Abandons.of_wrote {url file : String} {D : Diary} (h : Abandons url file D) {name : String}
    {content : Bytes} {result : Except IoError Unit} (mem : .wrote name content result ∈ D) :
    name = file ∧ ∃ place response, Url.parse? url = some place ∧ response.isSuccess = true ∧
      content = response.body ∧ D = [.exchanged (Store.objectRequest place) (.answered response),
        .wrote name content result] := by
  cases h with
  | asked => simp at mem
  | @wrote place response found success result' =>
    obtain ⟨rfl, rfl, rfl⟩ : name = file ∧ content = response.body ∧ result = result' := by
      simpa using mem
    exact ⟨rfl, place, response, found, success, rfl, rfl⟩

lemma Abandons.not_mem_awaited {url file : String} {D : Diary} (h : Abandons url file D) {w : Await}
    {reply : Reply TransferError w.Answer} : .awaited w reply ∉ D := by
  cases h <;> simp

namespace Fetches

variable {url file : String} {D : Diary} {x : Except GatewayError Nat} (h : Fetches url file D x)

include h

/-- A file is written once, after a success. -/
lemma of_wrote {name : String} {content : Bytes} {result : Except IoError Unit}
    (mem : .wrote name content result ∈ D) :
    name = file ∧ (∀ e, result = .error e → x = .error (.io e)) ∧
      ∃ place response, Url.parse? url = some place ∧ response.isSuccess = true ∧
        content = response.body ∧ D = [.exchanged (Store.objectRequest place) (.answered response),
          .wrote name content result] := by
  cases h with
  | @unwritten place response found success e =>
    obtain ⟨rfl, rfl, rfl⟩ : name = file ∧ content = response.body ∧ result = .error e := by
      simpa using mem
    exact ⟨rfl, by simp, place, response, found, success, rfl, rfl⟩
  | @brokenOff place response e found success part =>
    obtain ⟨rfl, rfl, rfl⟩ : name = file ∧ content = response.body ∧ result = .ok () := by
      simpa using mem
    exact ⟨rfl, by simp, place, response, found, success, rfl, rfl⟩
  | @fetched place response found success whole =>
    obtain ⟨rfl, rfl, rfl⟩ : name = file ∧ content = response.body ∧ result = .ok () := by
      simpa using mem
    exact ⟨rfl, by simp, place, response, found, success, rfl, rfl⟩
  | _ => simp at mem

/-- The object is fetched only if its request is answered with a success to the end. -/
lemma of_exchanged {place : Url} {o : Outcome} (mem : .exchanged (Store.objectRequest place) o ∈ D)
    (broken : ∀ response, o = .answered response → response.isSuccess = true →
      response.whole = false) : ∃ e, x = .error e := by
  cases h with
  | fetched _ success whole =>
    obtain ⟨-, rfl⟩ : _ ∧ o = _ := by simpa using mem
    exact absurd ((broken _ rfl success).symm.trans whole) Bool.false_ne_true
  | _ => exact ⟨_, rfl⟩

lemma not_mem_awaited {w : Await} {reply : Reply TransferError w.Answer} :
    .awaited w reply ∉ D := by
  cases h <;> simp

end Fetches

/-! ### The diary of a download -/

namespace Profile

variable (p : Profile) (remote file : String)

/-- A diary tells that a download has been planned and that the job of the plan has completed after
that. -/
def Completed (plan : DownloadPlan) (D : Diary) : Prop :=
  ∃ job, Polling.reportOf job = some "COMPLETED" ∧
    [.awaited (.call (.downloadPlan (p.downloadRequest remote))) (.ok plan),
      .awaited (.call (.job plan.transferJob.jobId)) (.ok job)].Sublist D

/-- The diary of a download and what the download comes to. -/
inductive Tale : Diary → Except Stop Nat → Prop
  | early {D : Diary} {s : Stop} (early : ∀ x ∈ D, x.Early)
    (bare : ∀ path e, s ≠ .failed (.download path e)) : Tale D (.error s)
  | fetched {plan : DownloadPlan} {head D : Diary} {x : Except GatewayError Nat}
    (completed : p.Completed remote plan head) (early : ∀ x ∈ head, x.Early)
    (fetches : Fetches plan.downloadUrl file D x) :
    Tale (head ++ (D ++ [.awaited (.call (.fetch plan.downloadUrl file))
        (.answered (x.mapError .ofGateway))]))
      (x.mapError fun e => .failed (.download file (.ofGateway e)))
  | abandoned {plan : DownloadPlan} {head D : Diary}
    (completed : p.Completed remote plan head) (early : ∀ x ∈ head, x.Early)
    (abandons : Abandons plan.downloadUrl file D) :
    Tale (head ++ (D ++ [.cancelled,
        .awaited (.call (.fetch plan.downloadUrl file)) (.fail .cancelled)]))
      (.error (.failed .cancelled))

variable {p remote file} {g : Gateway} {log : Log} {D : Diary} {k k' : Option AccessToken}

lemma early_of_waitForJob {jobId : Int64} {r : Except Stop SchedulerJob}
    (course : (p.waitForJob jobId).Course log r) : ∀ note ∈ log, note.Early := by
  intro note mem
  cases waitFrom_asks course mem with
  | job reply => exact ⟨rfl, fun _ _ => rfl⟩
  | _ => trivial

lemma early_planned (plan : DownloadPlan) : ∀ note ∈ p.planned remote plan, note.Early := by
  intro note mem
  simp only [planned, List.mem_cons, List.not_mem_nil, or_false] at mem
  rcases mem with rfl | rfl | rfl | rfl
  · trivial
  · exact ⟨rfl, fun _ _ => rfl⟩
  · trivial
  · trivial

/-- What is written down until the job of a plan has completed. -/
lemma Completed.of_tells {plan : DownloadPlan} {job : SchedulerJob} {D' : Diary}
    {k'' : Option AccessToken} (first : Tells g k (p.planned remote plan) D k')
    (course : (p.waitForJob plan.transferJob.jobId).Course log (.ok job))
    (rest : Tells g k' log D' k'') : p.Completed remote plan (D ++ D') := by
  obtain ⟨report, mem⟩ := waitFrom_completed course
  have asked := first.awaited_mem
    (w := .call (.downloadPlan (p.downloadRequest remote))) (List.mem_cons_of_mem _ List.mem_cons_self)
  have told := rest.awaited_mem mem
  exact ⟨job, report, (List.singleton_sublist.2 asked).append (List.singleton_sublist.2 told)⟩

lemma Downloads.not_mem_chosen {r : Except Stop Nat} (h : p.Downloads remote file log r)
    {s : Sending.State} {c : Sending.Choice} : .chosen s c ∉ log := by
  have of_waits {w : Await} {log : Log} {x : Except Stop w.Answer} (waits : Waits w log x) :
      .chosen s c ∉ log := fun mem => by simpa using waits.mem mem
  have of_polling {jobId : Int64} {polling : Log} {x : Except Stop SchedulerJob}
      (course : (p.waitForJob jobId).Course polling x) : .chosen s c ∉ polling := fun mem =>
    early_of_waitForJob course _ mem
  cases h with
  | unplanned waits => exact of_waits waits
  | unawaited course => simpa [planned] using of_polling course
  | fetched course waits => simpa [planned] using ⟨of_polling course, of_waits waits⟩

lemma Farewell.not_mem_chosen (h : Farewell log) {s : Sending.State} {c : Sending.Choice} :
    .chosen s c ∉ log := by
  cases h <;> simp

lemma Farewell.not_mem_awaited (h : Farewell log) {w : Await} {reply : Reply TransferError w.Answer} :
    .awaited w reply ∉ log := by
  cases h <;> simp

lemma Farewell.unwritten (h : Farewell log) (tells : Tells g k log D k') : D = [] := by
  cases h with
  | none => exact tells.of_nil.1
  | told =>
    cases tells with
    | acted _ _ tells =>
      cases tells with
      | acted _ _ tells => exact tells.of_nil.1

lemma fetchError_ofGateway (e : GatewayError) :
    fetchError file (.ofGateway e) = .download file (.ofGateway e) := by
  cases e <;> rfl

lemma Tale.of_downloads {r : Except Stop Nat} (h : p.Downloads remote file log r)
    (tells : Tells g k log D k') : p.Tale remote file D r := by
  cases h with
  | unplanned waits =>
    refine .early (tells.early fun note mem => ?_) fun path e failed => ?_
    · rcases waits.mem mem with ⟨_, rfl⟩ | ⟨_, rfl⟩
      · trivial
      · exact ⟨rfl, fun _ _ => rfl⟩
    · subst failed
      exact tells.bare (FailsWith.of_waits waits : FailsWith 0 _ _) path e rfl
  | unawaited course =>
    refine .early (tells.early fun note mem => ?_) fun path e failed => ?_
    · exact (List.mem_append.1 mem).elim (early_planned _ note) (early_of_waitForJob course note)
    · subst failed
      exact tells.bare ((waitFrom_fails course).mono (by simp)) path e rfl
  | fetched course waits =>
    obtain ⟨D₁, _, _, first, later, rfl⟩ := tells.of_append
    obtain ⟨D₂, D₃, _, second, fetch, rfl⟩ := later.of_append
    -- All that comes before the fetch is early, so the tale is decided by what the fetch does.
    have completed := Completed.of_tells first course second
    have early : ∀ x ∈ D₁ ++ D₂, x.Early := fun x hx => (List.mem_append.1 hx).elim
      (first.early (early_planned _) x) (second.early (early_of_waitForJob course) x)
    rw [← List.append_assoc]
    cases fetch with
    | acted _ _ fetch =>
      cases fetch with
      | acted _ _ fetch =>
        rcases fetch.of_waits waits with ⟨rfl, -, rfl⟩ | ⟨D, reply, awaits, rfl, rfl⟩
        · refine .early (fun x hx => ?_) (by simp [fetchError])
          rcases List.mem_append.1 hx with hx | hx
          · exact early x hx
          · obtain rfl := List.mem_singleton.1 hx
            trivial
        · obtain ⟨x, fetches, rfl⟩ | ⟨D, abandons, rfl, rfl⟩ := Fetches.of_awaits awaits
          · have tale := Tale.fetched completed early fetches
            cases x with
            | ok n => exact tale
            | error e =>
              rw [Except.mapError, ← fetchError_ofGateway] at tale
              exact tale
          · rw [List.append_assoc D]
            exact .abandoned completed early abandons

end Profile

end StagedTransfer
