import StagedTransfer.Proofs.Session.Writing

/-!
# Where requests come from

Each request of a session is that of a call whose answer is waited for, or takes a part to the store;
so what an activity can wait for says what it can send. Only the call that sends a whole file can be
told that the file is too large.
-/

namespace StagedTransfer

open Http Wire
open Json (Message)

/-! ### Requests -/

/-- A request is that of a call in a log, or takes a part to the store. -/
inductive Origin (g : Gateway) (log : Log) (q : Request) : Prop
  | call {call : Call} {content : Bytes} {token : Option String}
    {reply : Reply TransferError call.Answer} (awaited : .awaited (.call call) reply ∈ log)
    (loads : Loads call (.ok content)) (sent : (g.demand content call).request? token = some q)
  | part {s : Sending.State} {c : Sending.Choice} {url : String} {data : Bytes}
    (chosen : .chosen s c ∈ log) (sent : (Store.put url data).request? none = some q)

lemma Origin.mono {g : Gateway} {log log' : Log} {q : Request} (h : Origin g log q)
    (sub : log ⊆ log') : Origin g log' q := by
  cases h with
  | call awaited loads sent => exact .call (sub awaited) loads sent
  | part chosen sent => exact .part (sub chosen) sent

/-- Only a call that sends a whole file has content to send along. -/
lemma Loads.eq_nil {call : Call} {content : Bytes} (h : Loads call (.ok content))
    (bare : ∀ file dir name, call ≠ .uploadSmall file dir name) : content = [] := by
  cases h with
  | nothing => rfl
  | whole => exact absurd rfl (bare _ _ _)

namespace Client

variable {S α : Type} (c : Client (StateM S))

/-- What is written down while a log leads on tells of no request that comes from elsewhere. -/
lemma origins_of_leads {log : Log} {x y : Session × S × Diary}
    (h : c.keeping.flat.Leads x log y) :
    ∃ D, y.2.2 = x.2.2 ++ D ∧ ∀ q ∈ D.requests, Origin c.gateway log q := by
  -- On the steps that have been taken: each adds to what has been written down before.
  induction h with
  | nil x => exact ⟨[], (List.append_nil _).symm, by simp⟩
  | @asked x y log _ ih =>
    obtain ⟨D, written, origins⟩ := ih
    obtain ⟨D', first, rfl, -⟩ := c.writes_cancelled x.1 x.2.1 x.2.2
    have first : (c.keeping.flat.cancelled x).2.2.2 = _ := first
    rw [first, List.append_assoc] at written
    refine ⟨_, written, fun q mem => (origins q ?_).mono (List.subset_cons_self _ _)⟩
    rwa [Diary.requests_append, Diary.requests_told, List.nil_append] at mem
  | @awaited x y log w _ ih =>
    obtain ⟨D, written, origins⟩ := ih
    obtain ⟨D', first, awaits⟩ := c.writes_await x.1 w x.2.1 x.2.2
    have noted : (c.keeping.flat.await w x).2.2.2 =
        x.2.2 ++ D' ++ [.awaited w (c.keeping.flat.await w x).1] :=
      congrArg (· ++ [Entry.awaited w (c.keeping.flat.await w x).1]) first
    rw [noted, List.append_assoc, List.append_assoc] at written
    refine ⟨_, written, fun q mem => ?_⟩
    simp only [Diary.requests_append, List.mem_append] at mem
    rcases mem with mem | mem | mem
    · obtain ⟨call, content, token, rfl, loads, sent⟩ := awaits.atMostOne.only q mem
      exact .call List.mem_cons_self loads sent
    · cases mem
    · exact (origins q mem).mono (List.subset_cons_self _ _)
  | @acted x y log a _ ih =>
    obtain ⟨D, written, origins⟩ := ih
    obtain ⟨_, first, rfl, -⟩ := c.writes_act x.1 a x.2.1 x.2.2
    have first : (c.keeping.flat.act a x).2.2.2 = _ := first
    rw [first, List.append_nil] at written
    exact ⟨D, written, fun q mem => (origins q mem).mono (List.subset_cons_self _ _)⟩
  | @chosen x y log s _ ih =>
    obtain ⟨D, written, origins⟩ := ih
    obtain ⟨D', first, picks⟩ := c.writes_choose x.1 s x.2.1 x.2.2
    have first : (c.keeping.flat.choose s x).2.2.2 = _ := first
    rw [first, List.append_assoc] at written
    refine ⟨_, written, fun q mem => ?_⟩
    rw [Diary.requests_append] at mem
    rcases List.mem_append.1 mem with mem | mem
    · obtain ⟨url, data, sent⟩ := picks.put_of_mem mem
      exact .part List.mem_cons_self sent
    · exact (origins q mem).mono (List.subset_cons_self _ _)

/-- Each request of a run comes from a course of the activity to the result of the run. -/
theorem origins (a : Activity α) (v : Session) (s : S) :
    ∃ log, a.Course log (c.run a v s).1.1 ∧
      ∀ q ∈ (c.diary a v s).requests, Origin c.gateway log q := by
  obtain ⟨log, y, course, leads, ends⟩ := c.exists_leads a v s
  obtain ⟨D, written, origins⟩ := c.origins_of_leads leads
  have whole : c.diary a v s = D := (congrArg Prod.snd ends).symm.trans written
  exact ⟨log, course, whole ▸ origins⟩

/-- A single call sends no more than its own request. -/
lemma atMostOne_call (call : Call) (bare : ∀ file dir name, call ≠ .uploadSmall file dir name)
    (v : Session) (s : S) :
    (c.diary (Activity.call call) v s).AtMostOne fun q =>
      ∃ token, (c.gateway.demand [] call).request? token = some q := by
  obtain ⟨log, k, course, tells⟩ := c.tells (Activity.call call) v s
  rcases tells.of_waits (Activity.Course.of_call course) with
    ⟨written, -⟩ | ⟨D, reply, awaits, written, -⟩
  · rw [written]
    exact .of_nil rfl
  · rw [written]
    refine .append (awaits.atMostOne.imp ?_) rfl
    rintro q ⟨_, content, token, ⟨⟩, loads, sent⟩
    obtain rfl := loads.eq_nil bare
    exact ⟨token, sent⟩

end Client

/-! ### Files that are too large -/

/-- A transfer has failed since a file is too large. -/
def outsized {α : Type} (size limit : Nat) : Except Stop α :=
  .error (.failed (.fileTooLarge size limit))

lemma eq_outsized_of_map {α β : Type} {r : Except Stop α} {f : α → β} {size limit : Nat}
    (h : r.map f = outsized size limit) : r = outsized size limit := by
  cases r with
  | ok x => cases h
  | error s => exact congrArg _ (Except.error.inj h)

/-- The error, if there is one, is not that a file is too large. -/
def Fitting {α : Type} (x : Except GatewayError α) : Prop :=
  ∀ size limit, x ≠ .error (.fileTooLarge size limit)

namespace Fitting

variable {α β : Type}

lemma ok (a : α) : Fitting (.ok a) := by
  simp [Fitting]

lemma error {e : GatewayError} (h : ∀ size limit, e ≠ .fileTooLarge size limit) :
    Fitting (.error e : Except GatewayError α) :=
  fun size limit same => h size limit (Except.error.inj same)

lemma bind {x : Except GatewayError α} {f : α → Except GatewayError β} (h : Fitting x)
    (next : ∀ a, Fitting (f a)) : Fitting (x >>= f) := by
  cases x with
  | ok a => exact next a
  | error e => exact fun size limit same => h size limit (congrArg _ (Except.error.inj same))

lemma map {x : Except GatewayError α} (h : Fitting x) (f : α → β) : Fitting (x.map f) := by
  cases x with
  | ok a => exact .ok (f a)
  | error e => exact fun size limit same => h size limit (congrArg _ (Except.error.inj same))

lemma mapError {ε : Type} {f : ε → GatewayError} (other : ∀ e, Fitting (.error (f e) : Except _ α))
    (x : Except ε α) : Fitting (x.mapError f) := by
  cases x with
  | ok a => exact .ok a
  | error e => exact other e

variable (r : Response)

lemma checked : Fitting r.checked := by
  rw [Response.checked]
  split
  · exact .ok r
  · split <;> simp [Fitting]

lemma successBody : Fitting r.successBody :=
  .bind (.checked r) fun r => .mapError (by simp [Fitting]) r.bytes

lemma message (α : Type) [Message α] : Fitting (r.message α) :=
  .bind (.successBody r) fun _ => .mapError (by simp [Fitting]) _

lemma startedJob : Fitting r.startedJob :=
  .bind (.message r TransferJobResponse) fun _ => .ok _

lemma firstJob (jobId : Int64) : Fitting (r.firstJob jobId) := by
  refine .bind (.message r JobsResponse) fun answer => ?_
  cases answer.jobs with
  | nil => exact .error (by simp)
  | cons job _ => exact .ok job

lemma attributes (path : String) : Fitting (r.attributes path) := by
  refine .bind (.message r FileStatResponse) fun answer => ?_
  cases answer.output with
  | none => exact .error (by simp)
  | some stat => exact .ok stat

/-- No answer says that a file is too large. -/
lemma read (call : Call) : Fitting (call.read r) := by
  cases call with
  | uploadPlan => exact .message r UploadPlan
  | downloadPlan => exact .message r DownloadPlan
  | job jobId => exact .firstJob r jobId
  | stat path => exact .attributes r path
  | copy | move | remove | compress | extract => exact .startedJob r
  | cancelJob | uploadSmall | complete => exact .map (.checked r) _
  | downloadSmall | fetch => exact .map (.successBody r) _

end Fitting

section

variable {g : Gateway} {d : Demand} {D : Diary} {k k' : Option AccessToken}

lemma Sends.fitting {token : Option String} {x : Except GatewayError Response}
    (h : Sends d token D x) : Fitting x := by
  cases h <;> simp [Fitting]

lemma Exchanges.fitting {x : Except GatewayError Response}
    (h : Exchanges d k D (.answered x) k') : Fitting x := by
  generalize same : Reply.answered x = reply at h
  cases h with
  | plain _ sends | authorized _ _ sends =>
    obtain rfl := Reply.answered.inj same
    exact sends.fitting
  | denied =>
    obtain rfl := Reply.answered.inj same
    simp [Fitting]
  | overrun => cases same

lemma Performs.fitting {call : Call} {x : Except GatewayError call.Answer}
    (h : Performs g call k D (.answered x) k')
    (bare : ∀ file dir name, call ≠ .uploadSmall file dir name) : Fitting x := by
  generalize same : Reply.answered x = reply at h
  cases h with
  | unread loads =>
    cases loads with
    | whole => exact absurd rfl (bare _ _ _)
  | answered _ _ receives =>
    cases receives with
    | read | wrote =>
      obtain rfl := Reply.answered.inj same
      exact .read _ call
    | unwritten =>
      obtain rfl := Reply.answered.inj same
      simp [Fitting]
  | failed _ exchanges =>
    obtain rfl := Reply.answered.inj same
    exact fun size limit same =>
      exchanges.fitting size limit (congrArg _ (Except.error.inj same))
  | overrun => cases same

lemma TransferError.ofGateway_eq_fileTooLarge {e : GatewayError} {size limit : Nat}
    (h : ofGateway e = .fileTooLarge size limit) : e = .fileTooLarge size limit := by
  cases e <;> cases h
  rfl

/-- Only the call that sends a whole file can be told that the file is too large. -/
lemma Awaits.exists_uploadSmall {w : Await} {size limit : Nat}
    (h : Awaits g w k D (.fail (.fileTooLarge size limit)) k') :
    ∃ file dir name, w = .call (.uploadSmall file dir name) := by
  generalize failed : Reply.fail (TransferError.fileTooLarge size limit) = reply at h
  cases h with
  | @call call _ _ _ x performs =>
    cases x with
    | ok x => cases failed
    | error e =>
      have told := TransferError.ofGateway_eq_fileTooLarge
        (Except.error.inj (Reply.answered.inj failed)).symm
      by_contra none'
      have bare : ∀ file dir name, call ≠ .uploadSmall file dir name :=
        fun file dir name same => none' ⟨file, dir, name, congrArg _ same⟩
      exact performs.fitting bare size limit (congrArg _ told)
  | callOverrun => cases failed
  | callCancelled => cases failed
  | _ => cases failed

end

end StagedTransfer
