import StagedTransfer.Proofs.Download.Tale
import StagedTransfer.Proofs.Session.Replay

/-!
# The destination of a download

A download through the store leaves the disk alone until the job of its plan has completed and the
store has answered the request for the object with a success. Then the file is filled with the body
of that response, and whatever goes wrong with the fetch names the file.
-/

namespace StagedTransfer

open Activity Http Wire

namespace Profile

/-! ### What a diary says of the destination -/

section

variable (p : Profile) (remote file : String)

/-- A diary ends with a success of the store, which has been asked for the object of a plan after the
job of the plan had completed. -/
def Served (plan : DownloadPlan) (response : Response) (D : Diary) : Prop :=
  ∃ head place, p.Completed remote plan head ∧ Url.parse? plan.downloadUrl = some place ∧
    response.isSuccess = true ∧
    D = head ++ [.exchanged (Store.objectRequest place) (.answered response)]

/-- What a download does to the disk, and what it reports. -/
structure Lands (before after : Disk) (D : Diary) (r : Except Stop Nat) : Prop where
  /-- The disk stays as it is unless the store has served the object. -/
  untouched : after = before ∨
    ∃ plan response here tail, p.Served remote plan response here ∧ D = here ++ tail
  /-- All that is written is what the store has served right before, and it is written to the
  file. -/
  ordered : ∀ here name content result tail, D = here ++ .wrote name content result :: tail →
    name = file ∧ ∃ plan response, p.Served remote plan response here ∧ content = response.body
  /-- After a success the file holds the whole body of the response and nothing else. -/
  landed : ∀ size, r = .ok size → ∃ here plan response, p.Served remote plan response here ∧
    D = here ++ [.wrote file response.body (.ok ()),
      .awaited (.call (.fetch plan.downloadUrl file)) (.ok size)] ∧
    response.whole = true ∧ after.content file = .ok response.body ∧ size = response.body.length
  /-- A cancellation is reported as such. -/
  cancelled : .cancelled ∈ D → r = .error (.failed .cancelled)
  /-- A fetch that fails is reported with the file. -/
  failed : ∀ url name e, .awaited (.call (.fetch url name)) (.fail e) ∈ D → e ≠ .cancelled →
    r = .error (.failed (.download file e))
  /-- So is a request for the object that is not answered with a success, or not to the end. -/
  lost : ∀ place o, .exchanged (Store.objectRequest place) o ∈ D →
    (∀ response, o = .answered response → response.isSuccess = true → response.whole = false) →
    .cancelled ∉ D → ∃ e, r = .error (.failed (.download file e))
  /-- So is a file that cannot be written. -/
  unwritten : ∀ name content e, .wrote name content (.error e) ∈ D → .cancelled ∉ D →
    r = .error (.failed (.download file (.io e)))
  /-- Nothing else is reported so: an error names the file only if the fetch has failed with it. -/
  wrapped : ∀ path e, r = .error (.failed (.download path e)) → path = file ∧ e ≠ .cancelled ∧
    ∃ url, .awaited (.call (.fetch url file)) (.fail e) ∈ D

end

variable {p : Profile} {remote file : String} {D : Diary} {r : Except Stop Nat}

lemma Tale.ordered (h : p.Tale remote file D r) {here tail : Diary} {name : String}
    {content : Bytes} {result : Except IoError Unit}
    (split : D = here ++ .wrote name content result :: tail) :
    name = file ∧ ∃ plan response, p.Served remote plan response here ∧ content = response.body := by
  have of_wrote {plan : DownloadPlan} {head F last : Diary}
      (completed : p.Completed remote plan head) (early : ∀ x ∈ head, x.Early)
      (wrote : .wrote name content result ∈ F → name = file ∧ ∃ place response,
        Url.parse? plan.downloadUrl = some place ∧ response.isSuccess = true ∧
          content = response.body ∧ F = [.exchanged (Store.objectRequest place) (.answered response),
            .wrote name content result])
      (unwritten : .wrote name content result ∉ last)
      (split : head ++ (F ++ last) = here ++ .wrote name content result :: tail) :
      name = file ∧
        ∃ plan response, p.Served remote plan response here ∧ content = response.body := by
    have mem : .wrote name content result ∈ head ++ (F ++ last) := by simp [split]
    have mem : .wrote name content result ∈ F := by
      rcases List.mem_append.1 mem with mem | mem
      · exact (early _ mem).elim
      · exact (List.mem_append.1 mem).resolve_right unwritten
    obtain ⟨named, place, response, found, success, body, rfl⟩ := wrote mem
    obtain ⟨rfl, -, -⟩ := Diary.eq_of_split
      (head ++ [.exchanged (Store.objectRequest place) (.answered response)])
      (by simpa using split) (by simpa using fun mem => early _ mem)
      unwritten
    exact ⟨named, plan, response, ⟨head, place, completed, found, success, rfl⟩, body⟩
  cases h with
  | early early => exact (early (.wrote name content result) (by simp [split])).elim
  | fetched completed early fetches =>
    exact of_wrote completed early (fun mem => (fetches.of_wrote mem).imp_right And.right) (by simp)
      split
  | abandoned completed early abandons =>
    exact of_wrote completed early abandons.of_wrote (by simp) split

lemma Tale.landed (h : p.Tale remote file D r) {before after : Disk} {size : Nat}
    (replays : Replays before D after) (ok : r = .ok size) :
    ∃ here plan response, p.Served remote plan response here ∧
      D = here ++ [.wrote file response.body (.ok ()),
        .awaited (.call (.fetch plan.downloadUrl file)) (.ok size)] ∧
      response.whole = true ∧ after.content file = .ok response.body ∧
      size = response.body.length := by
  cases h with
  | early => cases ok
  | abandoned => cases ok
  | @fetched plan head _ x completed early fetches =>
    cases x with
    | error e => cases ok
    | ok n =>
      obtain rfl := Except.ok.inj ok
      cases fetches with
      | @fetched place response found success whole =>
        refine ⟨head ++ [.exchanged (Store.objectRequest place) (.answered response)], plan, response,
          ⟨head, place, completed, found, success, rfl⟩, by simp; rfl, whole, ?_, rfl⟩
        exact Replays.content_of_wrote (D := head ++ [.exchanged (Store.objectRequest place)
          (.answered response)]) (d := before) (by simpa using replays) (by simp)

lemma Tale.of_awaited (h : p.Tale remote file D r) {url name : String}
    {reply : Reply TransferError Nat} (mem : .awaited (.call (.fetch url name)) reply ∈ D) :
    (∃ x : Except GatewayError Nat, reply = .answered (x.mapError .ofGateway) ∧
        r = x.mapError fun e => .failed (.download file (.ofGateway e))) ∨
      reply = .fail .cancelled := by
  cases h with
  | early early => cases (early _ mem : (Call.fetch url name).destination? = none)
  | @fetched _ _ _ x _ early fetches =>
    rcases List.mem_append.1 mem with mem | mem
    · cases (early _ mem : (Call.fetch url name).destination? = none)
    rcases List.mem_append.1 mem with mem | mem
    · exact (fetches.not_mem_awaited mem).elim
    · cases List.mem_singleton.1 mem
      exact .inl ⟨x, rfl, rfl⟩
  | abandoned _ early abandons =>
    rcases List.mem_append.1 mem with mem | mem
    · cases (early _ mem : (Call.fetch url name).destination? = none)
    rcases List.mem_append.1 mem with mem | mem
    · exact (abandons.not_mem_awaited mem).elim
    · cases List.mem_singleton.1 ((List.mem_cons.1 mem).resolve_left nofun)
      exact .inr rfl

lemma Tale.failed (h : p.Tale remote file D r) {url name : String} {e : TransferError}
    (mem : .awaited (.call (.fetch url name)) (.fail e) ∈ D) (other : e ≠ .cancelled) :
    r = .error (.failed (.download file e)) := by
  rcases h.of_awaited mem with ⟨x, failed, rfl⟩ | failed
  · cases x with
    | ok n => cases failed
    | error e' =>
      cases failed
      rfl
  · cases failed
    exact absurd rfl other

lemma Tale.lost (h : p.Tale remote file D r) {place : Url} {o : Outcome}
    (mem : .exchanged (Store.objectRequest place) o ∈ D)
    (broken : ∀ response, o = .answered response → response.isSuccess = true →
      response.whole = false) (still : .cancelled ∉ D) :
    ∃ e, r = .error (.failed (.download file e)) := by
  cases h with
  | early early => exact absurd (early _ mem) Bool.false_ne_true
  | @fetched _ _ _ x _ early fetches =>
    rcases List.mem_append.1 mem with mem | mem
    · exact absurd (early _ mem) Bool.false_ne_true
    · obtain ⟨e, rfl⟩ := fetches.of_exchanged (by simpa using mem) broken
      exact ⟨_, rfl⟩
  | abandoned => simp at still

lemma Tale.unwritten (h : p.Tale remote file D r) {name : String} {content : Bytes} {e : IoError}
    (mem : .wrote name content (.error e) ∈ D) (still : .cancelled ∉ D) :
    r = .error (.failed (.download file (.io e))) := by
  cases h with
  | early early => exact (early _ mem).elim
  | @fetched _ _ _ x _ early fetches =>
    rcases List.mem_append.1 mem with mem | mem
    · exact (early _ mem).elim
    · obtain ⟨-, failed, -⟩ := fetches.of_wrote (by simpa using mem)
      rw [failed e rfl]
      rfl
  | abandoned => simp at still

lemma Tale.wrapped (h : p.Tale remote file D r) {path : String} {e : TransferError}
    (failed : r = .error (.failed (.download path e))) : path = file ∧ e ≠ .cancelled ∧
      ∃ url, .awaited (.call (.fetch url file)) (.fail e) ∈ D := by
  cases h with
  | early _ bare => exact absurd (Except.error.inj failed) (bare path e)
  | @fetched plan _ _ x =>
    cases x with
    | ok n => cases failed
    | error e' =>
      cases failed
      exact ⟨rfl, by cases e' <;> simp [TransferError.ofGateway], plan.downloadUrl,
        List.mem_append_right _ (List.mem_append_right _ (List.mem_singleton_self _))⟩
  | abandoned => cases failed

lemma Tale.lands (h : p.Tale remote file D r) {before after : Disk}
    (replays : Replays before D after)
    (cancelled : .cancelled ∈ D → r = .error (.failed .cancelled)) :
    p.Lands remote file before after D r where
  untouched := by
    by_cases written : ∃ name content result, .wrote name content result ∈ D
    · obtain ⟨name, content, result, mem⟩ := written
      obtain ⟨here, tail, split⟩ := List.append_of_mem mem
      obtain ⟨-, plan, response, served, -⟩ := h.ordered split
      exact .inr ⟨plan, response, here, _, served, split⟩
    · exact .inl (replays.eq_of_unwritten (by simpa using written))
  ordered _ _ _ _ _ := h.ordered
  landed _ := h.landed replays
  cancelled := cancelled
  failed _ _ _ := h.failed
  lost _ _ := h.lost
  unwritten _ _ _ := h.unwritten
  wrapped _ _ := h.wrapped

/-- A download leaves the disk alone until the job of its plan has completed and the store has
answered with a success, and only what goes wrong after that is reported with the file. -/
theorem downloadLarge_lands {S : Type} {c : Client (StateM S)} {disk : S → Disk}
    (writes : c.WritesOn disk) (p : Profile) (remote file : String) (v : Session) (s : S) :
    p.Lands remote file (disk s) (disk (c.run (p.downloadLarge remote file) v s).2)
      (c.diary (p.downloadLarge remote file) v s)
      (c.run (p.downloadLarge remote file) v s).1.1 := by
  obtain ⟨log, k, course, tells⟩ := c.tells (p.downloadLarge remote file) v s
  have replays := writes.replays (p.downloadLarge remote file) v s
  generalize c.diary (p.downloadLarge remote file) v s = D at tells replays ⊢
  obtain ⟨first, last, r, steps, farewell, rfl, result⟩ := of_concluding course
  have downloads := Downloads.of_course steps
  have still (s : Sending.State) (c : Sending.Choice) : .chosen s c ∉ first ++ last := by
    simpa using ⟨downloads.not_mem_chosen, farewell.not_mem_chosen⟩
  have cancelled := (p.heedful_downloadLarge remote file).cancelled_of_mem course tells still
  obtain ⟨D, _, _, told, told', rfl⟩ := tells.of_append
  obtain rfl := farewell.unwritten told'
  rw [List.append_nil] at cancelled replays ⊢
  rw [result] at cancelled ⊢
  exact (Tale.of_downloads downloads told).lands replays cancelled

/-! ### A disk that is full -/

/-- A client whose gateway has a plan and a job that has completed and whose store serves three bytes,
with a disk that is full after the first of them. -/
def crowded : Client (StateM (Nat × Disk)) where
  around :=
    { exchange  := fun _ s =>
        let body := match s.1 with
          | 0 => Utf8.encode
            "\x7b\"downloadUrl\":\"http://store/o\",\"transferJob\":\x7b\"jobId\":7\x7d\x7d"
          | 1 => Utf8.encode
            "\x7b\"jobs\":[\x7b\"jobId\":7,\"status\":\x7b\"state\":\"COMPLETED\"\x7d\x7d]\x7d"
          | _ => [1, 2, 3]
        (.answered ⟨200, [], body, true⟩, s.1 + 1, s.2)
      now       := pure ⟨0⟩
      pause     := fun _ => pure ()
      cancelled := pure false
      size      := fun _ => pure (.error .earlyEnd)
      content   := fun _ => pure (.error .earlyEnd)
      write     := fun file content s =>
        (.error (.other "No space left on device (os error 28)"), s.1,
          (s.2.write file (content.take 1)).toOption.getD s.2)
      prefer    := pure 0
      listen    := fun _ => pure ()
      enter     := fun _ => pure () }
  gateway := ⟨"http://gateway", "cluster", 0⟩
  source  := pure (.ok ⟨"t", ⟨5⟩⟩)

lemma crowded_writesOn : crowded.WritesOn Prod.snd := by
  constructor
  case write =>
    intro _ _ _ ok
    cases ok
  all_goals
    intros
    rfl

/-- The object is fetched, but the file cannot be filled. -/
theorem downloadLarge_lands_crowded :
    let p : Profile := ⟨none, .default, 1, 0, 3⟩
    let D := crowded.diary (p.downloadLarge "/object" "object") .start (0, .empty)
    (D.filter (· matches .wrote _ _ (.error _))).length = 1 ∧
      p.Lands "/object" "object" .empty
        (crowded.run (p.downloadLarge "/object" "object") .start (0, .empty)).2.2 D
        (crowded.run (p.downloadLarge "/object" "object") .start (0, .empty)).1.1 := by
  intro p D
  exact ⟨by decide +kernel,
    downloadLarge_lands crowded_writesOn p "/object" "object" .start (0, .empty)⟩

end Profile

end StagedTransfer
