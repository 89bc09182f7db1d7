import StagedTransfer.Program
import StagedTransfer.Proofs.Session.Staged
import StagedTransfer.Proofs.Session.Whole

/-!
# Files of either size

The size of a file decides how it goes. It is compared with the limit twice, when the way is chosen
and again when a whole file is sent; as long as the file stays as it is both agree, so a small file
goes in a single request and a large one as if it had been sent in parts from the start.
-/

namespace StagedTransfer

open Activity Http Wire

/-- The program chooses the way of a file by the limit of its gateway. -/
theorem Program.smallLimit_ofSettings {m : Type → Type} [Monad m] (host : Host m) (s : Settings)
    (c : Credentials) (patience : Nat) :
    (ofSettings host s c patience).profile.smallLimit =
      (ofSettings host s c patience).client.gateway.smallLimit :=
  rfl

namespace Profile

variable {S : Type} (p : Profile) (c : Client (StateM S)) (v : Session) (s : S)

/-- How a file of a size is uploaded. -/
structure UploadsBySize (file remote : String) (wait : Bool) (size : Nat) : Prop where
  /-- A small file that stays as it is goes as a whole. -/
  whole : size ≤ c.gateway.smallLimit → ∀ content, c.Finds file size content s →
    GoesWhole c.gateway v.token remote content (c.diary (p.upload file remote wait) v s)
      (c.run (p.upload file remote wait) v s).1.1
  /-- A large file goes as if it had been sent in parts once its size is known. -/
  parts : c.gateway.smallLimit < size → (c.around.size file s).1 = .ok size →
    let next := (c.around.size file s).2
    let large := c.run (p.uploadLarge file remote wait) v next
    c.run (p.upload file remote wait) v s = ((large.1.1.map some, large.1.2), large.2) ∧
      c.diary (p.upload file remote wait) v s = c.diary (p.uploadLarge file remote wait) v next ∧
      (∀ q ∈ (c.diary (p.upload file remote wait) v s).requests, ∀ dir name contents token,
        (c.gateway.sendWhole dir name contents).request? token ≠ some q) ∧
      ∀ size limit, (c.run (p.upload file remote wait) v s).1.1 ≠ outsized size limit

/-- How a file is downloaded. -/
structure DownloadsBySize (remote file : String) : Prop where
  /-- At first the size is asked for, in one request. -/
  asked : (c.diary (Activity.call (.stat remote)) v s).AtMostOne fun q =>
    ∃ token, (c.gateway.demand [] (.stat remote)).request? token = some q
  /-- Nothing more is done if there is no answer. -/
  unknown : ∀ e, (c.run (Activity.call (.stat remote)) v s).1.1 = .error e →
    let asked := c.run (Activity.call (.stat remote)) v s
    c.run (p.download remote file) v s = ((.error e, asked.1.2), asked.2) ∧
      c.diary (p.download remote file) v s = c.diary (Activity.call (.stat remote)) v s
  whole : ∀ stat, (c.run (Activity.call (.stat remote)) v s).1.1 = .ok stat →
    stat.size.toNat ≤ c.gateway.smallLimit →
    let asked := c.run (Activity.call (.stat remote)) v s
    let D := c.diary (downloadSmall remote file) asked.1.2 asked.2
    c.run (p.download remote file) v s = c.run (downloadSmall remote file) asked.1.2 asked.2 ∧
      c.diary (p.download remote file) v s = c.diary (Activity.call (.stat remote)) v s ++ D ∧
      D.AtMostOne fun q =>
        ∃ token, (c.gateway.demand [] (.downloadSmall remote file)).request? token = some q
  store : ∀ stat, (c.run (Activity.call (.stat remote)) v s).1.1 = .ok stat →
    c.gateway.smallLimit < stat.size.toNat →
    let asked := c.run (Activity.call (.stat remote)) v s
    let D := c.diary (p.downloadLarge remote file) asked.1.2 asked.2
    c.run (p.download remote file) v s = c.run (p.downloadLarge remote file) asked.1.2 asked.2 ∧
      c.diary (p.download remote file) v s = c.diary (Activity.call (.stat remote)) v s ++ D ∧
      ∀ q ∈ D.requests, ∃ call token, call.OfDownload (p.downloadRequest remote) file ∧
        (c.gateway.demand [] call).request? token = some q

/-- How an upload goes on once the size of the file is known. -/
def uploadKnown (file remote : String) (wait : Bool) (size : Nat) : Activity (Option Int64) :=
  if size ≤ p.smallLimit then uploadSmall file remote >>= fun _ => pure none
  else p.uploadLarge file remote wait >>= fun jobId => pure (some jobId)

/-- How a download goes on once the size of the file is known. -/
def downloadKnown (remote file : String) (size : Nat) : Activity Nat :=
  if size ≤ p.smallLimit then downloadSmall remote file else p.downloadLarge remote file

variable {p c v s} {file remote : String} {wait : Bool} {n : Nat}

lemma run_upload (known : (c.around.size file s).1 = .ok n) :
    c.run (p.upload file remote wait) v s =
        c.run (p.uploadKnown file remote wait n) v (c.around.size file s).2 ∧
      c.diary (p.upload file remote wait) v s =
        c.diary (p.uploadKnown file remote wait n) v (c.around.size file s).2 := by
  refine Client.eq_and_diary_eq ?_
  rw [← Client.run_keeping, ← Client.run_keeping]
  change (Activity.ofExcept ((c.around.size file s).1.mapError .io) >>=
    p.uploadKnown file remote wait).run c.keeping v ((c.around.size file s).2, []) = _
  rw [known]
  rfl

lemma uploadsBySize (agree : p.smallLimit = c.gateway.smallLimit) :
    p.UploadsBySize c v s file remote wait n where
  whole small content found := by
    obtain ⟨known, again, read⟩ := found.each
    obtain ⟨run, diary⟩ := run_upload (p := p) (v := v) known
    obtain ⟨run', diary'⟩ := c.run_map (a := uploadSmall file remote) (v := v)
      (s := (c.around.size file s).2) fun _ => (none : Option Int64)
    rw [run, diary, uploadKnown, if_pos (agree ▸ small), run', diary']
    exact (Client.goesWhole_uploadSmall again small read).map _
  parts large known := by
    obtain ⟨run, diary⟩ := run_upload (p := p) (v := v) known
    obtain ⟨run', diary'⟩ := c.run_map (a := p.uploadLarge file remote wait) (v := v)
      (s := (c.around.size file s).2) some
    rw [run, diary, uploadKnown, if_neg (by rw [agree]; exact Nat.not_le.2 large), run', diary']
    refine ⟨rfl, rfl, fun q mem dir name contents token sent => ?_, fun size limit failed => ?_⟩
    · exact p.uploadLarge_requests c file remote v _ wait q mem _ (Demand.body_of_request? sent)
    · exact p.uploadLarge_ne_outsized c file remote v _ wait size limit (eq_outsized_of_map failed)

lemma run_download (p : Profile) (file : String) {stat : FileStat}
    (told : (c.run (Activity.call (.stat remote)) v s).1.1 = .ok stat) :
    let asked := c.run (Activity.call (.stat remote)) v s
    let known := p.downloadKnown remote file stat.size.toNat
    c.run (p.download remote file) v s = c.run known asked.1.2 asked.2 ∧
      c.diary (p.download remote file) v s =
        c.diary (Activity.call (.stat remote)) v s ++ c.diary known asked.1.2 asked.2 :=
  Client.run_bind_ok told fun stat => p.downloadKnown remote file stat.size.toNat

lemma downloadsBySize (agree : p.smallLimit = c.gateway.smallLimit) :
    p.DownloadsBySize c v s remote file where
  asked := c.atMostOne_call _ (by simp) v s
  unknown e failed := Client.run_bind_error failed _
  whole stat told small := by
    obtain ⟨run, diary⟩ := run_download p file told
    rw [downloadKnown, if_pos (agree ▸ small)] at run diary
    exact ⟨run, diary, c.atMostOne_call _ (by simp) _ _⟩
  store stat told large := by
    obtain ⟨run, diary⟩ := run_download p file told
    rw [downloadKnown, if_neg (by rw [agree]; exact Nat.not_le.2 large)] at run diary
    exact ⟨run, diary, p.downloadLarge_requests c file remote _ _⟩

/-- Whoever chooses the way of a file by the limit of the gateway chooses one on which the gateway
takes the file: a small one goes as a whole, a large one in parts, and none is refused for its size. -/
theorem transfers_bySize (p : Profile) (c : Client (StateM S))
    (agree : p.smallLimit = c.gateway.smallLimit) (v : Session) (s : S) :
    (∀ file remote wait size, p.UploadsBySize c v s file remote wait size) ∧
      ∀ remote file, p.DownloadsBySize c v s remote file :=
  ⟨fun _ _ _ _ => uploadsBySize agree, fun _ _ => downloadsBySize agree⟩

end Profile

/-! ### Three bytes -/

namespace Profile

/-- A client of a gateway that takes whatever comes, with files of three bytes up to the limit. -/
def threeAtOnce (baseUrl : String) : Client (StateM Unit) where
  around :=
    { exchange  := fun _ => pure (.answered ⟨201, [], [], true⟩)
      now       := pure ⟨0⟩
      pause     := fun _ => pure ()
      cancelled := pure false
      size      := fun _ => pure (.ok 3)
      content   := fun _ => pure (.ok [1, 2, 3])
      write     := fun _ _ => pure (.ok ())
      prefer    := pure 0
      listen    := fun _ => pure ()
      enter     := fun _ => pure () }
  gateway := ⟨baseUrl, "cluster", 3⟩
  source  := pure (.ok ⟨"t", ⟨9⟩⟩)

/-- A file just as large as the limit goes as a whole. -/
theorem transfers_bySize_threeAtOnce :
    let p : Profile := ⟨none, .default, 1, 3, 1⟩
    let c := threeAtOnce "http://gateway/api"
    let D := c.diary (p.upload "a" "/there/file" false) .start ()
    p.smallLimit = c.gateway.smallLimit ∧ c.Finds "a" 3 (.ok [1, 2, 3]) () ∧
      GoesWhole c.gateway none "/there/file" (.ok [1, 2, 3]) D
        (c.run (p.upload "a" "/there/file" false) .start ()).1.1 ∧
      p.DownloadsBySize c .start () "/there/file" "b" ∧
      D.requests.map (fun q => (q.url.target, q.body)) =
        [("/api/filesystem/cluster/ops/upload?path=%2Fthere", .file ⟨"file", "file", [1, 2, 3]⟩)] := by
  intro p c D
  obtain ⟨uploads, downloads⟩ := transfers_bySize p c rfl .start ()
  have whole := (uploads "a" "/there/file" false 3).whole (by decide) (.ok [1, 2, 3]) rfl
  exact ⟨rfl, rfl, whole, downloads _ _, by decide +kernel⟩

/-- Without an address on the web no request can be made, though the file has a remote name, stays as
it is and can be read, a token is granted and nothing is cancelled. -/
theorem not_sent_nowhere :
    let p : Profile := ⟨none, .default, 1, 3, 1⟩
    let c := threeAtOnce "nowhere"
    let D := c.diary (p.upload "a" "/there/file" false) .start ()
    p.smallLimit = c.gateway.smallLimit ∧ c.Finds "a" 3 (.ok [1, 2, 3]) () ∧
      3 ≤ c.gateway.smallLimit ∧ RemotePath.split "/there/file" = .ok ("/there", "file") ∧
      (∀ x ∈ D, x.allows) ∧
      D.filterMap (fun | .granted (.answered (.ok t)) => some t.text | _ => none) = ["t"] ∧
      ¬D.requests.length = 1 := by
  intro p c D
  exact ⟨rfl, rfl, by decide, by decide +kernel, by decide +kernel, by decide +kernel,
    by decide +kernel⟩

end Profile

end StagedTransfer
