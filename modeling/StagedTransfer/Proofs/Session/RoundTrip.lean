import Mathlib
import StagedTransfer.Proofs.Session.Sending
import StagedTransfer.Proofs.Upload.Stages

/-!
# Round trips

A file that has been uploaded to an object store part by part comes back as it was when the object
is downloaded, whatever its bytes are, how large its parts, and in whatever order they were sent and
answered for. The store is told the tags that it has issued.
-/

namespace StagedTransfer

open Activity Http Wire

/-! ### Objects -/

namespace Depot

variable {places : List Url} {contents : Bytes} {partSize : Nat} {d : Depot}

/-- The object is a content, and the manifest has listed the places in order, each under the tag
that was issued for it. -/
structure Assembled (places : List Url) (contents : Bytes) (d : Depot) : Prop where
  object : d.object = some contents
  listed : d.listed.map (fun part => (part.1, some part.2)) =
    (List.range' 1 places.length).zip (places.map fun place => (d.kept place).map (·.2))

lemma Stores.body? {n : Nat} {tag : String} (hn : 1 ≤ n)
    (h : d.Stores places contents partSize n tag) :
    d.body? places n = some (slice contents partSize (n - 1)) := by
  obtain ⟨n, rfl⟩ := Nat.exists_eq_add_one.2 hn
  obtain ⟨url, hu, kept⟩ := h
  rw [Nat.add_sub_cancel] at hu kept ⊢
  simp only [Depot.body?, hu, kept, Option.bind_eq_bind, Option.bind_some, Option.pure_def]

lemma mapM_eq_some {α β : Type} {f : α → Option β} {g : α → β} {l : List α}
    (h : ∀ a ∈ l, f a = some (g a)) : l.mapM f = some (l.map g) := by
  induction l with
  | nil => rfl
  | cons a l ih =>
    rw [List.mapM_cons, h a List.mem_cons_self, ih fun b hb => h b (List.mem_cons_of_mem a hb)]
    rfl

/-- The parts of a file put together in the order of the manifest are the file. -/
theorem assemble?_toXml (hp : 0 < partSize)
    (count : places.length = partCount contents.length partSize) {tag : Nat → String}
    (stores : ∀ n ∈ List.range' 1 places.length, d.Stores places contents partSize n (tag n)) :
    ∃ e, d.assemble? places (Utf8.encode (Manifest.toXml
        ⟨(List.range' 1 places.length).map fun n => (n, tag n)⟩)) = some e ∧
      e.Assembled places contents ∧ e.rounds = d.rounds := by
  -- The store has kept each part under its number, and the parts in order are the file.
  have bodies : ((List.range' 1 places.length).map fun n => (n, tag n)).mapM
      (fun part => d.body? places part.1) =
        some ((List.range' 1 places.length).map fun n => slice contents partSize (n - 1)) := by
    rw [List.mapM_map]
    exact mapM_eq_some fun n hn => (stores n hn).body? (List.mem_range'_1.1 hn).1
  have whole :
      ((List.range' 1 places.length).map fun n => slice contents partSize (n - 1)).flatten =
        contents := by
    rw [count, List.range'_eq_map_range, List.map_map]
    refine .trans (congrArg List.flatten (List.map_congr_left fun k _ => ?_))
      (flatten_slice_partCount hp contents)
    simp
  refine ⟨{ d with
    listed := (List.range' 1 places.length).map fun n => (n, tag n)
    object := some contents }, ?_, ⟨rfl, ?_⟩, rfl⟩
  · rw [assemble?, Utf8.decode?_encode]
    simp only [Option.bind_eq_bind, Option.bind_some, Manifest.ofXml?_toXml, bodies, whole,
      Option.pure_def]
  · rw [List.map_map]
    refine List.ext_getElem (by simp) fun i hi hi' => ?_
    have bound : i < places.length := by simpa using hi
    obtain ⟨url, hu, kept⟩ := stores (1 + i) (List.mem_range'_1.2 ⟨by omega, by omega⟩)
    rw [Nat.add_sub_cancel_left, List.getElem?_eq_getElem bound] at hu
    simp [Option.some.inj hu, kept]

end Depot

/-! ### Gateways -/

/-- A step of a session comes to an answer and changes neither the disk nor the depot. -/
def Visit.Gives {σ α : Type} (depot : σ → Depot) (step : Visit (StateM (Site σ)) α) (a : α) :
    Prop :=
  ∀ v x, step.Comes v x fun b _ y => b = a ∧ x.Alike depot y

/-- A gateway that answers a request for an upload and one for a download with plans, and reports
the job of the download as one that ends after some rounds. -/
structure Grants {σ : Type}
    (gateway : (w : Await) → Visit (StateM (Site σ)) (Reply TransferError w.Answer))
    (depot : σ → Depot) (request : UploadPlanRequest) (plan : UploadPlan)
    (wanted : DownloadPlanRequest) (staged : DownloadPlan) : Prop where
  upload   : (gateway (.call (.uploadPlan request))).Gives depot (.ok plan)
  download : (gateway (.call (.downloadPlan wanted))).Gives depot (.ok staged)
  token    : ∀ v x, (gateway .tokenExpired).Comes v x fun r _ y =>
    (∃ expired, r = .ok expired) ∧ x.Alike depot y
  refresh  : (gateway .refresh).Gives depot (.ok ())
  pause    : ∀ d, (gateway (.pause d)).Gives depot (.ok ())
  job      : ∀ v x, (gateway (.call (.job staged.transferJob.jobId))).Comes v x fun r _ y =>
    ∃ job state, r = .ok job ∧ job.jobState? = some state ∧
      (if (depot x.far).rounds = 0 then state = .completed else state.isTerminal = false) ∧
      y.disk = x.disk ∧ depot y.far = { depot x.far with rounds := (depot x.far).rounds - 1 }

namespace Profile

variable {σ : Type} {f : FarSide σ} {depot : σ → Depot} {places : List Url}
  {completion download : Url} (serves : f.Serves depot places completion download) (g : Gateway)
  (source : StateM (Site σ) (Reply TokenError AccessToken))
  {gateway : (w : Await) → Visit (StateM (Site σ)) (Reply TransferError w.Answer)}
  {v : Session} {x : Site σ}

section

include serves

lemma ends_emit (e : Event) : (emit e).Ends ((f.client g source).behind gateway) v x
    fun _ _ y => x.Alike depot y :=
  .perform ((serves.comes_emit g source v x gateway e).imp fun _ _ _ h => h.2)

lemma ends_enter (p : Phase) : (perform (.enter p)).Ends ((f.client g source).behind gateway) v x
    fun _ _ y => x.Alike depot y :=
  .perform ((serves.comes_enter g source v x gateway p).imp fun _ _ _ h => h.2)

/-- What is given is waited for. -/
lemma ends_awaiting {w : Await} {a : w.Answer}
    (given : (((f.client g source).behind gateway).await w).Gives depot (.ok a)) :
    (awaiting w).Ends ((f.client g source).behind gateway) v x fun b _ y =>
      b = a ∧ x.Alike depot y := by
  refine .awaiting (serves.comes_cancelled g source v x gateway) ?_
  rintro v y ⟨rfl, same⟩
  apply (given v y).imp
  rintro _ w z ⟨rfl, same'⟩
  exact ⟨a, rfl, rfl, same.trans same'⟩

end

lemma ends_size {file : String} {contents : Bytes} (content : x.disk.content file = .ok contents) :
    (perform (.size file)).Ends ((f.client g source).behind gateway) v x fun n w y =>
      n = .ok contents.length ∧ w = v ∧ y = x := by
  refine .perform ⟨?_, rfl, rfl⟩
  change x.disk.size file = _
  rw [Disk.content] at content
  rw [Disk.size]
  cases he : x.disk.entry file with
  | error e =>
    rw [he] at content
    cases content
  | ok entry =>
    rw [he] at content
    cases entry with
    | file bytes =>
      cases content
      rfl
    | folder => cases content

/-! ### Uploads -/

variable (p : Profile) {file : String} {plan : UploadPlan} {contents : Bytes}

/-- The disk is as it was, and the store holds a file as an object. -/
structure Uploaded (depot : σ → Depot) (places : List Url) (contents : Bytes) (x y : Site σ) :
    Prop where
  disk   : y.disk = x.disk
  object : (depot y.far).Assembled places contents
  rounds : (depot y.far).rounds = (depot x.far).rounds

lemma Uploaded.of_alike {y z : Site σ} (same : x.Alike depot y)
    (h : Uploaded depot places contents y z) : Uploaded depot places contents x z :=
  ⟨h.disk.trans same.disk, h.object, h.rounds.trans (congrArg Depot.rounds same.depot)⟩

lemma Uploaded.alike {y z : Site σ} (h : Uploaded depot places contents x y)
    (same : y.Alike depot z) : Uploaded depot places contents x z :=
  ⟨same.disk.trans h.disk, same.depot ▸ h.object, (congrArg Depot.rounds same.depot).trans h.rounds⟩

section

variable (content : x.disk.content file = .ok contents) (fits : Fits plan contents.length)
  (distinct : places.Nodup) (addresses : plan.partsUploadUrls.map Url.parse? = places.map some)
  (crowd : p.slots ≤ slotLimit)

include serves content fits distinct addresses crowd

lemma ends_sendParts :
    (p.sendParts file plan).Ends ((f.client g source).behind gateway) v x fun etags _ y =>
      Sending.Stored depot places contents plan.maxPartSize.toNat plan.partsUploadUrls x.disk
        (depot x.far).rounds etags y := by
  have positive := fits.positive
  have opened : PartReader.open (.ok contents.length) plan.maxPartSize.toNat =
      .ok (.after plan.maxPartSize.toNat contents.length 0) := by
    rw [PartReader.open, if_neg (by omega), PartReader.after]
    simp
  have needed : ¬partCount (PartReader.after plan.maxPartSize.toNat contents.length 0).fileSize
      plan.maxPartSize.toNat ≠ plan.partsUploadUrls.length :=
    Decidable.not_not.2 fits.count.symm
  rw [sendParts, if_neg (by omega)]
  apply (ends_size g source content).bind
  rintro _ v x ⟨rfl, rfl, rfl⟩
  simp only [opened]
  rw [if_neg needed, if_neg (Nat.not_lt.2 crowd)]
  refine .send (serves.comes_cancelled g source v x gateway) ?_
  rintro v y ⟨rfl, same⟩
  have slots : 0 < p.slots := Nat.lt_of_lt_of_le Nat.zero_lt_one (Nat.le_max_left 1 p.parallel)
  refine (Sending.comes_send serves g source gateway addresses positive fits.count distinct content
    slots v same.disk (congrArg Depot.rounds same.depot)).imp ?_
  rintro _ w z ⟨etags, rfl, stored⟩
  exact ⟨etags, rfl, stored⟩

lemma ends_sendFile (completes : Url.parse? plan.completeUploadUrl = some completion) :
    (p.sendFile file plan).Ends ((f.client g source).behind gateway) v x fun _ _ y =>
      Uploaded depot places contents x y := by
  rw [sendFile]
  apply (ends_sendParts serves g source p content fits distinct addresses crowd).bind
  rintro etags v y ⟨disk, rounds, tag, ofEtags, stores⟩
  have length : plan.partsUploadUrls.length = places.length := by
    simpa using congrArg List.length addresses
  have count : places.length = partCount contents.length plan.maxPartSize.toNat :=
    length.symm.trans fits.count
  rw [length] at ofEtags stores
  obtain ⟨d, assembled, object, rounds'⟩ := Depot.assemble?_toXml fits.positive count stores
  rw [length]
  simp only [ofEtags]
  refine Ends.bind (P := fun _ _ z => z.disk = y.disk ∧ depot z.far = d) (.awaiting
    (serves.comes_cancelled g source v y gateway) ?_) ?_
  · rintro v z ⟨rfl, same⟩
    rw [← same.depot] at assembled
    apply (serves.comes_complete g source v z gateway completes assembled).imp
    rintro _ w u ⟨rfl, rfl, disk', depot'⟩
    exact ⟨(), rfl, disk'.trans same.disk, depot'⟩
  · rintro ⟨⟩ v z ⟨disk', rfl⟩
    apply (ends_emit serves g source _).bind
    rintro ⟨⟩ v u same
    exact .pure (Uploaded.alike ⟨disk'.trans disk, object, rounds'.trans rounds⟩ same)

end

include serves

/-- What is told at the end changes nothing. -/
lemma ends_concluding {α : Type} {a : Activity (Int64 × α)} {P : α → Site σ → Prop}
    (h : a.Ends ((f.client g source).behind gateway) v x fun r _ y => P r.2 y) :
    (concluding a).Ends ((f.client g source).behind gateway) v x fun b _ z =>
      ∃ y, P b y ∧ y.Alike depot z := by
  rw [concluding]
  apply h.attempt.bind
  rintro _ v y ⟨⟨jobId, b⟩, rfl, hP⟩
  apply (ends_enter serves g source _).bind
  rintro ⟨⟩ v z same
  apply (ends_emit serves g source _).bind
  rintro ⟨⟩ v u same'
  exact .pure ⟨y, hP, same.trans same'⟩

/-- An upload to a store ends with the number of its job, and the store holds the file. -/
lemma ends_uploadLarge (content : x.disk.content file = .ok contents)
    (fits : Fits plan contents.length) (distinct : places.Nodup)
    (addresses : plan.partsUploadUrls.map Url.parse? = places.map some)
    (crowd : p.slots ≤ slotLimit) (completes : Url.parse? plan.completeUploadUrl = some completion)
    {remote dir name : String} (split : RemotePath.split remote = .ok (dir, name))
    (granted : (gateway (.call (.uploadPlan (p.requestFor dir name contents.length)))).Gives depot
      (.ok plan)) :
    (p.uploadLarge file remote false).Ends ((f.client g source).behind gateway) v x fun id _ y =>
      id = plan.transferJob.jobId ∧ Uploaded depot places contents x y := by
  have steps : (p.uploadSteps file remote false).Ends ((f.client g source).behind gateway) v x
      fun r _ y => r.2 = plan.transferJob.jobId ∧ Uploaded depot places contents x y := by
    rw [uploadSteps, split]
    refine Ends.bind (P := fun r w y => r = (dir, name) ∧ w = v ∧ y = x)
      (.ofExcept ⟨rfl, rfl, rfl⟩) ?_
    rintro _ v x ⟨rfl, rfl, rfl⟩
    apply (ends_size g source content).bind
    rintro _ v x ⟨rfl, rfl, rfl⟩
    refine Ends.bind (P := fun n w y => n = contents.length ∧ w = v ∧ y = x)
      (.ofExcept ⟨rfl, rfl, rfl⟩) ?_
    rintro _ v x ⟨rfl, rfl, rfl⟩
    have planned : (call (.uploadPlan (p.requestFor dir name contents.length))).Ends
        ((f.client g source).behind gateway) v x fun b _ y => b = plan ∧ x.Alike depot y :=
      ends_awaiting serves g source granted
    apply planned.bind
    rintro _ v y₁ ⟨rfl, same₁⟩
    apply (ends_emit serves g source _).bind
    rintro ⟨⟩ v y₂ same₂
    apply (ends_enter serves g source _).bind
    rintro ⟨⟩ v y₃ same₃
    have same := (same₁.trans same₂).trans same₃
    refine (ends_sendFile serves g source p (same.disk ▸ content) fits distinct addresses crowd
      completes).bind ?_
    rintro etags v y₄ uploaded
    apply (ends_enter serves g source _).bind
    rintro ⟨⟩ v y₅ same₅
    exact .pure ⟨rfl, (uploaded.of_alike same).alike same₅⟩
  refine (ends_concluding (P := fun id y => id = plan.transferJob.jobId ∧
    Uploaded depot places contents x y) serves g source steps).imp ?_
  rintro id w z ⟨y, ⟨hid, uploaded⟩, same⟩
  exact ⟨hid, uploaded.alike same⟩

/-! ### Downloads -/

section

variable {request : UploadPlanRequest} {wanted : DownloadPlanRequest} {staged : DownloadPlan}
  (grants : Grants gateway depot request plan wanted staged)

include grants

lemma ends_ensureToken : ensureToken.Ends ((f.client g source).behind gateway) v x
    fun _ _ y => x.Alike depot y := by
  rw [ensureToken]
  refine Ends.bind (P := fun _ _ y => x.Alike depot y) (.awaiting
    (serves.comes_cancelled g source v x gateway) ?_) ?_
  · rintro v y ⟨rfl, same⟩
    apply (grants.token v y).imp
    rintro _ w z ⟨⟨expired, rfl⟩, same'⟩
    exact ⟨expired, rfl, same.trans same'⟩
  · intro expired v y same
    cases expired with
    | false => exact .pure same
    | true =>
      have refreshed : (awaiting .refresh).Ends ((f.client g source).behind gateway) v y
          fun b _ z => b = () ∧ y.Alike depot z := ends_awaiting serves g source grants.refresh
      exact refreshed.imp fun _ _ _ h => same.trans h.2

/-- One question for the job of the download. -/
lemma ends_call_job : (call (.job staged.transferJob.jobId)).Ends
    ((f.client g source).behind gateway) v x fun job _ y =>
      ∃ state, SchedulerJob.jobState? job = some state ∧
        (if (depot x.far).rounds = 0 then state = .completed else state.isTerminal = false) ∧
        y.disk = x.disk ∧ depot y.far = { depot x.far with rounds := (depot x.far).rounds - 1 } := by
  refine .awaiting (serves.comes_cancelled g source v x gateway) ?_
  rintro v y ⟨rfl, same⟩
  apply (grants.job v y).imp
  rintro _ w z ⟨job, state, rfl, reported, stage, disk, depot'⟩
  rw [same.depot] at stage depot'
  exact ⟨job, rfl, state, reported, stage, disk.trans same.disk, depot'⟩

/-- A wait for the job of the download comes to its end and leaves the object as it is. -/
lemma ends_waitFrom (w : WaitPlan) (left : Nat) (delay : Span) {fuel : Nat}
    (enough : (depot x.far).rounds < fuel) :
    (waitFrom w staged.transferJob.jobId fuel left delay).Ends ((f.client g source).behind gateway)
      v x fun _ _ y => y.disk = x.disk ∧ (depot y.far).object = (depot x.far).object := by
  induction fuel generalizing v x delay with
  | zero => omega
  | succ fuel ih =>
    rw [waitFrom]
    apply (ends_ensureToken serves g source grants).bind
    rintro ⟨⟩ v y₁ same₁
    apply (ends_call_job serves g source grants).attempt.bind
    rintro _ v y₂ ⟨job, rfl, state, reported, stage, disk, depot'⟩
    rw [same₁.depot] at stage depot'
    simp only [reported]
    apply (ends_emit serves g source _).bind
    rintro ⟨⟩ v y₃ same₃
    have disk₃ : y₃.disk = x.disk := same₃.disk.trans (disk.trans same₁.disk)
    have depot₃ : depot y₃.far = { depot x.far with rounds := (depot x.far).rounds - 1 } :=
      same₃.depot.trans depot'
    -- With no round left the job has completed. With one left the rest of the wait has one fewer.
    by_cases last : (depot x.far).rounds = 0
    · rw [if_pos last] at stage
      subst stage
      exact .ofExcept ⟨disk₃, by rw [depot₃]⟩
    · rw [if_neg last] at stage
      rw [stage, if_neg Bool.false_ne_true]
      have paused : (awaiting (.pause w.interval)).Ends ((f.client g source).behind gateway) v y₃
          fun b _ z => b = () ∧ y₃.Alike depot z := ends_awaiting serves g source (grants.pause _)
      apply paused.bind
      rintro ⟨⟩ v y₄ ⟨-, same₄⟩
      have fewer : (depot y₄.far).rounds < fuel := by
        rw [same₄.depot, depot₃]
        change (depot x.far).rounds - 1 < fuel
        omega
      apply (ih w.interval fewer).imp
      rintro _ _ z ⟨disk', object⟩
      refine ⟨disk'.trans (same₄.disk.trans disk₃), object.trans ?_⟩
      rw [same₄.depot, depot₃]

/-- A download from a store ends with the length of the object, which has been written. -/
lemma ends_downloadLarge {remote : String} (hw : wanted = ⟨remote, p.account⟩)
    (downloads : Url.parse? staged.downloadUrl = some download)
    (enough : (depot x.far).rounds < p.patience) {object : Bytes}
    (kept : (depot x.far).object = some object) {disk : Disk}
    (writes : x.disk.write file object = .ok disk) :
    (p.downloadLarge remote file).Ends ((f.client g source).behind gateway) v x fun n _ y =>
      n = object.length ∧ y.disk = disk := by
  subst hw
  have steps : (p.downloadSteps remote file).Ends ((f.client g source).behind gateway) v x
      fun r _ y => r.2 = object.length ∧ y.disk = disk := by
    rw [downloadSteps]
    -- Up to the fetch no step changes the disk or the object. The fetch writes the object.
    have planned : (call (.downloadPlan ⟨remote, p.account⟩)).Ends
        ((f.client g source).behind gateway) v x fun b _ y => b = staged ∧ x.Alike depot y :=
      ends_awaiting serves g source grants.download
    apply planned.bind
    rintro staged v y₁ ⟨rfl, same₁⟩
    apply (ends_emit serves g source _).bind
    rintro ⟨⟩ v y₂ same₂
    apply (ends_enter serves g source _).bind
    rintro ⟨⟩ v y₃ same₃
    have same := (same₁.trans same₂).trans same₃
    apply (ends_waitFrom serves g source grants p.wait _ _ (same.depot ▸ enough)).bind
    rintro job v y₄ ⟨disk₄, object₄⟩
    apply (ends_enter serves g source _).bind
    rintro ⟨⟩ v y₅ same₅
    apply (ends_emit serves g source _).bind
    rintro ⟨⟩ v y₆ same₆
    have later := same₅.trans same₆
    have disk₆ : y₆.disk = x.disk := later.disk.trans (disk₄.trans same.disk)
    have kept₆ : (depot y₆.far).object = some object := by
      rw [later.depot, object₄, same.depot, kept]
    have fetched : (call (.fetch staged.downloadUrl file)).Ends ((f.client g source).behind gateway)
        v y₆ fun n _ z => n = object.length ∧ z.disk = disk := by
      refine .awaiting (serves.comes_cancelled g source v y₆ gateway) ?_
      rintro v z ⟨rfl, same'⟩
      refine (serves.comes_fetch g source v z gateway downloads (same'.depot ▸ kept₆)
        (same'.disk ▸ disk₆ ▸ writes)).imp ?_
      rintro _ w u ⟨rfl, rfl, disk', -⟩
      exact ⟨_, rfl, rfl, disk'⟩
    apply fetched.attempt.bind
    rintro _ v z ⟨n, rfl, rfl, disk'⟩
    exact .pure ⟨rfl, disk'⟩
  refine (ends_concluding (P := fun n y => n = object.length ∧ y.disk = disk) serves g source
    steps).imp ?_
  rintro n w z ⟨y, ⟨hn, disk'⟩, same⟩
  exact ⟨hn, same.disk.trans disk'⟩

end

/-! ### There and back -/

/-- A file that has been uploaded to a store comes back as it was. The store holds the file, read
from the manifest with the tags that it has issued, and as long as it does a download writes the
file. -/
theorem downloadLarge_after_uploadLarge {staged : DownloadPlan}
    {remote dir name : String}
    (grants : Grants gateway depot (p.requestFor dir name contents.length) plan
      ⟨remote, p.account⟩ staged)
    (split : RemotePath.split remote = .ok (dir, name))
    (content : x.disk.content file = .ok contents) (fits : Fits plan contents.length)
    (crowd : p.slots ≤ slotLimit) (distinct : places.Nodup)
    (addresses : plan.partsUploadUrls.map Url.parse? = places.map some)
    (completes : Url.parse? plan.completeUploadUrl = some completion)
    (downloads : Url.parse? staged.downloadUrl = some download)
    (enough : (depot x.far).rounds < p.patience) :
    let sent := (p.uploadLarge file remote false).run ((f.client g source).behind gateway) v x
    sent.1.1 = .ok plan.transferJob.jobId ∧ sent.2.disk = x.disk ∧
      (depot sent.2.far).Assembled places contents ∧
      ∀ target w (y : Site σ) disk, depot y.far = depot sent.2.far →
        y.disk.write target contents = .ok disk →
        let got := (p.downloadLarge remote target).run ((f.client g source).behind gateway) w y
        got.1.1 = .ok contents.length ∧ got.2.disk.content target = .ok contents := by
  obtain ⟨id, hid, rfl, uploaded⟩ := ends_uploadLarge serves g source p content fits distinct
    addresses crowd completes split (v := v) grants.upload
  refine ⟨hid, uploaded.disk, uploaded.object, fun target w y disk same writes => ?_⟩
  have kept : (depot y.far).object = some contents := by
    rw [same]
    exact uploaded.object.object
  have enough' : (depot y.far).rounds < p.patience := by
    rw [same, uploaded.rounds]
    exact enough
  obtain ⟨n, hn, rfl, written⟩ := ends_downloadLarge serves g source p grants rfl downloads enough'
    kept (v := w) writes
  refine ⟨hn, ?_⟩
  rw [written]
  exact Disk.content_write writes

end Profile

/-! ### A store of a single tag -/

/-- What comes of a request to a store that issues one tag for all parts. -/
def Depot.answer (places : List Url) (r : Request) (d : Depot) : Outcome × Depot :=
  match r.method, r.body with
  | .put,  .content _ body     =>
    (.answered ⟨200, [("etag", Utf8.encode "\"<&>\"")], [], true⟩, d.keep r.url body "\"<&>\"")
  | .post, .content _ document =>
    match d.assemble? places document with
    | some e => (.answered ⟨200, [], [], true⟩, e)
    | none   => (.answered ⟨400, [], [], true⟩, d)
  | _,     _                   =>
    match d.object with
    | some object => (.answered ⟨200, [], object, true⟩, d)
    | none        => (.answered ⟨404, [], [], true⟩, d)

/-- A far side that is such a store, and prefers the second of the things that may happen next. -/
def Depot.farSide (places : List Url) : FarSide Depot where
  exchange  := Depot.answer places
  now       := pure default
  pause _   := pure ()
  cancelled := pure false
  prefer    := pure 1
  listen _  := pure ()
  enter _   := pure ()

lemma Depot.serves_farSide (places : List Url) (completion download : Url) :
    (Depot.farSide places).Serves id places completion download where
  cancelled _ := ⟨rfl, rfl⟩
  prefer _    := rfl
  listen _ _  := rfl
  enter _ _   := rfl
  put _ _ _ _ := ⟨_, _, rfl, rfl, by decide +kernel, rfl⟩
  complete document d e h := by
    have answer : Depot.answer places
        ⟨.post, completion, none, .content (some "application/xml") document⟩ d =
          (.answered ⟨200, [], [], true⟩, e) := by
      simp only [Depot.answer, show d.assemble? places document = some e from h]
    exact ⟨_, congrArg Prod.fst answer, rfl, congrArg Prod.snd answer⟩
  fetch object d h := by
    have answer : Depot.answer places ⟨.get, download, none, .empty⟩ d =
        (.answered ⟨200, [], object, true⟩, d) := by
      simp only [Depot.answer, show d.object = some object from h]
    exact ⟨_, congrArg Prod.fst answer, rfl, rfl, rfl, congrArg Prod.snd answer⟩

/-- A gateway that answers with two plans, and for the job of the second as often as told by a job
that is running. -/
def Depot.gateway (plan : UploadPlan) (staged : DownloadPlan) :
    (w : Await) → Visit (StateM (Site Depot)) (Reply TransferError w.Answer)
  | .call (.uploadPlan _)   => pure (.ok plan)
  | .call (.downloadPlan _) => pure (.ok staged)
  | .call (.job jobId)      => fun v x =>
    let state := if x.far.rounds = 0 then "COMPLETED" else "RUNNING"
    let job : SchedulerJob := { (default : SchedulerJob) with
      jobId, status := some { (default : JobStatus) with state := some state } }
    ((.ok job, v), { x with far := { x.far with rounds := x.far.rounds - 1 } })
  | .call _                 => pure (.overrun .slots)
  | .tokenExpired           => pure (.ok false)
  | .refresh                => pure (.ok ())
  | .pause _                => pure (.ok ())

lemma Depot.grants_gateway (request : UploadPlanRequest) (plan : UploadPlan)
    (wanted : DownloadPlanRequest) (staged : DownloadPlan) :
    Grants (Depot.gateway plan staged) id request plan wanted staged where
  upload _ x   := ⟨rfl, .refl x⟩
  download _ x := ⟨rfl, .refl x⟩
  token _ x    := ⟨⟨false, rfl⟩, .refl x⟩
  refresh _ x  := ⟨rfl, .refl x⟩
  pause _ _ x  := ⟨rfl, .refl x⟩
  job _ x      := by
    by_cases last : x.far.rounds = 0
    · refine ⟨_, .completed, rfl, ?_, by simp [last], rfl, rfl⟩
      simp only [last, if_true]
      change JobState.ofReport? (some "COMPLETED") = _
      decide +kernel
    · refine ⟨_, .running, rfl, ?_, by simp [last, JobState.isTerminal], rfl, rfl⟩
      simp only [last, if_false]
      change JobState.ofReport? (some "RUNNING") = _
      decide +kernel

/-! #### A file of two parts -/

namespace Profile

def storePlace (name : String) : Url :=
  ⟨.http, "store".toList, 80, [name.toList], none⟩

def storePlan : UploadPlan :=
  ⟨["http://store/1", "http://store/2"], "http://store/done", 2,
    { (default : TransferJob) with jobId := 7 }⟩

def storeStage : DownloadPlan :=
  ⟨"http://store/object", { (default : TransferJob) with jobId := 8 }⟩

def storeEnvironment : Environment (Visit (StateM (Site Depot))) :=
  ((Depot.farSide [storePlace "1", storePlace "2"]).client ⟨"", "", 0⟩
    (pure (.fail (.http "")))).behind (Depot.gateway storePlan storeStage)

/-- The second part arrives first, and the job of the download is running at first. -/
theorem downloadLarge_after_uploadLarge_secondFirst :
    let p : Profile := ⟨none, .default, 2, 0, 3⟩
    let sent := (p.uploadLarge "a" "/there/file" false).run storeEnvironment .start
      ⟨⟨[(["a"], .file [1, 2, 3])]⟩, ⟨fun _ => none, [], none, 1⟩⟩
    let got := (p.downloadLarge "/there/file" "b").run storeEnvironment sent.1.2 sent.2
    sent.1.1 = .ok 7 ∧ sent.2.far.Assembled [storePlace "1", storePlace "2"] [1, 2, 3] ∧
      got.1.1 = .ok 3 ∧ got.2.disk.content "b" = .ok [1, 2, 3] := by
  intro p sent got
  have grants : Grants (Depot.gateway storePlan storeStage) id
      (p.requestFor "/there" "file" (List.length [1, 2, 3])) storePlan ⟨"/there/file", p.account⟩
      storeStage := Depot.grants_gateway _ _ _ _
  have split : RemotePath.split "/there/file" = .ok ("/there", "file") := by decide +kernel
  have content : (⟨[(["a"], .file [1, 2, 3])]⟩ : Disk).content "a" = .ok [1, 2, 3] := by
    cbv
  have fits : Fits storePlan (List.length [1, 2, 3]) := ⟨by decide, by decide⟩
  have writes : (⟨[(["a"], .file [1, 2, 3])]⟩ : Disk).write "b" [1, 2, 3] =
      .ok ⟨[(["a"], .file [1, 2, 3]), (["b"], .file [1, 2, 3])]⟩ := by
    cbv
  obtain ⟨id, disk, assembled, comesBack⟩ := downloadLarge_after_uploadLarge
    (Depot.serves_farSide [storePlace "1", storePlace "2"] (storePlace "done")
      (storePlace "object"))
    ⟨"", "", 0⟩ (pure (.fail (.http ""))) (v := .start)
    (x := ⟨⟨[(["a"], .file [1, 2, 3])]⟩, ⟨fun _ => none, [], none, 1⟩⟩) p grants split content fits
    (by decide) (by decide) (by decide +kernel) (by decide +kernel) (by decide +kernel) (by decide)
  obtain ⟨length, back⟩ := comesBack "b" sent.1.2 sent.2 _ rfl
    ((congrArg (fun d : Disk => d.write "b" [1, 2, 3]) disk).trans writes)
  exact ⟨id, assembled, length, back⟩

end Profile

end StagedTransfer
