import StagedTransfer.Proofs.Events.Stages
import StagedTransfer.Proofs.Upload.Slots

/-!
# What is told of the parts of a file

If nothing disturbs the sending of a file, each of its parts is told of once, by what has come of it:
its length if it has arrived, and otherwise the error. So the parts that are told of account for the
whole file, and with a single slot they are told of in order. Of a file that its plan does not fit
nothing is told, since none of it is sent.
-/

namespace StagedTransfer

open Activity Wire

/-! ### Events of parts -/

/-- The number of the part that an event is about. -/
def Event.part? : Event → Option Nat
  | .partUploaded part _ _ => some part
  | .partFailed part _     => some part
  | _                      => none

/-- How much of a file has arrived, as an event tells it. -/
def Event.arrived : Event → Nat
  | .partUploaded _ _ bytes => bytes
  | _                       => 0

namespace Sending

/-- What is told of an answer for a part of a file that is sent in parts of a size: how long the part
is if it has arrived, and otherwise the error. -/
def Settled.event (total fileSize partSize : Nat) (a : Settled) : Event :=
  match a.outcome with
  | .ok _    => .partUploaded a.number total (sliceLength fileSize partSize (a.number - 1))
  | .error e => .partFailed a.number e.message

lemma Settled.part?_event (total fileSize partSize : Nat) (a : Settled) :
    (a.event total fileSize partSize).part? = some a.number := by
  unfold event
  cases a.outcome <;> rfl

variable {total fileSize partSize : Nat} {settled : List Settled}

lemma filterMap_part?_events :
    (settled.map (Settled.event total fileSize partSize)).filterMap Event.part? =
      settled.map (·.number) := by
  rw [List.filterMap_map, ← List.filterMap_eq_map]
  refine List.filterMap_congr fun a _ => ?_
  exact a.part?_event total fileSize partSize

/-- A part is told of as failed just if the answer for it is an error. -/
lemma partFailed_mem_events_iff {n : Nat} {text : String} :
    .partFailed n text ∈ settled.map (Settled.event total fileSize partSize) ↔
      ∃ a ∈ settled, ∃ e, a.outcome = .error e ∧ a.number = n ∧ text = e.message := by
  rw [List.mem_map]
  refine exists_congr fun a => and_congr_right fun _ => ?_
  unfold Settled.event
  cases a.outcome <;> simp [eq_comm]

/-- What has arrived of a file of which each part has. -/
lemma sum_arrived {urls : List String} (hp : 0 < partSize)
    (count : urls.length = partCount fileSize partSize)
    (all : (settled.map Settled.address).Perm (numbered urls))
    (arrived : ∀ a ∈ settled, ∃ tag, a.outcome = .ok tag) :
    ((settled.map (Settled.event total fileSize partSize)).map Event.arrived).sum = fileSize := by
  have lengths : (settled.map (Settled.event total fileSize partSize)).map Event.arrived =
      (settled.map Settled.address).map fun part => sliceLength fileSize partSize (part.1 - 1) := by
    rw [List.map_map, List.map_map]
    refine List.map_congr_left fun a ha => ?_
    obtain ⟨tag, ok⟩ := arrived a ha
    simp only [Function.comp_apply, Settled.event, ok]
    rfl
  rw [lengths, (all.map _).sum_eq, map_numbered, count, sum_sliceLength_partCount hp]

end Sending

/-! ### Uploads -/

namespace Profile

variable {p : Profile} {file : String} {plan : UploadPlan} {fileSize : Nat} {log : Log}
  {r : Except Stop (OrderedMap Nat String)}

/-- The events of the parts that have been answered for. -/
def partEvents (plan : UploadPlan) (fileSize : Nat) (log : Log) : List Event :=
  (Log.answers log).map
    (Sending.Settled.event plan.partsUploadUrls.length fileSize plan.maxPartSize.toNat)

/-- The events of an upload account for the parts of a file. -/
structure Accounts (p : Profile) (plan : UploadPlan) (fileSize : Nat) (log : Log)
    (r : Except Stop (OrderedMap Nat String)) : Prop where
  /-- Each part is sent once. -/
  puts : ((Log.puts log).map (·.address)).Perm (Sending.numbered plan.partsUploadUrls)
  /-- Each part is answered for once. -/
  answers : ((Log.answers log).map (·.address)).Perm (Sending.numbered plan.partsUploadUrls)
  /-- All answers for parts are told, each by what it says, and then the completion if the store has
  accepted it. -/
  events : Log.events log = partEvents plan fileSize log ++
    (Log.posts log).filterMap (Posted.event? plan.partsUploadUrls.length)
  /-- Each part is told of once. -/
  once : ((Log.events log).filterMap Event.part?).Perm
    (List.range' 1 plan.partsUploadUrls.length)
  /-- If the upload succeeds, all that the file holds has arrived before its completion. -/
  ok : ∀ etags, r = .ok etags →
    Log.events log = partEvents plan fileSize log ++
        [.completionSent plan.partsUploadUrls.length] ∧
      ((partEvents plan fileSize log).map Event.arrived).sum = fileSize
  /-- If a part has failed, nothing is completed, and the upload reports just the parts that are told
  of as failed. -/
  failed : ∀ n text, .partFailed n text ∈ Log.events log → Log.posts log = [] ∧
    ∃ failed, r = .error (.failed (.partialUpload failed)) ∧ ∀ n text,
      .partFailed n text ∈ Log.events log ↔ ∃ url, (n, ⟨url, text⟩) ∈ failed.entries
  /-- If none has failed, the upload is completed, or not, by the store. -/
  posted : (∀ n text, .partFailed n text ∉ Log.events log) → ∃ x, Log.posts log = [x]
  /-- One after the other, the parts are told of in order. -/
  inTurn : p.parallel ≤ 1 →
    (Log.events log).filterMap Event.part? = List.range' 1 plan.partsUploadUrls.length

/-- Each part that goes on its way is as long as its place in the file. -/
lemma SendsParts.length_put (h : p.SendsParts file plan log r)
    (calm : log.Undisturbed file fileSize) {k : Sending.Held} (mem : k ∈ Log.puts log) :
    k.data.length = sliceLength fileSize plan.maxPartSize.toNat (k.number - 1) := by
  have length {n : Nat} {sending : Log} {t : Sending.State} (fits : Fits plan n)
      (course : Sending.Course file (p.startOf plan n).moveBound (p.startOf plan n) sending t)
      (mem : k ∈ Log.puts sending) :
      k.data.length = sliceLength n plan.maxPartSize.toNat (k.number - 1) := by
    obtain ⟨-, _, -, -, length⟩ := course.holds fits.positive fits.count mem
    exact length
  cases h with
  | sent fits course _ | stalled fits course _ =>
    obtain rfl := Except.ok.inj (calm.size List.mem_cons_self)
    exact length fits course mem
  | _ => cases mem

/-- If the parts go on their way at all, each is answered for, and the answers decide. -/
lemma SendsParts.settled (h : p.SendsParts file plan log r) (calm : log.Undisturbed file fileSize)
    (fits : Fits plan fileSize) (room : p.slots ≤ slotLimit) :
    ((Log.answers log).map (·.address)).Perm (Sending.numbered plan.partsUploadUrls) ∧
      ((Log.puts log).map (·.address)).Perm (Sending.numbered plan.partsUploadUrls) ∧
      r = (Sending.resultOf (Log.answers log)).mapError .failed := by
  cases h.settles calm with
  | misfit misfit => exact absurd fits misfit
  | crowded crowded => exact absurd room (Nat.not_le_of_lt crowded)
  | sent _ answers puts => exact ⟨answers, puts, rfl⟩

lemma SendsParts.inTurn (h : p.SendsParts file plan log r) (one : p.parallel ≤ 1) :
    (Log.answers log).map (·.number) = List.range' 1 (Log.answers log).length := by
  have slots : p.slots = 1 := Nat.max_eq_left one
  cases h with
  | sent _ course _ | stalled _ course _ =>
    rw [startOf, slots] at course
    exact course.answers_inTurn
  | _ => rfl

/-- What follows the parts of an upload neither sends one nor is an answer for one. -/
lemma SendsFile.exists_parts (h : p.SendsFile file plan log r) :
    ∃ before x, p.SendsParts file plan before x ∧ before ⊆ log ∧
      Log.puts log = Log.puts before ∧ Log.answers log = Log.answers before := by
  cases h with
  | stopped parts => exact ⟨log, _, parts, List.Subset.refl _, rfl, rfl⟩
  | @cancelled before etags parts =>
    refine ⟨before, _, parts, List.subset_append_left _ _, ?_, ?_⟩
    · rw [Log.puts_append]
      exact List.append_nil _
    · rw [Log.answers_append]
      exact List.append_nil _
  | @posted before last etags manifest reply r parts _ concludes =>
    refine ⟨before, _, parts, List.subset_append_left _ _, ?_, concludes.answers_posted _ _⟩
    rw [Log.puts_append]
    change Log.puts before ++ Log.puts last = _
    rw [concludes.puts_eq_nil, List.append_nil]

/-- The answers for parts are told by what they say, and then the completion. -/
lemma SendsFile.events_eq_partEvents (h : p.SendsFile file plan log r)
    (calm : log.Undisturbed file fileSize) :
    Log.events log = partEvents plan fileSize log ++
      (Log.posts log).filterMap (Posted.event? plan.partsUploadUrls.length) := by
  obtain ⟨before, x, parts, sub, puts, -⟩ := h.exists_parts
  obtain ⟨told, retells, events⟩ := h.events_eq
  have same : List.Forall₂ (fun a e => a.event plan.partsUploadUrls.length fileSize
      plan.maxPartSize.toNat = e) (Log.answers log) told := by
    refine retells.imp fun a e retells => ?_
    cases retells with
    | arrived sent => exact congrArg _ (parts.length_put (calm.subset sub) (puts ▸ sent)).symm
    | failed => rfl
  rw [← List.forall₂_map_left_iff, List.forall₂_eq_eq_eq] at same
  rw [events, partEvents, same]

/-- What the answers for the parts of an upload decide. -/
inductive Decides (log : Log) : Except Stop (OrderedMap Nat String) → Prop
  | failed {a : Sending.Settled} {e : TransferError} (mem : a ∈ Log.answers log)
    (error : a.outcome = .error e) (posts : Log.posts log = []) :
    Decides log (.error (.failed (.partialUpload (Sending.failures (Log.answers log)))))
  | arrived {r : Except Stop (OrderedMap Nat String)} {x : Posted}
    (all : ∀ a ∈ Log.answers log, ∃ tag, a.outcome = .ok tag) (posts : Log.posts log = [x])
    (accepted : ∀ etags, r = .ok etags → x.reply = .answered (.ok ())) : Decides log r

lemma SendsFile.decides (h : p.SendsFile file plan log r) (calm : log.Undisturbed file fileSize)
    (fits : Fits plan fileSize) (room : p.slots ≤ slotLimit) : Decides log r := by
  rcases h.of_undisturbed calm with
    ⟨s, parts, rfl⟩ | ⟨before, etags, manifest, reply, last, parts, -, concludes, rfl⟩
  · obtain ⟨answers, -, result⟩ := parts.settled calm fits room
    have nodup := Sending.nodup_of_address answers
    -- the parts have not led on, so one of them has failed
    by_cases arrived : ∀ a ∈ Log.answers log, ∃ tag, a.outcome = .ok tag
    · rw [(Sending.resultOf_eq_ok_iff nodup).2 ⟨arrived, rfl⟩] at result
      cases result
    · obtain ⟨a, mem, lost⟩ : ∃ a ∈ Log.answers log, ∀ tag, a.outcome ≠ .ok tag := by
        simpa using arrived
      cases outcome : a.outcome with
      | ok tag => exact absurd outcome (lost tag)
      | error e =>
        rw [Sending.resultOf_of_error nodup mem outcome] at result
        rw [result]
        exact .failed mem outcome parts.posts_eq_nil
  · obtain ⟨-, ⟨tag, answers⟩, -⟩ := parts.of_ok
    refine .arrived ?_ (concludes.posts_posted parts.posts_eq_nil _ _) ?_
    · intro a mem
      rw [concludes.answers_posted] at mem
      obtain ⟨part, -, rfl⟩ := List.mem_map.1 (answers.mem_iff.1 mem)
      exact ⟨_, rfl⟩
    · rintro etags' rfl
      cases concludes
      rfl

/-- What is told of a completion is told of no part. -/
lemma filterMap_part?_posts (posts : List Posted) (total : Nat) :
    (posts.filterMap (Posted.event? total)).filterMap Event.part? = [] := by
  rw [List.filterMap_filterMap, List.filterMap_eq_nil_iff]
  intro x _
  rw [Posted.event?]
  split <;> rfl

theorem SendsFile.accounts (h : p.SendsFile file plan log r)
    (calm : log.Undisturbed file fileSize) (fits : Fits plan fileSize)
    (room : p.slots ≤ slotLimit) : Accounts p plan fileSize log r := by
  obtain ⟨before, x, parts, sub, puts, answers⟩ := h.exists_parts
  obtain ⟨allAnswered, allSent, -⟩ := parts.settled (calm.subset sub) fits room
  rw [← answers] at allAnswered
  rw [← puts] at allSent
  have nodup := Sending.nodup_of_address allAnswered
  have events := h.events_eq_partEvents calm
  have numbers : (Log.events log).filterMap Event.part? = (Log.answers log).map (·.number) := by
    rw [events, List.filterMap_append, filterMap_part?_posts, List.append_nil, partEvents,
      Sending.filterMap_part?_events]
  -- The events of the completion are of no part, so a failure that is told is one of the answers.
  have failures {n : Nat} {text : String} : .partFailed n text ∈ Log.events log ↔
      ∃ a ∈ Log.answers log, ∃ e, a.outcome = .error e ∧ a.number = n ∧ text = e.message := by
    have outside : .partFailed n text ∉
        (Log.posts log).filterMap (Posted.event? plan.partsUploadUrls.length) := by
      intro mem
      have told := filterMap_part?_posts (Log.posts log) plan.partsUploadUrls.length
      exact absurd (List.filterMap_eq_nil_iff.1 told _ mem) (Option.some_ne_none n)
    rw [events, List.mem_append, or_iff_left outside, partEvents,
      Sending.partFailed_mem_events_iff]
  have decides := h.decides calm fits room
  constructor
  case puts => exact allSent
  case answers => exact allAnswered
  case events => exact events
  case once =>
    rw [numbers, ← Sending.map_fst_numbered]
    simpa [Sending.Settled.address, Function.comp_def] using allAnswered.map (·.1)
  case ok =>
    intro etags ok
    cases decides with
    | failed => cases ok
    | arrived all posts accepted =>
      refine ⟨?_, Sending.sum_arrived fits.positive fits.count allAnswered all⟩
      rw [events, posts, List.filterMap_cons, List.filterMap_nil, Posted.event?, accepted etags ok]
  case failed =>
    intro n text told
    cases decides with
    | failed mem error posts =>
      refine ⟨posts, _, rfl, fun n text => ?_⟩
      rw [failures]
      constructor
      · rintro ⟨a, mem, e, error, rfl, rfl⟩
        exact ⟨a.url, (Sending.mem_failures nodup).2 ⟨a, mem, e, error, rfl, rfl⟩⟩
      · rintro ⟨url, mem⟩
        obtain ⟨a, mem, e, error, number, same⟩ := (Sending.mem_failures nodup).1 mem
        exact ⟨a, mem, e, error, number, congrArg FailedPart.error same⟩
    | arrived all _ _ =>
      obtain ⟨a, mem, e, error, -⟩ := failures.1 told
      obtain ⟨tag, ok⟩ := all a mem
      cases ok.symm.trans error
  case posted =>
    intro none'
    cases decides with
    | failed mem error _ => exact absurd (failures.2 ⟨_, mem, _, error, rfl, rfl⟩) (none' _ _)
    | arrived _ posts _ => exact ⟨_, posts⟩
  case inTurn =>
    intro one
    have length : (Log.answers before).length = plan.partsUploadUrls.length := by
      rw [← answers]
      simpa [Sending.numbered] using allAnswered.length_eq
    rw [numbers, answers, parts.inTurn one, length]

/-- If the plan does not fit the file, nothing is told. -/
lemma SendsFile.events_of_misfit (h : p.SendsFile file plan log r)
    (calm : log.Undisturbed file fileSize) (misfit' : ¬Fits plan fileSize)
    (room : p.slots ≤ slotLimit) :
    Log.events log = [] ∧ r = .error (.failed (misfit plan fileSize)) := by
  rcases h.of_undisturbed calm with ⟨s, parts, rfl⟩ | ⟨before, etags, _, _, _, parts, -, -, rfl⟩
  · have events := h.events_eq_partEvents calm
    rw [parts.posts_eq_nil, List.filterMap_nil, List.append_nil, partEvents] at events
    generalize result : Except.error s = x at parts
    cases parts.settles calm with
    | misfit _ answers =>
      rw [events, answers]
      exact ⟨rfl, rfl⟩
    | crowded crowded => exact absurd room (Nat.not_le_of_lt crowded)
    | sent fits => exact absurd fits misfit'
  · generalize result : Except.ok etags = x at parts
    cases parts.settles (calm.subset (List.subset_append_left _ _)) with
    | misfit => cases result
    | crowded => cases result
    | sent fits => exact absurd fits misfit'

/-- In an upload that nothing disturbs each part is told of once, by what has come of it, before the
completion is: as failed just if it is reported as failed, and in order if the parts are sent one by
one. If the upload succeeds, the parts that are told of are as long together as the file. Of a file
that the plan does not fit nothing is told. -/
theorem sendFile_accounts (p : Profile) (file : String) (plan : UploadPlan) {σ : Type}
    (env : Environment (StateM σ)) (s : σ) (fileSize : Nat)
    (calm : ((p.sendFile file plan).log env s).Undisturbed file fileSize)
    (room : p.slots ≤ slotLimit) :
    (Fits plan fileSize →
        Accounts p plan fileSize ((p.sendFile file plan).log env s)
          ((p.sendFile file plan).run env s).1) ∧
      (¬Fits plan fileSize →
        ((p.sendFile file plan).log env s).events = [] ∧
          ((p.sendFile file plan).run env s).1 = .error (.failed (misfit plan fileSize))) := by
  have sends := SendsFile.of_course (course_log env (p.sendFile file plan) s)
  exact ⟨fun fits => sends.accounts calm fits room,
    fun misfit => sends.events_of_misfit calm misfit room⟩

/-! ### Plans for two parts and for three -/

/-- The second part is told of first, since it is refused before the first one arrives. -/
theorem sendFile_accounts_secondRefused :
    let env := steady [1, 2] (lastFirst secondRefused)
    (sendsTwo.log env ()).events =
        [.partFailed 2 (TransferError.http "refused").message, .partUploaded 1 2 1] ∧
      Accounts twoAtOnce twoPlaces 2 (sendsTwo.log env ()) (sendsTwo.run env ()).1 := by
  intro env
  exact ⟨by decide +kernel, (sendFile_accounts twoAtOnce "file" twoPlaces env () 2
    (by decide +kernel) (by decide +kernel)).1 ⟨by decide +kernel, by decide +kernel⟩⟩

/-- Three places are more than two bytes take: none of the parts is told of. -/
theorem not_accounts_threePlaces :
    let env := steady [1, 2] (oneByOne fun _ => .ok "tag")
    let sends := twoAtOnce.sendFile "file" threePlaces
    (sends.log env ()).Undisturbed "file" 2 ∧ twoAtOnce.slots ≤ slotLimit ∧
      ¬Accounts twoAtOnce threePlaces 2 (sends.log env ()) (sends.run env ()).1 := by
  intro env sends
  refine ⟨by decide +kernel, by decide +kernel, fun accounts => ?_⟩
  have once := accounts.once.length_eq
  have none' : (sends.log env ()).events = [] := by decide +kernel
  rw [none'] at once
  cases once

end Profile

end StagedTransfer
