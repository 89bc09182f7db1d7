import StagedTransfer.Proofs.Sending.Progress
import StagedTransfer.Proofs.Upload.Stages

/-!
# The completion of an upload

The store is told that all parts have been sent only once each of them has been answered for by its
tag, and it is told at most once. An upload of which a part has not arrived ends with the parts that
have not. In what order the answers come and how many parts are sent at once makes no difference.
-/

namespace StagedTransfer

open Activity Wire

/-! ### Completions in a log -/

/-- A completion and what came of it. -/
structure Posted where
  url      : String
  manifest : String
  reply    : Reply TransferError Unit

def Note.posted? : Note → Option Posted
  | .awaited (.call (.complete url manifest)) reply => some ⟨url, manifest, reply⟩
  | _                                               => none

/-- The completions of a run, in order. -/
def Log.posts (log : Log) : List Posted :=
  log.filterMap Note.posted?

namespace Log

@[simp] lemma posts_append (first rest : Log) : posts (first ++ rest) = posts first ++ posts rest :=
  List.filterMap_append

@[simp] lemma posts_completion (url manifest : String) (reply : Reply TransferError Unit)
    (log : Log) : posts (.awaited (.call (.complete url manifest)) reply :: log) =
      ⟨url, manifest, reply⟩ :: posts log := rfl

lemma posts_ne_nil (before after : Log) (url manifest : String)
    (reply : Reply TransferError Unit) :
    posts (before ++ .awaited (.call (.complete url manifest)) reply :: after) ≠ [] := by
  simp

/-- If a log holds one completion, it stands where it stands. -/
lemma eq_of_completion {before before' after after' : Log} {url url' manifest manifest' : String}
    {reply reply' : Reply TransferError Unit} (hb : posts before = []) (ha : posts after = [])
    (h : before ++ .awaited (.call (.complete url manifest)) reply :: after =
      before' ++ .awaited (.call (.complete url' manifest')) reply' :: after') :
    before' = before ∧ url' = url ∧ manifest' = manifest := by
  rcases List.append_eq_append_iff.1 h with ⟨mid, rfl, hmid⟩ | ⟨mid, rfl, hmid⟩
  · cases mid with
    | nil =>
      cases hmid
      exact ⟨by simp, rfl, rfl⟩
    | cons note mid =>
      obtain ⟨-, rfl⟩ := List.cons.inj hmid
      exact absurd ha (posts_ne_nil _ _ _ _ _)
  · cases mid with
    | nil =>
      cases hmid
      exact ⟨by simp, rfl, rfl⟩
    | cons note mid =>
      obtain ⟨rfl, -⟩ := List.cons.inj hmid
      exact absurd hb (posts_ne_nil _ _ _ _ _)

end Log

namespace Sending

/-- A sending of parts does not complete anything. -/
lemma Course.posts_eq_nil {file : String} {fuel : Nat} {s t : State} {log : Log}
    (h : Course file fuel s log t) : Log.posts log = [] := by
  rw [Log.posts, List.filterMap_eq_nil_iff]
  intro note hn
  cases h.asks hn <;> rfl

end Sending

namespace Profile

variable {p : Profile} {file : String} {plan : UploadPlan}

lemma SendsParts.posts_eq_nil {log : Log} {r : Except Stop (OrderedMap Nat String)}
    (h : p.SendsParts file plan log r) : Log.posts log = [] := by
  cases h with
  | sent _ course _ => exact course.posts_eq_nil
  | stalled _ course _ => exact course.posts_eq_nil
  | _ => rfl

/-! ### The completion comes last and once -/

/-- The manifest of the parts of a plan with some tags, as it is posted. -/
def manifestOf (plan : UploadPlan) (tag : Nat → String) : String :=
  Manifest.toXml ⟨(List.range' 1 plan.partsUploadUrls.length).map fun n => (n, tag n)⟩

/-- Each part of a plan has been sent once and answered for by its tag. -/
structure Arrived (plan : UploadPlan) (tag : Nat → String) (log : Log) : Prop where
  puts    : ((Log.puts log).map (·.address)).Perm (Sending.numbered plan.partsUploadUrls)
  answers : (Log.answers log).Perm
    ((Sending.numbered plan.partsUploadUrls).map (.of fun n => .ok (tag n)))

/-- There is at most one completion. It goes to its place, all parts have arrived before it, and it
lists their tags in order. -/
structure CompletesOnce (plan : UploadPlan) (log : Log) : Prop where
  once  : (Log.posts log).length ≤ 1
  after : ∀ (before after : Log) (url manifest : String) (reply : Reply TransferError Unit),
    log = before ++ .awaited (.call (.complete url manifest)) reply :: after →
      ∃ tag, Arrived plan tag before ∧ url = plan.completeUploadUrl ∧
        manifest = manifestOf plan tag

lemma CompletesOnce.of_posts_eq_nil {log : Log} (h : Log.posts log = []) :
    CompletesOnce plan log := by
  refine ⟨by simp [h], ?_⟩
  rintro before after url manifest reply rfl
  exact absurd h (Log.posts_ne_nil _ _ _ _ _)

lemma Concludes.posts_eq_nil {etags : OrderedMap Nat String} {count : Nat}
    {reply : Reply TransferError Unit} {log : Log} {r : Except Stop (OrderedMap Nat String)}
    (h : Concludes etags count reply log r) : Log.posts log = [] := by
  cases h <;> rfl

theorem SendsFile.completesOnce {log : Log} {r : Except Stop (OrderedMap Nat String)}
    (h : p.SendsFile file plan log r) : CompletesOnce plan log := by
  cases h with
  | stopped parts => exact .of_posts_eq_nil parts.posts_eq_nil
  | cancelled parts =>
    refine .of_posts_eq_nil ?_
    rw [Log.posts_append, parts.posts_eq_nil]
    rfl
  | @posted log last etags manifest reply r parts ofEtags concludes =>
    have before : Log.posts (log ++ [.asked false]) = [] := by
      rw [Log.posts_append, parts.posts_eq_nil]
      rfl
    rw [List.append_cons]
    refine ⟨by simp [-List.append_assoc, before, concludes.posts_eq_nil], ?_⟩
    intro before' after url manifest' reply' hlog
    obtain ⟨rfl, rfl, rfl⟩ := Log.eq_of_completion before concludes.posts_eq_nil hlog
    obtain ⟨rfl, ⟨tag, answers⟩, puts⟩ := parts.of_ok
    have listed := ofEtags.symm.trans (Sending.ofEtags_tags answers)
    refine ⟨tag, ⟨?_, ?_⟩, rfl, by rw [Except.ok.inj listed]; rfl⟩
    · rw [Log.puts_append]
      exact (List.append_nil _).symm ▸ puts
    · rw [Log.answers_append]
      exact (List.append_nil _).symm ▸ answers

/-! ### Uploads that nothing disturbs -/

/-- What is said of a plan that does not fit a file. -/
def misfit (plan : UploadPlan) (fileSize : Nat) : TransferError :=
  if plan.maxPartSize.toNat = 0 then .malformedResponse "upload plan has a zero maxPartSize"
  else .malformedResponse (countMessage plan.partsUploadUrls.length fileSize
    (partCount fileSize plan.maxPartSize.toNat))

/-- How the sending of the parts ends if nothing disturbs it. -/
inductive Settles (p : Profile) (plan : UploadPlan) (fileSize : Nat) (log : Log) :
    Except Stop (OrderedMap Nat String) → Prop
  | misfit (h : ¬Fits plan fileSize) (answers : Log.answers log = []) :
    Settles p plan fileSize log (.error (.failed (misfit plan fileSize)))
  | crowded (h : slotLimit < p.slots) (answers : Log.answers log = []) :
    Settles p plan fileSize log (.error (.overrun .slots))
  | sent (fits : Fits plan fileSize)
    (answers : ((Log.answers log).map (·.address)).Perm (Sending.numbered plan.partsUploadUrls))
    (puts : ((Log.puts log).map (·.address)).Perm (Sending.numbered plan.partsUploadUrls)) :
    Settles p plan fileSize log ((Sending.resultOf (Log.answers log)).mapError .failed)

theorem SendsParts.settles {fileSize : Nat} {log : Log} {r : Except Stop (OrderedMap Nat String)}
    (h : p.SendsParts file plan log r) (calm : log.Undisturbed file fileSize) :
    Settles p plan fileSize log r := by
  cases h with
  | zero zero =>
    rw [← show misfit plan fileSize = _ from if_pos zero]
    exact .misfit (fun fits => Nat.ne_of_gt fits.positive zero) rfl
  | unopened _ e =>
    have size := calm.size List.mem_cons_self
    cases size
  | mismatch nonzero n count =>
    obtain rfl := Except.ok.inj (calm.size List.mem_cons_self)
    rw [← show misfit plan n = _ from if_neg nonzero]
    exact .misfit (fun fits => count fits.count.symm) rfl
  | crowded _ crowded => exact .crowded crowded rfl
  | cancelled _ => exact absurd (by simp) calm.not_cancelled
  | @sent n sending t x fits course result =>
    obtain rfl := Except.ok.inj (calm.size List.mem_cons_self)
    have calm := calm.subset (List.subset_cons_of_subset _ (List.subset_cons_self _ sending))
    obtain ⟨yields, answers, puts⟩ := course.yields fits.positive fits.count calm
    obtain rfl := Option.some.inj (result.symm.trans yields)
    exact .sent fits answers puts
  | @stalled n sending t fits course result =>
    obtain rfl := Except.ok.inj (calm.size List.mem_cons_self)
    have calm := calm.subset (List.subset_cons_of_subset _ (List.subset_cons_self _ sending))
    obtain ⟨yields, -, -⟩ := course.yields fits.positive fits.count calm
    cases result.symm.trans yields

/-- What a run reports of which some parts have not arrived. -/
structure ReportsFailures (plan : UploadPlan) (log : Log)
    (r : Except Stop (OrderedMap Nat String)) : Prop where
  puts    : ((Log.puts log).map (·.address)).Perm (Sending.numbered plan.partsUploadUrls)
  answers : ((Log.answers log).map (·.address)).Perm (Sending.numbered plan.partsUploadUrls)
  posts   : Log.posts log = []
  result  : ∃ failed, r = .error (.failed (.partialUpload failed)) ∧
    ∀ n part, (n, part) ∈ failed.entries ↔
      ∃ e, ⟨n, part.url, .error e⟩ ∈ Log.answers log ∧ part.error = e.message

lemma SendsParts.of_failed {fileSize : Nat} {log : Log} {r : Except Stop (OrderedMap Nat String)}
    (h : p.SendsParts file plan log r) (calm : log.Undisturbed file fileSize) {a : Sending.Settled}
    (ha : a ∈ Log.answers log) {e : TransferError} (he : a.outcome = .error e) :
    ReportsFailures plan log r := by
  have posts := h.posts_eq_nil
  cases h.settles calm with
  | misfit _ answers => simp [answers] at ha
  | crowded _ answers => simp [answers] at ha
  | sent _ answers puts =>
    have nodup := Sending.nodup_of_address answers
    refine ⟨puts, answers, posts, Sending.failures (Log.answers log), ?_, ?_⟩
    · rw [Sending.resultOf_of_error nodup ha he]
      rfl
    · intro n part
      rw [Sending.mem_failures nodup]
      constructor
      · rintro ⟨⟨number, url, outcome⟩, hb, e, rfl, rfl, rfl⟩
        exact ⟨e, hb, rfl⟩
      · rintro ⟨e, hb, text⟩
        exact ⟨_, hb, e, rfl, rfl, by rw [← text]⟩

/-- The course of a sending that nothing disturbs: it stops before the completion or posts it. -/
lemma SendsFile.of_undisturbed {fileSize : Nat} {log : Log}
    {r : Except Stop (OrderedMap Nat String)} (h : p.SendsFile file plan log r)
    (calm : log.Undisturbed file fileSize) :
    (∃ s, p.SendsParts file plan log (.error s) ∧ r = .error s) ∨
      ∃ before etags manifest reply last, p.SendsParts file plan before (.ok etags) ∧
        Manifest.ofEtags etags plan.partsUploadUrls.length = .ok manifest ∧
        Concludes etags manifest.parts.length reply last r ∧
        log = before ++ .asked false ::
          .awaited (.call (.complete plan.completeUploadUrl manifest.toXml)) reply :: last := by
  cases h with
  | @stopped log s parts => exact .inl ⟨s, parts, rfl⟩
  | cancelled parts => exact absurd (by simp) calm.not_cancelled
  | posted parts ofEtags concludes => exact .inr ⟨_, _, _, _, _, parts, ofEtags, concludes, rfl⟩

lemma Concludes.answers_posted {etags : OrderedMap Nat String} {count : Nat}
    {reply : Reply TransferError Unit} {before last : Log} {r : Except Stop (OrderedMap Nat String)}
    (h : Concludes etags count reply last r) (url manifest : String) :
    Log.answers (before ++ .asked false ::
      .awaited (.call (.complete url manifest)) reply :: last) = Log.answers before := by
  rw [Log.answers_append]
  change Log.answers before ++ Log.answers last = _
  rw [h.answers_eq_nil, List.append_nil]

lemma Concludes.posts_posted {etags : OrderedMap Nat String} {count : Nat}
    {reply : Reply TransferError Unit} {before last : Log} {r : Except Stop (OrderedMap Nat String)}
    (h : Concludes etags count reply last r) (hb : Log.posts before = []) (url manifest : String) :
    Log.posts (before ++ .asked false ::
      .awaited (.call (.complete url manifest)) reply :: last) = [⟨url, manifest, reply⟩] := by
  rw [Log.posts_append, hb]
  change ⟨url, manifest, reply⟩ :: Log.posts last = _
  rw [h.posts_eq_nil]

theorem SendsFile.reportsFailures {fileSize : Nat} {log : Log}
    {r : Except Stop (OrderedMap Nat String)} (h : p.SendsFile file plan log r)
    (calm : log.Undisturbed file fileSize) {a : Sending.Settled} (ha : a ∈ Log.answers log)
    {e : TransferError} (he : a.outcome = .error e) : ReportsFailures plan log r := by
  rcases h.of_undisturbed calm with
    ⟨s, parts, rfl⟩ | ⟨before, etags, manifest, reply, last, parts, -, concludes, rfl⟩
  · exact parts.of_failed calm ha he
  · rw [concludes.answers_posted] at ha
    have calm := calm.subset (List.subset_append_left before _)
    obtain ⟨failed, hfailed, -⟩ := (parts.of_failed calm ha he).result
    cases hfailed

/-! ### The order of the answers -/

/-- The answers in a log are the outcomes of the parts. -/
def Answers (outcome : Nat → Except TransferError String) (log : Log) : Prop :=
  ∀ a ∈ Log.answers log, a.outcome = outcome a.number

instance (outcome : Nat → Except TransferError String) (log : Log) :
    Decidable (Answers outcome log) :=
  inferInstanceAs (Decidable (∀ a ∈ Log.answers log, _))

lemma Answers.eq_map {outcome : Nat → Except TransferError String} {log : Log}
    (h : Answers outcome log) :
    Log.answers log = ((Log.answers log).map (·.address)).map (.of outcome) := by
  rw [List.map_map]
  refine .trans (List.map_id _).symm (List.map_congr_left fun a ha => ?_)
  simp only [Function.comp_apply, Sending.Settled.of, Sending.Settled.address, ← h a ha]
  rfl

lemma Settles.eq_of_answers {q : Profile} {fileSize : Nat} {log log' : Log}
    {r r' : Except Stop (OrderedMap Nat String)} {outcome : Nat → Except TransferError String}
    (h : Settles p plan fileSize log r) (h' : Settles q plan fileSize log' r')
    (hp : p.slots ≤ slotLimit) (hq : q.slots ≤ slotLimit) (answers : Answers outcome log)
    (answers' : Answers outcome log') : r = r' := by
  cases h with
  | crowded crowded _ => exact absurd hp (Nat.not_le_of_lt crowded)
  | misfit misfit _ =>
    cases h' with
    | crowded crowded _ => exact absurd hq (Nat.not_le_of_lt crowded)
    | misfit _ _ => rfl
    | sent fits _ _ => exact absurd fits misfit
  | sent fits perm _ =>
    cases h' with
    | crowded crowded _ => exact absurd hq (Nat.not_le_of_lt crowded)
    | misfit misfit _ => exact absurd fits misfit
    | sent _ perm' _ =>
      have same : (Log.answers log).Perm (Log.answers log') := by
        rw [answers.eq_map, answers'.eq_map]
        exact (perm.trans perm'.symm).map _
      rw [Sending.resultOf_perm (Sending.nodup_of_address perm) same]

lemma Concludes.eq {etags : OrderedMap Nat String} {count : Nat} {reply : Reply TransferError Unit}
    {last last' : Log} {r r' : Except Stop (OrderedMap Nat String)}
    (h : Concludes etags count reply last r) (h' : Concludes etags count reply last' r') :
    r = r' := by
  cases h <;> cases h' <;> rfl

/-- What is posted and how the sending of a file ends do not depend on the order of the answers. -/
theorem SendsFile.eq_of_answers {q : Profile} {fileSize : Nat} {log log' : Log}
    {r r' : Except Stop (OrderedMap Nat String)} {outcome : Nat → Except TransferError String}
    (h : p.SendsFile file plan log r) (h' : q.SendsFile file plan log' r')
    (calm : log.Undisturbed file fileSize) (calm' : log'.Undisturbed file fileSize)
    (hp : p.slots ≤ slotLimit) (hq : q.slots ≤ slotLimit) (answers : Answers outcome log)
    (answers' : Answers outcome log') :
    (Log.posts log).map (fun x => (x.url, x.manifest)) =
        (Log.posts log').map (fun x => (x.url, x.manifest)) ∧
      ((Log.posts log).map (·.reply) = (Log.posts log').map (·.reply) → r = r') := by
  have parts_eq {before before' : Log} {x x' : Except Stop (OrderedMap Nat String)}
      (parts : p.SendsParts file plan before x) (parts' : q.SendsParts file plan before' x')
      (sub : before ⊆ log) (sub' : before' ⊆ log') (hb : Log.answers log = Log.answers before)
      (hb' : Log.answers log' = Log.answers before') : x = x' := by
    have answers : Answers outcome before := fun a ha => answers a (hb ▸ ha)
    have answers' : Answers outcome before' := fun a ha => answers' a (hb' ▸ ha)
    exact (parts.settles (calm.subset sub)).eq_of_answers (parts'.settles (calm'.subset sub')) hp hq
      answers answers'
  rcases h.of_undisturbed calm with
    ⟨s, parts, rfl⟩ | ⟨before, etags, manifest, reply, last, parts, ofEtags, concludes, rfl⟩ <;>
  rcases h'.of_undisturbed calm' with
    ⟨s', parts', rfl⟩ |
      ⟨before', etags', manifest', reply', last', parts', ofEtags', concludes', rfl⟩
  · obtain rfl := Except.error.inj
      (parts_eq parts parts' (List.Subset.refl _) (List.Subset.refl _) rfl rfl)
    rw [parts.posts_eq_nil, parts'.posts_eq_nil]
    exact ⟨rfl, fun _ => rfl⟩
  · cases parts_eq parts parts' (List.Subset.refl _) (List.subset_append_left _ _) rfl
      (concludes'.answers_posted _ _)
  · cases parts_eq parts parts' (List.subset_append_left _ _) (List.Subset.refl _)
      (concludes.answers_posted _ _) rfl
  · obtain rfl := Except.ok.inj (parts_eq parts parts' (List.subset_append_left _ _)
      (List.subset_append_left _ _) (concludes.answers_posted _ _) (concludes'.answers_posted _ _))
    obtain rfl := Except.ok.inj (ofEtags.symm.trans ofEtags')
    rw [concludes.posts_posted parts.posts_eq_nil, concludes'.posts_posted parts'.posts_eq_nil]
    refine ⟨rfl, fun replies => ?_⟩
    obtain rfl : reply = reply' := by simpa using replies
    exact concludes.eq concludes'

/-- The store is told that all parts have been sent only once each of them has been answered for by
its tag, at most once, and with the tags in order. If nothing disturbs a run of which a part has not
arrived, all parts have been sent and nothing is completed. What is posted and what comes of it
depend only on the outcomes of the parts. -/
theorem sendFile_completes (p : Profile) (file : String) (plan : UploadPlan) {σ : Type}
    (env : Environment (StateM σ)) (s : σ) :
    CompletesOnce plan ((p.sendFile file plan).log env s) ∧
      (∀ fileSize, ((p.sendFile file plan).log env s).Undisturbed file fileSize →
        (∃ a ∈ ((p.sendFile file plan).log env s).answers, ∃ e, a.outcome = .error e) →
        ReportsFailures plan ((p.sendFile file plan).log env s)
          ((p.sendFile file plan).run env s).1) ∧
      ∀ (q : Profile) (τ : Type) (other : Environment (StateM τ)) (t : τ) (fileSize : Nat)
        (outcome : Nat → Except TransferError String), p.slots ≤ slotLimit → q.slots ≤ slotLimit →
        ((p.sendFile file plan).log env s).Undisturbed file fileSize →
        ((q.sendFile file plan).log other t).Undisturbed file fileSize →
        Answers outcome ((p.sendFile file plan).log env s) →
        Answers outcome ((q.sendFile file plan).log other t) →
        ((p.sendFile file plan).log env s).posts.map (fun x => (x.url, x.manifest)) =
            ((q.sendFile file plan).log other t).posts.map (fun x => (x.url, x.manifest)) ∧
          (((p.sendFile file plan).log env s).posts.map (·.reply) =
              ((q.sendFile file plan).log other t).posts.map (·.reply) →
            ((p.sendFile file plan).run env s).1 = ((q.sendFile file plan).run other t).1) := by
  have sends := SendsFile.of_course (course_log env (p.sendFile file plan) s)
  refine ⟨sends.completesOnce, ?_, ?_⟩
  · rintro fileSize calm ⟨a, ha, e, he⟩
    exact sends.reportsFailures calm ha he
  · intro q τ other t fileSize outcome hp hq calm calm' answers answers'
    have sends' := SendsFile.of_course (course_log other (q.sendFile file plan) t)
    exact sends.eq_of_answers sends' calm calm' hp hq answers answers'

/-! ### A file of two parts -/

/-- The other sides of a transfer that is not cancelled, for a file that stays as it is. -/
def steady (contents : Bytes) (choose : Sending.State → Sending.Choice) :
    Environment (StateM Unit) where
  cancelled := pure false
  await _   := pure (.overrun .slots)
  act
    | .size _    => pure (.ok contents.length)
    | .content _ => pure (.ok contents)
    | .emit _    => pure ()
    | .enter _   => pure ()
  choose s  := pure (choose s)

/-- The first part that is held goes its way to the end before another part is read. -/
def oneByOne (outcome : Nat → Except TransferError String) (s : Sending.State) : Sending.Choice :=
  match s.held.head? with
  | none   => .proceed
  | some h => if h.begun then .finish h.number (outcome h.number) else .begin h.number

/-- Parts are read while there is a slot, and the last one that is held goes on first. -/
def lastFirst (outcome : Nat → Except TransferError String) (s : Sending.State) : Sending.Choice :=
  if s.canProceed then .proceed
  else match s.held.getLast? with
    | none   => .proceed
    | some h => if h.begun then .finish h.number (outcome h.number) else .begin h.number

/-- The first part arrives and the second does not. -/
def secondRefused (n : Nat) : Except TransferError String :=
  if n = 1 then .ok "tag" else .error (.http "refused")

def twoPlaces : UploadPlan :=
  ⟨["first", "second"], "done", 1, default⟩

def twoAtOnce : Profile :=
  ⟨none, .default, 2, 0, 1⟩

def sendsTwo : Activity (OrderedMap Nat String) :=
  twoAtOnce.sendFile "file" twoPlaces

/-- Whether the parts are sent one by one or the last one first, the second is reported. -/
theorem sendFile_completes_secondRefused :
    ReportsFailures twoPlaces (sendsTwo.log (steady [1, 2] (oneByOne secondRefused)) ())
        (sendsTwo.run (steady [1, 2] (oneByOne secondRefused)) ()).1 ∧
      (sendsTwo.log (steady [1, 2] (oneByOne secondRefused)) ()).posts.map
          (fun x => (x.url, x.manifest)) =
        (sendsTwo.log (steady [1, 2] (lastFirst secondRefused)) ()).posts.map
          (fun x => (x.url, x.manifest)) := by
  have completes := sendFile_completes twoAtOnce "file" twoPlaces
    (steady [1, 2] (oneByOne secondRefused)) ()
  have calm : (sendsTwo.log (steady [1, 2] (oneByOne secondRefused)) ()).Undisturbed "file" 2 := by
    decide +kernel
  have refused : ⟨2, "second", .error (.http "refused")⟩ ∈
      (sendsTwo.log (steady [1, 2] (oneByOne secondRefused)) ()).answers := by
    decide +kernel
  refine ⟨completes.2.1 2 calm ⟨_, refused, _, rfl⟩, ?_⟩
  exact (completes.2.2 twoAtOnce Unit (steady [1, 2] (lastFirst secondRefused)) () 2 secondRefused
    (by decide +kernel) (by decide +kernel) calm (by decide +kernel) (by decide +kernel)
    (by decide +kernel)).1

end Profile

end StagedTransfer
