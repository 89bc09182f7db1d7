import StagedTransfer.Proofs.Session.Staged

/-!
# Manifests without gaps

A manifest is made of some tags just if each part up to the count has one, and otherwise the first
part without a tag is missing; but a count for which a list has no room ends the whole program,
whatever the tags are. The tags that a sending yields are those of all parts of its plan, so that no
part is ever missing there and none is left out.
-/

namespace StagedTransfer

open Activity Wire

/-! ### All tags or the first that is missing -/

namespace Manifest

variable {etags : OrderedMap Nat String} {count : Nat}

/-- The first part without a tag. -/
structure FirstMissing (etags : OrderedMap Nat String) (count n : Nat) : Prop where
  positive : 1 ≤ n
  le       : n ≤ count
  missing  : n ∉ etags.keys
  before   : ∀ k, 1 ≤ k → k < n → k ∈ etags.keys

/-- A manifest lists the parts up to a count in order, each with its tag. -/
structure Complete (etags : OrderedMap Nat String) (count : Nat) (m : Manifest) : Prop where
  numbers : m.parts.map (·.1) = List.range' 1 count
  ascends : m.parts.Pairwise entryBefore
  tags    : ∀ n tag, (n, tag) ∈ m.parts ↔ 1 ≤ n ∧ n ≤ count ∧ etags.find? n = some tag

/-- What comes of some tags: a manifest of all parts up to a count, or the first part that has no
tag. A count for which there is no room is told by neither, whatever the tags are. -/
structure GapFree (etags : OrderedMap Nat String) (count : Nat) : Prop where
  succeeds : (∃ m, assemble etags count = .ok m) ↔
    count ≤ mostParts ∧ ∀ n, 1 ≤ n → n ≤ count → n ∈ etags.keys
  complete : ∀ m, assemble etags count = .ok m → Complete etags count m
  fails    : ∀ e, assemble etags count = .fail e ↔
    count ≤ mostParts ∧ ∃ n, e = .missingPart n ∧ FirstMissing etags count n
  overruns : ∀ o, assemble etags count = .overrun o ↔ o = .parts ∧ mostParts < count

/-- Each part has a tag, or there is a first that has none. -/
lemma exists_firstMissing (etags : OrderedMap Nat String) (count : Nat) :
    (∀ n, 1 ≤ n → n ≤ count → n ∈ etags.keys) ∨ ∃ n, FirstMissing etags count n := by
  induction count with
  | zero => exact .inl fun n hn hle => absurd hle (by omega)
  | succ count ih =>
    rcases ih with all | ⟨n, first⟩
    · by_cases last : count + 1 ∈ etags.keys
      · refine .inl fun n hn hle => ?_
        rcases Nat.le_succ_iff.1 hle with hle | rfl
        · exact all n hn hle
        · exact last
      · exact .inr ⟨count + 1, by omega, Nat.le_refl _, last, fun k hk hlt => all k hk (by omega)⟩
    · exact .inr ⟨n, first.positive, Nat.le_succ_of_le first.le, first.missing, first.before⟩

/-- The parts from a number on break off at the first that is missing. -/
lemma go_eq_error {n : Nat} (number left : Nat) (positive : 1 ≤ number) (le : number ≤ n)
    (lt : n < number + left) (missing : n ∉ etags.keys)
    (before : ∀ k, 1 ≤ k → k < n → k ∈ etags.keys) :
    ofEtags.go etags number left = .error (.missingPart n) := by
  induction left generalizing number with
  | zero => omega
  | succ left ih =>
    rcases Nat.eq_or_lt_of_le le with rfl | later
    · rw [ofEtags.go, OrderedMap.find?_eq_none missing]
    · obtain ⟨tag, found⟩ := OrderedMap.mem_keys_iff.1 (before number positive later)
      rw [ofEtags.go, found]
      simp only [ih (number + 1) (by omega) later (by omega)]
      rfl

lemma ofEtags_of_firstMissing {n : Nat} (h : FirstMissing etags count n) :
    ofEtags etags count = .error (.missingPart n) := by
  have last : n < 1 + count := by
    have := h.le
    omega
  rw [ofEtags, go_eq_error 1 count (Nat.le_refl 1) h.positive last h.missing h.before]
  rfl

/-- The manifest of tags for all parts. -/
lemma ofEtags_of_all (all : ∀ n, 1 ≤ n → n ≤ count → n ∈ etags.keys) :
    ∃ tag : Nat → String, (∀ n, 1 ≤ n → n ≤ count → etags.find? n = some (tag n)) ∧
      ofEtags etags count = .ok ⟨(List.range' 1 count).map fun n => (n, tag n)⟩ := by
  have found : ∀ n, 1 ≤ n → n ≤ count → etags.find? n = some ((etags.find? n).getD "") := by
    intro n hn hle
    obtain ⟨tag, h⟩ := OrderedMap.mem_keys_iff.1 (all n hn hle)
    rw [h, Option.getD_some]
  exact ⟨_, found, Sending.ofEtags_eq_ok found⟩

lemma complete_of_ofEtags {m : Manifest} (ok : ofEtags etags count = .ok m) :
    Complete etags count m := by
  rcases exists_firstMissing etags count with all | ⟨n, first⟩
  · obtain ⟨tag, found, made⟩ := ofEtags_of_all all
    obtain rfl := Except.ok.inj (made.symm.trans ok)
    constructor
    case numbers => simp [Function.comp_def]
    case ascends => exact List.pairwise_map.2 ((List.pairwise_lt_range' 1).imp id)
    case tags =>
      intro n t
      simp only [List.mem_map, List.mem_range'_1, Prod.mk.injEq]
      constructor
      · rintro ⟨k, bounds, rfl, rfl⟩
        exact ⟨bounds.1, by omega, found k bounds.1 (by omega)⟩
      · rintro ⟨hn, hle, ht⟩
        exact ⟨n, ⟨hn, by omega⟩, rfl, Option.some.inj ((found n hn hle).symm.trans ht)⟩
  · cases (ofEtags_of_firstMissing first).symm.trans ok

lemma exists_ofEtags_iff :
    (∃ m, ofEtags etags count = .ok m) ↔ ∀ n, 1 ≤ n → n ≤ count → n ∈ etags.keys := by
  constructor
  · rintro ⟨m, ok⟩ n hn hle
    have listed : n ∈ m.parts.map (·.1) := by
      rw [(complete_of_ofEtags ok).numbers, List.mem_range'_1]
      omega
    obtain ⟨⟨_, tag⟩, mem, rfl⟩ := List.mem_map.1 listed
    exact OrderedMap.mem_keys_iff.2 ⟨tag, (((complete_of_ofEtags ok).tags _ tag).1 mem).2.2⟩
  · intro all
    obtain ⟨tag, -, made⟩ := ofEtags_of_all all
    exact ⟨_, made⟩

lemma ofEtags_eq_error_iff {e : ChunkError} :
    ofEtags etags count = .error e ↔ ∃ n, e = .missingPart n ∧ FirstMissing etags count n := by
  constructor
  · intro failed
    rcases exists_firstMissing etags count with all | ⟨n, first⟩
    · obtain ⟨m, ok⟩ := exists_ofEtags_iff.2 all
      cases ok.symm.trans failed
    · cases (ofEtags_of_firstMissing first).symm.trans failed
      exact ⟨n, rfl, first⟩
  · rintro ⟨n, rfl, first⟩
    exact ofEtags_of_firstMissing first

/-! #### Room for the parts -/

lemma assemble_of_le (room : count ≤ mostParts) :
    assemble etags count = .answered (ofEtags etags count) :=
  if_neg (Nat.not_lt.2 room)

lemma assemble_of_lt (crowded : mostParts < count) : assemble etags count = .overrun .parts :=
  if_pos crowded

lemma assemble_eq_answered_iff {r : Except ChunkError Manifest} :
    assemble etags count = .answered r ↔ count ≤ mostParts ∧ ofEtags etags count = r := by
  rcases Nat.lt_or_ge mostParts count with crowded | room
  · simp [assemble_of_lt crowded, Nat.not_le.2 crowded]
  · simp [assemble_of_le room, room]

lemma assemble_eq_overrun_iff {o : Overrun} :
    assemble etags count = .overrun o ↔ o = .parts ∧ mostParts < count := by
  rcases Nat.lt_or_ge mostParts count with crowded | room
  · simp [assemble_of_lt crowded, crowded, eq_comm]
  · simp [assemble_of_le room, Nat.not_lt.2 room]

theorem gapFree (etags : OrderedMap Nat String) (count : Nat) : GapFree etags count where
  succeeds := by
    rw [← exists_ofEtags_iff, ← exists_and_left]
    exact exists_congr fun _ => assemble_eq_answered_iff
  complete m ok := complete_of_ofEtags (assemble_eq_answered_iff.1 ok).2
  fails e := assemble_eq_answered_iff.trans (and_congr_right fun _ => ofEtags_eq_error_iff)
  overruns o := assemble_eq_overrun_iff

example : assemble (.ofList [(3, "c"), (1, "a"), (4, "d")]) 4 = .fail (.missingPart 2) := rfl

example : assemble (.ofList []) 18446744073709551615 = .overrun .parts := rfl

/-- Tags whose numbers run from one up to the count stand in their manifest as they are. -/
lemma ofEtags_of_keys (keys : etags.keys = List.range' 1 count) :
    ofEtags etags count = .ok ⟨etags.entries⟩ := by
  have all : ∀ n, 1 ≤ n → n ≤ count → n ∈ etags.keys := by
    intro n hn hle
    rw [keys, List.mem_range'_1]
    omega
  obtain ⟨tag, found, made⟩ := ofEtags_of_all all
  rw [made, ← keys, OrderedMap.keys, List.map_map]
  congr 2
  refine .trans (List.map_congr_left ?_) (List.map_id _)
  intro part mem
  have bounds : part.1 ∈ List.range' 1 count := keys ▸ List.mem_map_of_mem mem
  rw [List.mem_range'_1] at bounds
  have stands := OrderedMap.find?_eq_some_iff.2 mem
  have same := (found part.1 bounds.1 (by omega)).symm.trans stands
  exact Prod.ext rfl (Option.some.inj same)

end Manifest

/-! ### What a sending yields -/

/-- The tags of all parts of a plan are those with which the parts have been answered for, each of
them once, and none of them is missing in the manifest. -/
structure Sending.Gathers (urls : List String) (log : Log) (etags : OrderedMap Nat String) :
    Prop where
  keys     : etags.keys = List.range' 1 urls.length
  manifest : Manifest.ofEtags etags urls.length = .ok ⟨etags.entries⟩
  roomy    : urls.length ≤ Manifest.mostParts →
    Manifest.assemble etags urls.length = .ok ⟨etags.entries⟩
  sent     : ((Log.puts log).map Held.address).Perm (numbered urls)
  answered : ((Log.answers log).map Settled.address).Perm (numbered urls)
  tagged   : ∀ a ∈ Log.answers log, ∃ tag, a.outcome = .ok tag
  tags     : ∀ n tag, (n, tag) ∈ etags.entries ↔
    ∃ a ∈ Log.answers log, a.number = n ∧ a.outcome = .ok tag

lemma Sending.Gathers.of_same {urls : List String} {log log' : Log} {etags : OrderedMap Nat String}
    (h : Gathers urls log etags) (answers : Log.answers log' = Log.answers log)
    (puts : Log.puts log' = Log.puts log) : Gathers urls log' etags where
  keys := h.keys
  manifest := h.manifest
  roomy := h.roomy
  sent := puts ▸ h.sent
  answered := answers ▸ h.answered
  tagged := answers ▸ h.tagged
  tags := answers ▸ h.tags

/-- Parts that have all been answered for by their tags. -/
lemma Sending.Gathers.of_perm {urls : List String} {log : Log} {tag : Nat → String}
    (answers : (Log.answers log).Perm ((numbered urls).map (Settled.of fun n => .ok (tag n))))
    (puts : ((Log.puts log).map Held.address).Perm (numbered urls)) :
    Gathers urls log (Sending.tags (Log.answers log)) := by
  have answered : ((Log.answers log).map Settled.address).Perm (numbered urls) := by
    refine (answers.map _).trans (.of_eq ?_)
    rw [List.map_map]
    exact List.map_id _
  have tagged : ∀ a ∈ Log.answers log, ∃ tag, a.outcome = .ok tag := by
    intro a ha
    obtain ⟨part, -, rfl⟩ := List.mem_map.1 (answers.mem_iff.1 ha)
    exact ⟨_, rfl⟩
  have mem : ∀ n tag, (n, tag) ∈ (Sending.tags (Log.answers log)).entries ↔
      ∃ a ∈ Log.answers log, a.number = n ∧ a.outcome = .ok tag :=
    fun _ _ => mem_tags (nodup_of_address answered)
  have same : ∀ n, n ∈ (Sending.tags (Log.answers log)).keys ↔ n ∈ List.range' 1 urls.length := by
    intro n
    rw [← map_fst_numbered, ← (answered.map (·.1)).mem_iff, List.map_map, List.mem_map]
    constructor
    · intro hn
      obtain ⟨tag, found⟩ := OrderedMap.mem_keys_iff.1 hn
      obtain ⟨a, ha, number, -⟩ := (mem n tag).1 (OrderedMap.find?_eq_some_iff.1 found)
      exact ⟨a, ha, number⟩
    · rintro ⟨a, ha, number⟩
      obtain ⟨tag, outcome⟩ := tagged a ha
      have stands := (mem n tag).2 ⟨a, ha, number, outcome⟩
      exact OrderedMap.mem_keys_iff.2 ⟨tag, OrderedMap.find?_eq_some_iff.2 stands⟩
  -- The keys of a map ascend without repetition, and there is one such list with these members.
  have keys : (Sending.tags (Log.answers log)).keys = List.range' 1 urls.length := by
    have perm := (List.perm_ext_iff_of_nodup (OrderedMap.nodup_keys _) List.nodup_range').2 same
    exact perm.eq_of_pairwise (fun _ _ _ _ lt gt => absurd (Nat.lt_trans lt gt) (Nat.lt_irrefl _))
      (List.pairwise_map.2 (OrderedMap.ordered _)) (List.pairwise_lt_range' 1)
  have manifest := Manifest.ofEtags_of_keys keys
  exact ⟨keys, manifest, fun room => Manifest.assemble_eq_answered_iff.2 ⟨room, manifest⟩, puts,
    answered, tagged, mem⟩

/-! ### No part is missing in a sending -/

/-- The end as which a sending tells that a part is missing. -/
def missing (n : Nat) : Except Stop (OrderedMap Nat String) :=
  .error (.failed (.chunk (.missingPart n)))

lemma PartReader.ne_missingPart {r r' : PartReader} {file : Except IoError Bytes} {e : ChunkError}
    (h : r.next file = (.error e, r')) (n : Nat) : e ≠ .missingPart n := by
  rintro rfl
  unfold next at h
  split at h
  · cases h
  · split at h
    · cases h
    · dsimp only at h
      split at h <;> cases h

/-- No part is missing while parts are sent. -/
lemma Sending.Course.ne_missing {file : String} {fuel slots : Nat} {reader : PartReader}
    {urls : List String} {log : Log} {t : State}
    (course : Course file fuel (.start slots reader urls) log t) (n : Nat) :
    t.result ≠ some (.error (.chunk (.missingPart n))) := by
  have kept : Kept file fun _ _ => True := fun _ _ _ _ _ _ _ _ _ _ _ _ => trivial
  have ends : Ends file (fun _ _ => True) ([] ++ log) t := course.ends kept rfl trivial
  generalize [] ++ log = whole at ends
  cases ends with
  | still _ open' => simp [open']
  | cancelled => simp [State.stop]
  | unread _ _ read =>
    intro failed
    cases failed
    exact PartReader.ne_missingPart read n rfl
  | finished =>
    simp only [resultOf]
    split <;> simp

/-- No store answers with an error of the parts of a file. -/
lemma Awaits.ne_chunk {g : Gateway} {w : Await} {D : Diary} {reply : Reply TransferError w.Answer}
    {k k' : Option AccessToken} (h : Awaits g w k D reply k') (e : ChunkError) :
    reply ≠ .answered (.error (.chunk e)) := by
  cases h with
  | @call _ _ _ _ x =>
    cases x with
    | ok => simp [Except.mapError]
    | error e => cases e <;> simp [Except.mapError, TransferError.ofGateway]
  | _ => simp [Reply.ok, Reply.fail]

namespace Profile

variable {p : Profile} {file : String} {plan : UploadPlan} {log : Log} {n : Nat}

lemma SendsParts.gathers {etags : OrderedMap Nat String}
    (h : p.SendsParts file plan log (.ok etags)) :
    Sending.Gathers plan.partsUploadUrls log etags := by
  obtain ⟨rfl, ⟨tag, answers⟩, puts⟩ := h.of_ok
  exact .of_perm answers puts

lemma SendsParts.ne_missing {r : Except Stop (OrderedMap Nat String)}
    (h : p.SendsParts file plan log r) : r ≠ missing n := by
  cases h with
  | @sent _ _ t x _ course result =>
    intro failed
    cases x with
    | ok _ => cases failed
    | error e =>
      cases failed
      exact course.ne_missing n result
  | _ => simp [missing]

/-- A part is missing only if that is the answer to the manifest. -/
lemma SendsFile.answered_of_missing {r : Except Stop (OrderedMap Nat String)}
    (h : p.SendsFile file plan log r) (failed : r = missing n) :
    ∃ xml, .awaited (.call (.complete plan.completeUploadUrl xml))
      (.answered (.error (.chunk (.missingPart n)))) ∈ log := by
  cases h with
  | stopped parts => exact absurd failed parts.ne_missing
  | cancelled => cases failed
  | posted _ _ concludes =>
    cases concludes with
    | error e =>
      cases failed
      exact ⟨_, List.mem_append_right _ (List.mem_cons_of_mem _ List.mem_cons_self)⟩
    | ok | overrun => cases failed

lemma SendsParts.not_mem_awaited {r : Except Stop (OrderedMap Nat String)}
    (h : p.SendsParts file plan log r) {w : Await} {reply : Reply TransferError w.Answer} :
    .awaited w reply ∉ log := by
  intro mem
  cases h with
  | sent _ course | stalled _ course =>
    simp only [List.mem_cons, reduceCtorEq, false_or] at mem
    cases course.asks mem
  | _ => simp at mem

lemma Concludes.not_mem_awaited {etags : OrderedMap Nat String} {count : Nat} {last : Log}
    {reply : Reply TransferError Unit} {r : Except Stop (OrderedMap Nat String)}
    (h : Concludes etags count reply last r) {w : Await} {reply' : Reply TransferError w.Answer} :
    .awaited w reply' ∉ last := by
  cases h <;> simp

/-- The manifest that is posted lists all parts that have been sent. -/
lemma SendsFile.posts {r : Except Stop (OrderedMap Nat String)} (h : p.SendsFile file plan log r)
    {url xml : String} {reply : Reply TransferError Unit}
    (mem : .awaited (.call (.complete url xml)) reply ∈ log) :
    url = plan.completeUploadUrl ∧ ∃ etags, Sending.Gathers plan.partsUploadUrls log etags ∧
      xml = Manifest.toXml ⟨etags.entries⟩ := by
  cases h with
  | stopped parts => exact absurd mem parts.not_mem_awaited
  | cancelled parts =>
    simp only [List.mem_append, List.mem_singleton, reduceCtorEq, or_false] at mem
    exact absurd mem parts.not_mem_awaited
  | @posted first last etags manifest _ _ parts ofEtags concludes =>
    simp only [List.mem_append, List.mem_cons, reduceCtorEq, false_or] at mem
    rcases mem with mem | same | mem
    · exact absurd mem parts.not_mem_awaited
    · cases same
      have gathers := parts.gathers
      obtain rfl := Except.ok.inj (gathers.manifest.symm.trans ofEtags)
      refine ⟨rfl, etags, ?_, rfl⟩
      -- nothing is sent or answered for after the manifest
      have answers : Log.answers (first ++ .asked false :: .awaited (.call (.complete
          plan.completeUploadUrl (Manifest.toXml ⟨etags.entries⟩))) reply :: last) =
          Log.answers first := by
        rw [Log.answers_append]
        exact (congrArg _ concludes.answers_eq_nil).trans (List.append_nil _)
      have puts : Log.puts (first ++ .asked false :: .awaited (.call (.complete
          plan.completeUploadUrl (Manifest.toXml ⟨etags.entries⟩))) reply :: last) =
          Log.puts first := by
        rw [Log.puts_append]
        exact (congrArg _ concludes.puts_eq_nil).trans (List.append_nil _)
      exact gathers.of_same answers puts
    · exact absurd mem concludes.not_mem_awaited

variable (p file plan)

/-- How the sending of a file comes to its manifest in an environment: from all tags, and without a
part that is missing unless the other side says so. -/
structure Lists {σ : Type} (env : Environment (StateM σ)) (s : σ) : Prop where
  gathers : ∀ etags, ((p.sendParts file plan).run env s).1 = .ok etags →
    Sending.Gathers plan.partsUploadUrls ((p.sendParts file plan).log env s) etags
  posts   : ∀ url xml reply,
    .awaited (.call (.complete url xml)) reply ∈ (p.sendFile file plan).log env s →
      url = plan.completeUploadUrl ∧ ∃ etags, xml = Manifest.toXml ⟨etags.entries⟩ ∧
        Sending.Gathers plan.partsUploadUrls ((p.sendFile file plan).log env s) etags
  told    : ∀ n, ((p.sendFile file plan).run env s).1 = missing n →
    ∃ xml, .awaited (.call (.complete plan.completeUploadUrl xml))
      (.answered (.error (.chunk (.missingPart n)))) ∈ (p.sendFile file plan).log env s

variable {p file plan}

lemma lists {σ : Type} (env : Environment (StateM σ)) (s : σ) : p.Lists file plan env s where
  gathers etags ok := by
    have course := Activity.course_log env (p.sendParts file plan) s
    rw [ok] at course
    exact (SendsParts.of_course course).gathers
  posts url xml reply mem := by
    have sends := SendsFile.of_course (Activity.course_log env (p.sendFile file plan) s)
    obtain ⟨same, etags, gathers, rfl⟩ := sends.posts mem
    exact ⟨same, etags, rfl, gathers⟩
  told n failed :=
    (SendsFile.of_course (Activity.course_log env (p.sendFile file plan) s)).answered_of_missing
      failed

/-- In a session no part is missing, since no store says so. -/
lemma run_ne_missing {S : Type} (c : Client (StateM S)) (v : Session) (s : S) (n : Nat) :
    (c.run (p.sendFile file plan) v s).1.1 ≠ missing n := by
  intro failed
  obtain ⟨log, k, course, tells⟩ := c.tells (p.sendFile file plan) v s
  obtain ⟨xml, mem⟩ := (SendsFile.of_course course).answered_of_missing failed
  obtain ⟨_, _, _, awaits⟩ := tells.awaits_of_mem mem
  exact awaits.ne_chunk (.missingPart n) rfl

/-- As long as there is room for the parts up to a count, a manifest is made of some tags just if no
part is missing, and then lists each of them in order; otherwise the first that is missing is told.
The tags of a sending are those of all parts of its plan, in whatever order they were answered for,
so that no upload misses a part or leaves one out. -/
theorem sendFile_lists (p : Profile) (file : String) (plan : UploadPlan) :
    (∀ etags count, Manifest.GapFree etags count) ∧
      (∀ {σ : Type} (env : Environment (StateM σ)) (s : σ), p.Lists file plan env s) ∧
      ∀ {S : Type} (c : Client (StateM S)) (v : Session) (s : S) (n : Nat),
        (c.run (p.sendFile file plan) v s).1.1 ≠ missing n :=
  ⟨Manifest.gapFree, fun env s => lists env s, fun c v s n => run_ne_missing c v s n⟩

end Profile

end StagedTransfer
