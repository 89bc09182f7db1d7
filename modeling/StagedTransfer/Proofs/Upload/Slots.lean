import StagedTransfer.Proofs.Sending.Holding
import StagedTransfer.Proofs.Upload.Completion

/-!
# The slots of an upload

However many parts a file has and in whatever order they are answered for, an upload holds no more
of them at once than it has slots. The parts are those of the file, in order and none too many, and
each goes to its own address. A plan for another number of parts is refused before anything is sent.
-/

namespace StagedTransfer

open Activity Sending Wire

namespace Profile

variable {p : Profile} {file : String} {plan : UploadPlan} {contents : Bytes} {log : Log}

/-! ### The sending within an upload -/

/-- What is asked before the parts are sent. -/
def opening (file : String) (fileSize : Nat) : Log :=
  [.acted (.size file) (.ok fileSize), .asked false]

lemma reads_opening (fileSize : Nat) (log : Log) :
    Log.reads (opening file fileSize ++ log) = Log.reads log := by
  simp [opening, Log.reads]

lemma puts_opening (fileSize : Nat) (log : Log) :
    Log.puts (opening file fileSize ++ log) = Log.puts log :=
  rfl

lemma answers_opening (fileSize : Nat) (log : Log) :
    Log.answers (opening file fileSize ++ log) = Log.answers log :=
  rfl

lemma bounded_opening (fileSize : Nat) {slots : Nat} {log : Log} (h : log.Bounded slots) :
    Log.Bounded slots (opening file fileSize ++ log) where
  reads := by
    rw [reads_opening, answers_opening]
    exact h.reads
  puts := by
    rw [puts_opening, answers_opening]
    exact h.puts

/-- An upload of a file that does not change sends no part, or the sending of the parts stands in
its log between questions of other kinds. -/
inductive Within (p : Profile) (file : String) (plan : UploadPlan) (contents : Bytes) (log : Log) :
    Prop
  | unsent (unsent : ∀ s c, .chosen s c ∉ log)
  | sent (fits : Fits plan contents.length) {sending last : Log} {t : State}
    (course : Sending.Course file (p.startOf plan contents.length).moveBound
      (p.startOf plan contents.length) sending t)
    (split : log = opening file contents.length ++ (sending ++ last))
    (unsent : ∀ s c, .chosen s c ∉ last)

lemma SendsParts.within {r : Except Stop (OrderedMap Nat String)}
    (h : p.SendsParts file plan log r) (size : ∀ x, .acted (.size file) x ∈ log →
      x = .ok contents.length) : Within p file plan contents log := by
  cases h with
  | sent fits course _ =>
    obtain rfl := Except.ok.inj (size _ List.mem_cons_self)
    exact .sent fits course (by rw [List.append_nil]; rfl) (by simp)
  | stalled fits course _ =>
    obtain rfl := Except.ok.inj (size _ List.mem_cons_self)
    exact .sent fits course (by rw [List.append_nil]; rfl) (by simp)
  | _ => exact .unsent (by simp)

/-- What follows the sending of the parts chooses nothing. -/
lemma Within.append (h : Within p file plan contents log) {last : Log}
    (unsent : ∀ s c, .chosen s c ∉ last) : Within p file plan contents (log ++ last) := by
  cases h with
  | unsent unsent' =>
    exact .unsent fun s c mem => (List.mem_append.1 mem).elim (unsent' s c) (unsent s c)
  | sent fits course split unsent' =>
    refine .sent fits course ?_ fun s c mem =>
      (List.mem_append.1 mem).elim (unsent' s c) (unsent s c)
    rw [split, List.append_assoc, List.append_assoc]

lemma SendsFile.within {r : Except Stop (OrderedMap Nat String)} (h : p.SendsFile file plan log r)
    (size : ∀ x, .acted (.size file) x ∈ log → x = .ok contents.length) :
    Within p file plan contents log := by
  cases h with
  | stopped parts => exact parts.within size
  | cancelled parts =>
    exact (parts.within fun x hx => size x (List.mem_append_left _ hx)).append (by simp)
  | posted parts _ concludes =>
    refine (parts.within fun x hx => size x (List.mem_append_left _ hx)).append ?_
    cases concludes <;> simp

/-! ### Bounded and ordered reading -/

/-- How an upload holds and sends the parts of a file. -/
structure Orderly (p : Profile) (plan : UploadPlan) (contents : Bytes) (log : Log) : Prop where
  /-- At every moment the parts that have not been answered for have slots. -/
  bounded : ∀ before after, log = before ++ after → Log.Bounded p.slots before
  /-- Whenever something is chosen, just the parts that have been read and not been answered for are
  held. -/
  held : ∀ before s c after, log = before ++ .chosen s c :: after →
    (Log.reads before).length = (Log.answers before).length + s.held.length
  /-- The parts that are read are the first ones of the file, in order. -/
  order : Log.reads log = (List.range (Log.reads log).length).map fun k =>
    some (partAt contents plan.maxPartSize.toNat k)
  /-- The part with a number goes to the address with that number and is not empty. -/
  bodies : ∀ h ∈ Log.puts log, 1 ≤ h.number ∧ plan.partsUploadUrls[h.number - 1]? = some h.url ∧
    h.data = slice contents plan.maxPartSize.toNat (h.number - 1) ∧ h.data ≠ []
  /-- With a single slot a part goes on its way only after all parts before it have been answered
  for. -/
  single : p.parallel ≤ 1 → ∀ before s c after h, log = before ++ .chosen s c :: after →
    s.put? c = some h → ∀ n, 1 ≤ n → n < h.number → ∃ a ∈ Log.answers before, a.number = n

/-- If there are slots enough whenever something is chosen, and in the end, there always are. -/
lemma bounded_of_chosen {slots : Nat} {log before after : Log}
    (chosen : ∀ (before : Log) s c after, log = before ++ .chosen s c :: after →
      before.Bounded slots)
    (ends : log.Bounded slots) (split : log = before ++ after) : before.Bounded slots := by
  induction after generalizing before with
  | nil =>
    rw [List.append_nil] at split
    exact split ▸ ends
  | cons note after ih =>
    by_cases told : ∃ s c, note = .chosen s c
    · obtain ⟨s, c, rfl⟩ := told
      exact chosen before s c after split
    · -- A note of another kind neither sends a part nor answers for one.
      have unsent : ∀ s c, .chosen s c ∉ [note] := fun s c mem =>
        told ⟨s, c, (List.mem_singleton.1 mem).symm⟩
      obtain ⟨reads, puts⟩ := ih (split.trans (List.append_cons before note after))
      have answers : Log.answers (before ++ [note]) = Log.answers before := by
        rw [Log.answers_append, Log.answers_of_unsent unsent, List.append_nil]
      rw [answers] at reads puts
      rw [Log.puts_append, Log.puts_of_unsent unsent, List.append_nil] at puts
      exact ⟨Nat.le_trans (Log.reads_sublist_append before [note]).length_le reads, puts⟩

/-- An upload in which nothing is chosen is trivially in order. -/
lemma Orderly.of_unsent (unsent : ∀ s c, .chosen s c ∉ log) : Orderly p plan contents log := by
  have outside {before after : Log} {s : State} {c : Choice}
      (split : log = before ++ .chosen s c :: after) : False :=
    unsent s c (split ▸ List.mem_append_right _ List.mem_cons_self)
  have reads := Log.reads_of_unsent unsent
  have puts := Log.puts_of_unsent unsent
  constructor
  case bounded =>
    intro before after
    refine bounded_of_chosen (fun _ _ _ _ split => (outside split).elim) ⟨?_, ?_⟩
    · rw [reads]
      exact Nat.zero_le _
    · rw [puts]
      exact Nat.zero_le _
  case held => exact fun _ _ _ _ split => (outside split).elim
  case order =>
    rw [reads]
    rfl
  case bodies =>
    rw [puts]
    exact fun _ mem => absurd mem List.not_mem_nil
  case single => exact fun _ _ _ _ _ _ split => (outside split).elim

section

variable {sending last : Log} {t : State} (fits : Fits plan contents.length)
  (course : Sending.Course file (p.startOf plan contents.length).moveBound
    (p.startOf plan contents.length) sending t)

include fits course

/-- Whenever something is chosen in an upload, the parts have been held so far as they should. -/
lemma holding_of_split (unsent : ∀ s c, .chosen s c ∉ last) {before after : Log} {s : State}
    {c : Choice}
    (split : opening file contents.length ++ (sending ++ last) = before ++ .chosen s c :: after) :
    ∃ here, before = opening file contents.length ++ here ∧
      Holding file plan.maxPartSize.toNat contents p.slots plan.partsUploadUrls here s := by
  obtain ⟨here, rfl, later⟩ := Log.exists_of_append (by simp [opening]) split
  obtain ⟨between, sent⟩ := Log.exists_of_append_right (unsent s c) later
  exact ⟨here, rfl, course.moment (Holding.kept fits.positive fits.count) rfl (.start ..) sent⟩

/-- In the end no more has been read, sent or answered for than while the parts were held. -/
lemma holding_of_end (unsent : ∀ s c, .chosen s c ∉ last) :
    ∃ here s, Holding file plan.maxPartSize.toNat contents p.slots plan.partsUploadUrls here s ∧
      here ⊆ sending ∧
      Log.reads (opening file contents.length ++ (sending ++ last)) = Log.reads here ∧
      Log.puts (opening file contents.length ++ (sending ++ last)) = Log.puts here ∧
      Log.answers (opening file contents.length ++ (sending ++ last)) = Log.answers here := by
  obtain ⟨here, s, rest, holding, rfl, unput, unanswered, unread⟩ :=
    (course.ends (Holding.kept fits.positive fits.count) rfl (.start ..)).reads
  refine ⟨here, s, holding, List.subset_append_left _ _, ?_, ?_, ?_⟩
  · rw [reads_opening, List.append_assoc, holding.whole, unread, Log.reads_of_unsent unsent,
      List.append_nil]
  · rw [puts_opening, Log.puts_append, Log.puts_append, unput, Log.puts_of_unsent unsent,
      List.append_nil, List.append_nil]
  · rw [answers_opening, Log.answers_append, Log.answers_append, unanswered,
      Log.answers_of_unsent unsent, List.append_nil, List.append_nil]

/-- The part with a number is what the file has at its place. -/
lemma body_of_mem_puts (unchanged : Log.Unchanged file contents sending) {h : Held}
    (mem : h ∈ Log.puts sending) : 1 ≤ h.number ∧
      plan.partsUploadUrls[h.number - 1]? = some h.url ∧
      h.data = slice contents plan.maxPartSize.toNat (h.number - 1) ∧ h.data ≠ [] := by
  have address : h.address ∈ numbered plan.partsUploadUrls :=
    (course.subperm_puts fits.positive fits.count).subset (List.mem_map_of_mem mem)
  obtain ⟨first, url⟩ := mem_numbered.1 address
  obtain ⟨-, contents', read, data, length⟩ := course.holds fits.positive fits.count mem
  obtain rfl := Except.ok.inj (unchanged.content read)
  have within : (h.number - 1) * plan.maxPartSize.toNat < contents'.length := by
    rw [← lt_partCount_iff fits.positive, ← fits.count]
    exact (List.getElem?_eq_some_iff.1 url).1
  refine ⟨first, url, data.trans (take_sliceLength ..), fun empty => ?_⟩
  have positive := fits.positive
  rw [empty, List.length_nil, sliceLength] at length
  omega

/-- An upload in which the parts are sent is in order. -/
lemma Orderly.of_sent (unsent : ∀ s c, .chosen s c ∉ last)
    (unchanged : Log.Unchanged file contents sending) :
    Orderly p plan contents (opening file contents.length ++ (sending ++ last)) := by
  obtain ⟨here, s, holding, sub, reads, puts, answers⟩ := holding_of_end fits course unsent
  constructor
  case bounded =>
    intro before after
    refine bounded_of_chosen ?_ ⟨?_, ?_⟩
    · intro before s c after split
      obtain ⟨here, rfl, holding⟩ := holding_of_split fits course unsent split
      exact bounded_opening contents.length holding.bounded
    · rw [reads, answers]
      exact holding.bounded.reads
    · rw [puts, answers]
      exact holding.bounded.puts
  case held =>
    intro before s c after split
    obtain ⟨here, rfl, holding⟩ := holding_of_split fits course unsent split
    rw [reads_opening, answers_opening]
    exact holding.length_reads
  case order =>
    rw [reads, holding.many]
    exact holding.order (unchanged.subset sub)
  case bodies =>
    intro h mem
    rw [puts_opening, Log.puts_append, Log.puts_of_unsent unsent, List.append_nil] at mem
    exact body_of_mem_puts fits course unchanged mem
  case single =>
    intro one before s c after h split put n first less
    obtain ⟨here, rfl, holding⟩ := holding_of_split fits course unsent split
    rw [show p.slots = 1 from Nat.max_eq_left one] at holding
    rw [answers_opening]
    exact holding.answered_before (State.mem_of_put? put).1 first less

end

theorem Within.orderly (h : Within p file plan contents log)
    (unchanged : log.Unchanged file contents) : Orderly p plan contents log := by
  cases h with
  | unsent unsent => exact .of_unsent unsent
  | sent fits course split unsent =>
    subst split
    refine .of_sent fits course unsent (unchanged.subset ?_)
    exact List.subset_append_of_subset_right _ (List.subset_append_left _ _)

/-! ### Plans that do not fit -/

/-- The parts of a file are not read, let alone sent, if the plan does not fit the file. -/
lemma refuses_of_misfit {r : Except Stop (OrderedMap Nat String)}
    (h : (p.sendParts file plan).Course log r) (unchanged : log.Unchanged file contents)
    (unfit : ¬Fits plan contents.length) :
    r = .error (.failed (misfit plan contents.length)) ∧ ∀ s c, .chosen s c ∉ log := by
  simp only [sendParts] at h
  by_cases zero : plan.maxPartSize.toNat = 0
  · rw [if_pos zero] at h
    obtain ⟨rfl, rfl⟩ := Course.of_fail h
    rw [misfit, if_pos zero]
    exact ⟨rfl, by simp⟩
  rw [if_neg zero] at h
  obtain ⟨x, rest, rfl, opened⟩ := Course.of_perform_bind h
  obtain rfl := unchanged.size List.mem_cons_self
  have count : partCount contents.length plan.maxPartSize.toNat ≠ plan.partsUploadUrls.length :=
    fun count => unfit ⟨Nat.pos_of_ne_zero zero, count.symm⟩
  simp only [PartReader.open, if_neg zero, if_pos count] at opened
  obtain ⟨rfl, rfl⟩ := Course.of_fail opened
  rw [misfit, if_neg zero]
  exact ⟨rfl, by simp⟩

/-- At every moment of an upload of a file that does not change, each part that has been read and
not been answered for has a slot. The parts are read in order and sent to their addresses, with a
single slot one after the other. If the plan does not fit the file, the upload ends with a malformed
response, nothing has been sent and nothing is completed. -/
theorem sendFile_orderly (p : Profile) (file : String) (plan : UploadPlan) (contents : Bytes)
    {σ : Type} (env : Environment (StateM σ)) (s : σ)
    (unchanged : ((p.sendFile file plan).log env s).Unchanged file contents) :
    Orderly p plan contents ((p.sendFile file plan).log env s) ∧
      (¬Fits plan contents.length →
        ((p.sendFile file plan).run env s).1 =
          .error (.failed (misfit plan contents.length)) ∧
        ((p.sendFile file plan).log env s).puts = [] ∧
        ((p.sendFile file plan).log env s).posts = []) := by
  have course := course_log env (p.sendFile file plan) s
  have sends := SendsFile.of_course course
  refine ⟨(sends.within fun _ => unchanged.size).orderly unchanged, fun unfit => ?_⟩
  rcases Course.of_bind course with ⟨first, rest, etags, parts, -, split⟩ | ⟨stop, parts, result⟩
  · have sub : first ⊆ (p.sendFile file plan).log env s := split ▸ List.subset_append_left _ _
    cases (refuses_of_misfit parts (unchanged.subset sub) unfit).1
  · obtain ⟨stopped, unsent⟩ := refuses_of_misfit parts unchanged unfit
    refine ⟨?_, Log.puts_of_unsent unsent, (SendsParts.of_course parts).posts_eq_nil⟩
    rw [result, Except.error.inj stopped]

/-! ### A file of three parts and two slots -/

def threePlaces : UploadPlan :=
  ⟨["first", "second", "third"], "done", 1, default⟩

/-- Three bytes on two slots, the last part that is held first. -/
def fillsTwo (plan : UploadPlan) : Except Stop (OrderedMap Nat String) × Log :=
  let sends := twoAtOnce.sendFile "file" plan
  let env := steady [1, 2, 3] (lastFirst fun _ => .ok "tag")
  ((sends.run env ()).1, sends.log env ())

/-- The third part has to wait for the second, and the first is sent last. A plan for two parts is
refused. -/
theorem sendFile_orderly_lastFirst :
    Orderly twoAtOnce threePlaces [1, 2, 3] (fillsTwo threePlaces).2 ∧
      (fillsTwo threePlaces).2.reads.length = 3 ∧
      (fillsTwo threePlaces).2.puts.map (·.number) = [2, 3, 1] ∧
      (fillsTwo twoPlaces).1 = .error (.failed (misfit twoPlaces 3)) :=
  ⟨(sendFile_orderly twoAtOnce "file" threePlaces [1, 2, 3] _ () (by decide +kernel)).1,
    by decide +kernel, by decide +kernel,
    ((sendFile_orderly twoAtOnce "file" twoPlaces [1, 2, 3] _ () (by decide +kernel)).2
      fun fits => absurd fits.count (by decide +kernel)).1⟩

end Profile

end StagedTransfer
