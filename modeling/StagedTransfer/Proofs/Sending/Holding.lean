import StagedTransfer.Proofs.Sending.Safety

/-!
# Parts that are held

A slot is taken before a part is read and given back with the answer for it. So at every moment no
more parts have been read and not been answered for than there are slots, and with a single slot a
part goes on its way only after all parts before it have been answered for. The parts are read in
order, each as it lies in the file.
-/

namespace StagedTransfer

namespace Sending

/-- What a move reads: a part, or nothing more if the file has come to its end. The reader has to
have its turn. -/
def State.read? (s : State) : Move → Option (Option Part)
  | .proceed false content =>
    if s.pending.isEmpty || !s.canProceed then none else (s.reader.next content).1.toOption
  | _                      => none

/-- The part after the first `k` parts. -/
def partAt (contents : Bytes) (partSize k : Nat) : Part :=
  ⟨k + 1, k * partSize, slice contents partSize k⟩

end Sending

/-- A file is as large as its content, and holds just that, in an answer about it. -/
def Note.Agrees (file : String) (contents : Bytes) : Note → Prop
  | .acted (.size name) x    => name = file → x = .ok contents.length
  | .acted (.content name) x => name = file → x = .ok contents
  | _                        => True

instance (file : String) (contents : Bytes) : (note : Note) → Decidable (note.Agrees file contents)
  | .acted (.size _) x    =>
    inferInstanceAs (Decidable (_ → (x : Except IoError Nat) = .ok contents.length))
  | .acted (.content _) x =>
    inferInstanceAs (Decidable (_ → (x : Except IoError Bytes) = .ok contents))
  | .acted (.emit _) _    => inferInstanceAs (Decidable True)
  | .acted (.enter _) _   => inferInstanceAs (Decidable True)
  | .asked _              => inferInstanceAs (Decidable True)
  | .awaited _ _          => inferInstanceAs (Decidable True)
  | .chosen _ _           => inferInstanceAs (Decidable True)

namespace Log

/-- A file does not change during a run. -/
def Unchanged (file : String) (contents : Bytes) (log : Log) : Prop :=
  ∀ note ∈ log, note.Agrees file contents

instance (file : String) (contents : Bytes) (log : Log) : Decidable (log.Unchanged file contents) :=
  inferInstanceAs (Decidable (∀ note ∈ log, _))

namespace Unchanged

variable {file : String} {contents : Bytes} {log part : Log}

lemma subset (h : log.Unchanged file contents) (sub : part ⊆ log) : part.Unchanged file contents :=
  fun note hn => h note (sub hn)

lemma size (h : log.Unchanged file contents) {x : Except IoError Nat}
    (hx : .acted (.size file) x ∈ log) : x = .ok contents.length :=
  h _ hx rfl

lemma content (h : log.Unchanged file contents) {x : Except IoError Bytes}
    (hx : .acted (.content file) x ∈ log) : x = .ok contents :=
  h _ hx rfl

end Unchanged

/-- What the reader has read, in order. -/
def reads : Log → List (Option Part)
  | .chosen s .proceed :: .asked cancelled :: .acted (.content _) content :: log =>
    (s.read? (.proceed cancelled content)).toList ++ reads log
  | _ :: log => reads log
  | []       => []

lemma reads_sublist_cons (note : Note) (log : Log) : (reads log).Sublist (reads (note :: log)) := by
  generalize split : note :: log = whole
  cases whole using reads.fun_cases with
  | case1 s cancelled name content rest =>
    obtain ⟨-, rfl⟩ := List.cons.inj split
    simp [reads]
  | case2 note' log' other =>
    obtain ⟨rfl, rfl⟩ := List.cons.inj split
    rw [reads]
    exact other
  | case3 => cases split

/-- What has been read stays read. -/
lemma reads_sublist_append (log rest : Log) : (reads log).Sublist (reads (log ++ rest)) := by
  induction log using reads.induct with
  | case1 s cancelled name content log ih => exact ih.append_left _
  | case2 note log other ih =>
    rw [reads]
    · exact ih.trans (reads_sublist_cons note _)
    · exact other
  | case3 => exact List.nil_sublist _

/-- Each part that has been read or sent, and has not been answered for, has a slot. -/
structure Bounded (slots : Nat) (log : Log) : Prop where
  reads : (reads log).length ≤ (answers log).length + slots
  puts  : (puts log).length ≤ (answers log).length + slots

/-- A note that does not stand in the first of two parts of a log stands in the second. -/
lemma exists_of_append {first rest before after : Log} {note : Note} (outside : note ∉ first)
    (split : first ++ rest = before ++ note :: after) :
    ∃ between, before = first ++ between ∧ rest = between ++ note :: after := by
  rcases List.append_eq_append_iff.1 split with ⟨between, rfl, rfl⟩ | ⟨_ | ⟨_, between⟩, rfl, tail⟩
  · exact ⟨between, rfl, rfl⟩
  · exact ⟨[], by simp, by simpa using tail.symm⟩
  · obtain ⟨rfl, -⟩ := List.cons.inj tail
    simp at outside

/-- A note that does not stand in the second of two parts of a log stands in the first. -/
lemma exists_of_append_right {first last before after : Log} {note : Note} (outside : note ∉ last)
    (split : first ++ last = before ++ note :: after) :
    ∃ between, first = before ++ note :: between := by
  rcases List.append_eq_append_iff.1 split with ⟨between, rfl, rfl⟩ | ⟨_ | ⟨_, between⟩, rfl, tail⟩
  · simp at outside
  · obtain rfl : note :: after = last := tail
    simp at outside
  · obtain ⟨rfl, -⟩ := List.cons.inj tail
    exact ⟨between, rfl⟩

section

variable {log : Log} (unsent : ∀ s c, .chosen s c ∉ log)

include unsent

lemma reads_of_unsent : reads log = [] := by
  induction log with
  | nil => rfl
  | cons note log ih =>
    have later := ih fun s c mem => unsent s c (List.mem_cons_of_mem _ mem)
    cases note with
    | chosen s c => exact absurd List.mem_cons_self (unsent s c)
    | _ => simpa [reads] using later

lemma puts_of_unsent : puts log = [] := by
  rw [puts, List.filterMap_eq_nil_iff]
  intro note mem
  cases note with
  | chosen s c => exact absurd mem (unsent s c)
  | _ => rfl

lemma answers_of_unsent : answers log = [] := by
  rw [answers, List.filterMap_eq_nil_iff]
  intro note mem
  cases note with
  | chosen s c => exact absurd mem (unsent s c)
  | _ => rfl

end

end Log

namespace Sending

/-! ### Moments of a sending -/

/-- What every move keeps holds whenever something is chosen, with the log up to there. -/
theorem Course.moment {file : String} {I : Log → State → Prop} (kept : Kept file I) {fuel : Nat}
    {s t u : State} {log new before after : Log} {c : Choice} (h : Course file fuel s new t)
    (hs : s.result = none) (inv : I log s) (split : new = before ++ .chosen u c :: after) :
    I (log ++ before) u := by
  induction h generalizing log before with
  | spent => simp at split
  | ended => simp at split
  | @move n s t d notes new m open' amounts rest ih =>
    have step := State.step_of_open open' m
    cases before with
    | nil =>
      obtain ⟨same, -⟩ := List.cons.inj split
      obtain ⟨rfl, -⟩ := Note.chosen.inj same
      rwa [List.append_nil]
    | cons note before =>
      rw [List.cons_append, List.cons.injEq] at split
      obtain ⟨rfl, split⟩ := split
      -- The questions of the move itself hold no choice.
      have outside : .chosen u c ∉ notes ++ told (s.step m).2 := by
        rw [List.mem_append, not_or]
        constructor
        · cases amounts <;> simp
        · cases (s.step m).2 <;> simp [told]
      obtain ⟨between, rfl, later⟩ := Log.exists_of_append outside split
      cases ht : (s.step m).1.result with
      | some r =>
        obtain ⟨rfl, -⟩ := rest.eq_of_result ht
        simp at later
      | none =>
        have next := ih ht (kept inv open' amounts step ht) later
        simpa using next

/-! ### Parts that are read -/

lemma Amounts.reads {file : String} {c : Choice} {notes : Log} {m : Move}
    (h : Amounts file c notes m) (s : State) (e : Option Event) (log : Log) :
    Log.reads (.chosen s c :: (notes ++ told e ++ log)) = (s.read? m).toList ++ Log.reads log := by
  have skips : Log.reads (told e ++ log) = Log.reads log := by
    cases e with
    | none => rfl
    | some e => simp [told, Log.reads]
  cases h with
  | proceed cancelled content => simp [Log.reads, skips]
  | begin n => simp [Log.reads, State.read?, skips]
  | finish n outcome => simp [Log.reads, State.read?, skips]

/-- A move that does not end a sending reads a part into a slot, or it reads nothing and holds no
more parts than before. -/
lemma State.Step.read? {s t : State} {m : Move} {e : Option Event} (step : s.Step m t e)
    (ht : t.result = none) :
    t.slots = s.slots ∧
      ((s.read? m = none ∧ t.count = s.count ∧ t.held.length ≤ s.held.length) ∨
        ∃ content part reader url urls, m = .proceed false content ∧ s.read? m = some part ∧
          s.pending = url :: urls ∧ s.held.length < s.slots ∧
          s.reader.next content = (.ok part, reader) ∧ t = s.take reader url urls part) := by
  cases step with
  | waiting content wait => exact ⟨rfl, .inl ⟨by simp [State.read?, wait], rfl, Nat.le_refl _⟩⟩
  | @taken content part reader url urls pending room read =>
    refine ⟨rfl, .inr ⟨content, part, reader, url, urls, rfl, ?_, pending, room, read, rfl⟩⟩
    simp [State.read?, pending, canProceed, room, read, Except.toOption]
  | begun n => exact ⟨rfl, .inl ⟨rfl, rfl, by simp⟩⟩
  | unexpected n outcome _ => exact ⟨rfl, .inl ⟨rfl, rfl, Nat.le_refl _⟩⟩
  | answered outcome _ _ _ _ => exact ⟨rfl, .inl ⟨rfl, rfl, List.length_filter_le _ _⟩⟩
  | cancelled _ => simp [State.stop] at ht
  | finished _ _ _ => simp at ht
  | unread _ _ => simp [State.stop] at ht

/-- Where no more than one part is held, the one that is held is alone. -/
lemma State.held_eq_singleton {s : State} {k : Held} (room : s.held.length ≤ 1) (mem : k ∈ s.held) :
    s.held = [k] := by
  match hs : s.held, room, mem with
  | [k'], _, mem => rw [List.mem_singleton.1 mem]

/-- The parts that are held, with the log that has led to them. -/
structure Holding (file : String) (partSize : Nat) (contents : Bytes) (slots : Nat)
    (urls : List String) (log : Log) (s : State) : Prop
    extends Reads file partSize contents.length urls log s where
  room  : s.held.length ≤ slots
  size  : s.slots = slots
  /-- No turn of the reader is left half told. -/
  whole : ∀ more, Log.reads (log ++ more) = Log.reads log ++ Log.reads more
  many  : (Log.reads log).length = s.count
  order : log.Unchanged file contents →
    Log.reads log = (List.range s.count).map fun k => some (partAt contents partSize k)

namespace Holding

variable {file : String} {partSize slots : Nat} {contents : Bytes} {urls : List String}

lemma start (file : String) (partSize : Nat) (contents : Bytes) (slots : Nat)
    (urls : List String) : Holding file partSize contents slots urls []
      (.start slots (.after partSize contents.length 0) urls) where
  toReads := .start file partSize contents.length slots urls
  room := Nat.zero_le slots
  size := rfl
  whole _ := rfl
  many := by simp [State.start, State.count, Log.reads]
  order _ := by simp [State.start, State.count, Log.reads]

variable (hp : 0 < partSize) (count : urls.length = partCount contents.length partSize)

include hp count

/-- A slot is taken before a part is read. -/
lemma kept : Kept file (Holding file partSize contents slots urls) := by
  intro log notes s t c m e h open' amounts step ht
  have reads' := Reads.kept hp count h.toReads open' amounts step ht
  have read : Log.reads (log ++ .chosen s c :: (notes ++ told e)) =
      Log.reads log ++ (s.read? m).toList := by
    have move := amounts.reads s e []
    rw [List.append_nil] at move
    rw [h.whole, move, Log.reads, List.append_nil]
  have whole (more : Log) : Log.reads (log ++ .chosen s c :: (notes ++ told e) ++ more) =
      Log.reads (log ++ .chosen s c :: (notes ++ told e)) ++ Log.reads more := by
    rw [read, List.append_assoc, List.cons_append, h.whole, amounts.reads, List.append_assoc]
  -- A move reads no part, or the next one into a slot that is free.
  obtain ⟨size, ⟨none', count', fewer⟩ |
    ⟨content, part, reader, url, rest, rfl, some', pending, room, next, rfl⟩⟩ := step.read? ht
  · rw [none', Option.toList_none, List.append_nil] at read
    refine ⟨reads', Nat.le_trans fewer h.room, size.trans h.size, whole, ?_, fun unchanged => ?_⟩
    · rw [read, count', h.many]
    · rw [read, count', h.order (unchanged.subset (List.subset_append_left _ _))]
  · obtain ⟨count', -⟩ := h.toBalanced.take reader part pending
    rw [some', Option.toList_some] at read
    refine ⟨reads', ?_, size.trans h.size, whole, ?_, fun unchanged => ?_⟩
    · rw [State.take, List.length_append, ← h.size]
      exact room
    · rw [read, count', List.length_append, h.many]
      rfl
    · cases amounts
      have within := h.toReads.next_lt hp count pending
      rw [h.reader] at next
      obtain ⟨-, contents', same, -, rfl⟩ := PartReader.of_next_after within next
      rw [unchanged.content (x := content) (by simp)] at same
      obtain rfl := Except.ok.inj same
      rw [read, count', h.order (unchanged.subset (List.subset_append_left _ _)), List.range_succ,
        List.map_append, take_sliceLength]
      rfl

omit hp count

variable {log : Log} {s : State}

/-- A part that has been read and not been answered for is held. -/
lemma length_reads (h : Holding file partSize contents slots urls log s) :
    (Log.reads log).length = (Log.answers log).length + s.held.length := by
  have parts := h.parts.length_eq
  have within : s.count ≤ urls.length := by
    have total := h.total
    unfold State.count
    omega
  rw [numbered, List.length_zip, List.length_range', Nat.min_self, List.length_take_of_le within,
    State.parts, List.length_append, List.length_map, List.length_map] at parts
  rw [h.many, h.answers, ← parts, Nat.add_comm]

/-- A part that has been read, or sent, and not been answered for takes a slot. -/
lemma bounded (h : Holding file partSize contents slots urls log s) : log.Bounded slots := by
  have puts := h.puts.length_eq
  rw [List.length_map, List.length_append, List.length_map, List.length_map, ← h.answers] at puts
  have flying : s.flying.length ≤ s.held.length := List.length_filter_le _ _
  have room := h.room
  have reads := h.length_reads
  constructor <;> omega

/-- With a single slot each part before the one that is held has been answered for. -/
lemma answered_before (h : Holding file partSize contents 1 urls log s) {k : Held}
    (held : k ∈ s.held) {n : Nat} (first : 1 ≤ n) (less : n < k.number) :
    ∃ a ∈ Log.answers log, a.number = n := by
  have alone : s.held = [k] := State.held_eq_singleton h.room held
  have numbers := h.parts.map (·.1)
  rw [map_fst_numbered, State.parts, alone, List.map_append, List.map_map, List.map_map] at numbers
  have last : k.number ∈ List.range' 1 (urls.take s.count).length :=
    numbers.mem_iff.1 (List.mem_append_left _ (List.mem_singleton_self _))
  have mem : n ∈ List.range' 1 (urls.take s.count).length := by
    rw [List.mem_range'_1] at last ⊢
    omega
  rcases List.mem_append.1 (numbers.mem_iff.2 mem) with same | settled
  · obtain rfl := List.mem_singleton.1 same
    exact absurd less (Nat.lt_irrefl _)
  · obtain ⟨a, ha, rfl⟩ := List.mem_map.1 settled
    exact ⟨a, h.answers ▸ ha, rfl⟩

end Holding

/-! ### One slot -/

/-- There is one slot, and the parts have been answered for in order up to the one that is held. -/
structure InTurn (urls : List String) (s : State) : Prop extends Balanced urls s where
  single : s.slots = 1
  room   : s.held.length ≤ 1
  order  : s.settled.map (·.number) ++ s.held.map (·.number) = List.range' 1 s.count

namespace InTurn

variable {urls : List String} {s t : State} {m : Move} {e : Option Event}

lemma start (reader : PartReader) (urls : List String) : InTurn urls (.start 1 reader urls) where
  toBalanced := .start 1 reader urls
  single := rfl
  room := Nat.zero_le 1
  order := by simp [State.start, State.count]

lemma take (h : InTurn urls s) (reader : PartReader) {url : String} {rest : List String}
    (part : Option Part) (pending : s.pending = url :: rest) (room : s.held.length < s.slots) :
    InTurn urls (s.take reader url rest part) := by
  obtain ⟨count, balanced⟩ := h.toBalanced.take reader part pending
  have none' : s.held = [] := List.eq_nil_of_length_eq_zero (by have := h.single; omega)
  have held : (s.take reader url rest part).held.map (·.number) = [s.count + 1] := by
    rw [State.take, none']
    rfl
  have order := h.order
  rw [none', List.map_nil, List.append_nil] at order
  refine ⟨balanced, h.single, ?_, ?_⟩
  · rw [State.take, none']
    exact Nat.le_refl 1
  · rw [held, count, List.range'_1_concat, Nat.add_comm 1]
    exact congrArg (· ++ [s.count + 1]) order

lemma settle (h : InTurn urls s) {k : Held} (mem : k ∈ s.held)
    (outcome : Except TransferError String) : InTurn urls (s.settle k.number k.url outcome) := by
  have alone : s.held = [k] := State.held_eq_singleton h.room mem
  have held : (s.settle k.number k.url outcome).held = [] := by simp [State.settle, alone]
  refine ⟨h.toBalanced.settle mem outcome, h.single, ?_, ?_⟩
  · rw [held]
    exact Nat.zero_le 1
  · have order := h.order
    rw [alone] at order
    rw [held, List.map_nil, List.append_nil, State.settle, List.map_append]
    exact order

lemma begin (h : InTurn urls s) (n : Nat) :
    InTurn urls { s with held := s.held.map (Held.begin n) } := by
  have same : (s.held.map (Held.begin n)).map (·.number) = s.held.map (·.number) := by
    rw [List.map_map]
    refine List.map_congr_left fun k _ => ?_
    simp only [Function.comp_apply, Held.begin]
    split <;> rfl
  refine ⟨h.toBalanced.begin n, h.single, ?_, ?_⟩
  · rw [List.length_map]
    exact h.room
  · exact same ▸ h.order

lemma step (h : InTurn urls s) (step : s.Step m t e) (ht : t.result = none) : InTurn urls t := by
  cases step with
  | waiting _ _ => exact h
  | taken pending room _ => exact h.take _ _ pending room
  | begun n => exact h.begin n
  | unexpected _ _ _ => exact h
  | answered outcome mem number _ _ =>
    subst number
    exact h.settle mem outcome
  | cancelled _ => simp [State.stop] at ht
  | finished _ _ _ => simp at ht
  | unread _ _ => simp [State.stop] at ht

end InTurn

/-- With a single slot the parts are answered for in order. -/
theorem Course.answers_inTurn {file : String} {fuel : Nat} {reader : PartReader}
    {urls : List String} {log : Log} {t : State}
    (course : Course file fuel (.start 1 reader urls) log t) :
    (Log.answers log).map (·.number) = List.range' 1 (Log.answers log).length := by
  -- the answers are those that are settled, and with one slot these are in turn
  have kept : Kept file fun log s => Told urls log s ∧ InTurn urls s :=
    fun _ _ _ _ _ _ _ inv open' amounts step ht =>
      ⟨Told.kept file urls inv.1 open' amounts step ht, inv.2.step step ht⟩
  obtain ⟨before, s, rest, ⟨told, inTurn⟩, rfl, -, unanswered⟩ :=
    (course.ends kept rfl ⟨.start 1 reader urls, .start reader urls⟩).before
  rw [Log.answers_append, unanswered, List.append_nil, told.answers]
  obtain ⟨k, -, first, -⟩ := List.range'_eq_append_iff.1 inTurn.order.symm
  have length : s.settled.length = k := by
    simpa using congrArg List.length first
  rw [length, first]

/-! ### The end of a sending -/

/-- The last turn of a sending reads nothing. -/
lemma Ends.reads {file : String} {I : Log → State → Prop} {log : Log} {t : State}
    (h : Ends file I log t) : ∃ before s rest, I before s ∧ log = before ++ rest ∧
      Log.puts rest = [] ∧ Log.answers rest = [] ∧
      ∀ last, Log.reads (rest ++ last) = Log.reads last := by
  have turn (s : State) (cancelled : Bool) (content : Except IoError Bytes)
      (none' : s.read? (.proceed cancelled content) = none) (last : Log) :
      Log.reads (turn file s cancelled content ++ last) = Log.reads last := by
    have reads := (Amounts.proceed cancelled content : Amounts file _ _ _).reads s none last
    rwa [none'] at reads
  cases h with
  | still inv _ => exact ⟨log, t, [], inv, (List.append_nil log).symm, rfl, rfl, fun _ => rfl⟩
  | cancelled content inv _ => exact ⟨_, _, _, inv, rfl, rfl, rfl, turn _ _ _ rfl⟩
  | unread inv _ read =>
    refine ⟨_, _, _, inv, rfl, rfl, rfl, turn _ _ _ ?_⟩
    rw [State.read?, read]
    split <;> rfl
  | finished content inv _ pending _ =>
    refine ⟨_, _, _, inv, rfl, rfl, rfl, turn _ _ _ ?_⟩
    rw [State.read?, pending]
    rfl

end Sending

end StagedTransfer
