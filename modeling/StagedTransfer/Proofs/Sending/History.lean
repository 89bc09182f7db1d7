import Mathlib.Data.List.Nodup
import Mathlib.Data.List.Perm.Basic
import StagedTransfer.Proofs.Sending.Step

/-!
# What becomes of the parts

Each part that has been read is either held or answered for, and never both. The log of a sending
tells which parts have gone on their way and which answers have come.
-/

namespace StagedTransfer

/-- The part that goes on its way. -/
def Note.put? : Note → Option Sending.Held
  | .chosen s c => s.put? c
  | _           => none

/-- The answer for a part that comes. -/
def Note.answer? : Note → Option Sending.Settled
  | .chosen s c => s.answer? c
  | _           => none

namespace Log

/-- The parts that have gone on their way, in order. -/
def puts (log : Log) : List Sending.Held :=
  log.filterMap Note.put?

/-- The answers for parts that have come, in order. -/
def answers (log : Log) : List Sending.Settled :=
  log.filterMap Note.answer?

@[simp] lemma puts_append (first rest : Log) : puts (first ++ rest) = puts first ++ puts rest :=
  List.filterMap_append

@[simp] lemma answers_append (first rest : Log) :
    answers (first ++ rest) = answers first ++ answers rest :=
  List.filterMap_append

lemma puts_turn (file : String) (s : Sending.State) (cancelled : Bool)
    (content : Except IoError Bytes) : puts (Sending.turn file s cancelled content) = [] := rfl

lemma answers_turn (file : String) (s : Sending.State) (cancelled : Bool)
    (content : Except IoError Bytes) : answers (Sending.turn file s cancelled content) = [] := rfl

end Log

namespace Sending

/-! ### Parts by number and address -/

/-- The parts that go to some addresses, with their numbers. -/
def numbered (urls : List String) : List (Nat × String) :=
  (List.range' 1 urls.length).zip urls

lemma map_fst_numbered (urls : List String) :
    (numbered urls).map (·.1) = List.range' 1 urls.length := by
  rw [numbered, List.map_fst_zip]
  simp

/-- The parts counted from zero. -/
lemma map_numbered {α : Type} (f : Nat → α) (urls : List String) :
    (numbered urls).map (fun part => f (part.1 - 1)) = (List.range urls.length).map f := by
  have first : (numbered urls).map (fun part => f (part.1 - 1)) =
      ((numbered urls).map (·.1)).map fun n => f (n - 1) := by
    rw [List.map_map]
    rfl
  rw [first, map_fst_numbered, List.range'_eq_map_range, List.map_map]
  exact List.map_congr_left fun k _ => by simp

lemma nodup_numbered (urls : List String) : ((numbered urls).map (·.1)).Nodup := by
  rw [map_fst_numbered]
  exact List.nodup_range'

lemma mem_numbered {urls : List String} {n : Nat} {url : String} :
    (n, url) ∈ numbered urls ↔ 1 ≤ n ∧ urls[n - 1]? = some url := by
  rw [numbered, List.mem_iff_getElem?]
  simp only [List.getElem?_zip_eq_some]
  constructor
  · rintro ⟨i, hi, hu⟩
    obtain ⟨-, rfl⟩ := List.getElem?_eq_some_iff.1 hi
    simpa [List.getElem_range'] using hu
  · rintro ⟨hn, hu⟩
    have bound : n - 1 < urls.length := (List.getElem?_eq_some_iff.1 hu).1
    refine ⟨n - 1, ?_, hu⟩
    rw [List.getElem?_range' bound]
    simp only [Option.some.injEq]
    omega

lemma numbered_append (urls others : List String) :
    numbered (urls ++ others) =
      numbered urls ++ (List.range' (urls.length + 1) others.length).zip others := by
  rw [numbered, numbered, List.length_append, ← List.range'_append_1, List.zip_append (by simp),
    Nat.add_comm 1]

lemma numbered_append_singleton (urls : List String) (url : String) :
    numbered (urls ++ [url]) = numbered urls ++ [(urls.length + 1, url)] := by
  rw [numbered_append]
  rfl

lemma numbered_take_sublist (urls : List String) (k : Nat) :
    (numbered (urls.take k)).Sublist (numbered urls) := by
  conv_rhs => rw [← List.take_append_drop k urls, numbered_append]
  exact List.sublist_append_left _ _

def Held.address (h : Held) : Nat × String := (h.number, h.url)

def Settled.address (a : Settled) : Nat × String := (a.number, a.url)

/-- Answers for all parts of a plan have different numbers. -/
lemma nodup_of_address {urls : List String} {settled : List Settled}
    (h : (settled.map Settled.address).Perm (numbered urls)) : (settled.map (·.number)).Nodup := by
  have numbers := (h.map (·.1)).symm.nodup (nodup_numbered urls)
  rwa [List.map_map] at numbers

/-! ### The balance of parts -/

/-- How many parts have been read. -/
def State.count (s : State) : Nat :=
  s.total - s.pending.length

/-- The parts that have been read and not been given up, by number and address. -/
def State.parts (s : State) : List (Nat × String) :=
  s.held.map Held.address ++ s.settled.map Settled.address

/-- Each part that has been read is either held or answered for. -/
structure Balanced (urls : List String) (s : State) : Prop where
  total   : s.total = urls.length
  pending : s.pending = urls.drop s.count
  parts   : s.parts.Perm (numbered (urls.take s.count))

namespace Balanced

variable {urls : List String} {s : State}

lemma start (slots : Nat) (reader : PartReader) (urls : List String) :
    Balanced urls (.start slots reader urls) := by
  refine ⟨rfl, ?_, ?_⟩ <;> simp [State.start, State.count, State.parts, numbered]

lemma nodup_numbers (h : Balanced urls s) :
    (s.held.map (·.number) ++ s.settled.map (·.number)).Nodup := by
  have nodup := (h.parts.map (·.1)).symm.nodup (nodup_numbered _)
  simpa [State.parts, Held.address, Settled.address, Function.comp_def] using nodup

lemma held_mem_numbered (h : Balanced urls s) {k : Held} (hk : k ∈ s.held) :
    (k.number, k.url) ∈ numbered urls := by
  refine (numbered_take_sublist urls s.count).subset (h.parts.subset ?_)
  exact List.mem_append_left _ (List.mem_map_of_mem (f := Held.address) hk)

lemma settled_mem_numbered (h : Balanced urls s) {a : Settled} (ha : a ∈ s.settled) :
    (a.number, a.url) ∈ numbered urls := by
  refine (numbered_take_sublist urls s.count).subset (h.parts.subset ?_)
  exact List.mem_append_right _ (List.mem_map_of_mem (f := Settled.address) ha)

/-- If no part is pending or held, each has been answered for. -/
lemma settled_all (h : Balanced urls s) (pending : s.pending = []) (held : s.held = []) :
    (s.settled.map Settled.address).Perm (numbered urls) := by
  have all : s.count = urls.length := by
    have total := h.total
    simp only [State.count, pending, List.length_nil]
    omega
  have parts := h.parts
  rwa [all, List.take_length, State.parts, held, List.map_nil, List.nil_append] at parts

lemma nodup_held (h : Balanced urls s) : (s.held.map (·.number)).Nodup :=
  (List.nodup_append.1 h.nodup_numbers).1

/-- The next part to be read goes to the next address. -/
lemma take_succ (h : Balanced urls s) {url : String} {rest : List String}
    (hp : s.pending = url :: rest) :
    s.count < urls.length ∧ urls.take (s.count + 1) = urls.take s.count ++ [url] ∧
      rest = urls.drop (s.count + 1) := by
  have hd : urls.drop s.count = url :: rest := h.pending.symm.trans hp
  have bound : s.count < urls.length := by
    by_contra hge
    rw [List.drop_eq_nil_of_le (by omega)] at hd
    exact List.cons_ne_nil _ _ hd.symm
  obtain ⟨hurl, hrest⟩ : urls[s.count] = url ∧ urls.drop (s.count + 1) = rest := by
    rw [List.drop_eq_getElem_cons bound] at hd
    exact List.cons.inj hd
  exact ⟨bound, by rw [List.take_succ_eq_append_getElem bound, hurl], hrest.symm⟩

lemma take (h : Balanced urls s) (reader : PartReader) {url : String} {rest : List String}
    (part : Option Part) (hp : s.pending = url :: rest) :
    (s.take reader url rest part).count = s.count + 1 ∧
      Balanced urls (s.take reader url rest part) := by
  obtain ⟨bound, htake, hrest⟩ := h.take_succ hp
  have count : (s.take reader url rest part).count = s.count + 1 := by
    have total := h.total
    change s.total - rest.length = s.count + 1
    rw [hrest, List.length_drop]
    omega
  refine ⟨count, h.total, by rw [count]; exact hrest, ?_⟩
  rw [count, htake, numbered_append_singleton]
  have next : s.nextNumber = (urls.take s.count).length + 1 := by
    rw [List.length_take_of_le (Nat.le_of_lt bound)]
    rfl
  have swap : (s.take reader url rest part).parts.Perm (s.parts ++ [(s.nextNumber, url)]) := by
    simp only [State.parts, State.take, List.map_append, List.map_cons, List.map_nil, Held.address,
      List.append_assoc]
    exact List.perm_append_comm.append_left _
  exact swap.trans (next ▸ h.parts.append_right _)

end Balanced

/-- An entry of a list with different keys and the entries with another key. -/
lemma perm_cons_filter {α : Type} {f : α → Nat} {l : List α} {a : α} (hl : (l.map f).Nodup)
    (ha : a ∈ l) : l.Perm (a :: l.filter fun b => f b ≠ f a) := by
  induction l with
  | nil => simp at ha
  | cons b l ih =>
    obtain ⟨hb, hl⟩ := List.nodup_cons.1 hl
    rcases List.mem_cons.1 ha with rfl | ha
    · have others : l.filter (fun b => f b ≠ f a) = l := by
        rw [List.filter_eq_self]
        intro c hc
        simpa using fun hca : f c = f a => hb (List.mem_map.2 ⟨c, hc, hca⟩)
      rw [List.filter_cons_of_neg (by simp), others]
    · have apart : f b ≠ f a := fun hba => hb (List.mem_map.2 ⟨a, ha, hba.symm⟩)
      rw [List.filter_cons_of_pos (by simpa using apart)]
      exact ((ih hl ha).cons b).trans (.swap a b _)

namespace Balanced

variable {urls : List String} {s : State}

lemma settle (h : Balanced urls s) {k : Held} (hk : k ∈ s.held)
    (outcome : Except TransferError String) : Balanced urls (s.settle k.number k.url outcome) := by
  refine ⟨h.total, h.pending, .trans ?_ h.parts⟩
  have perm := ((perm_cons_filter h.nodup_held hk).map Held.address).append_right
    (s.settled.map Settled.address)
  simp only [State.parts, State.settle, List.map_append, List.map_cons, List.map_nil]
  refine .trans ?_ perm.symm
  rw [List.map_cons, List.cons_append, ← List.append_assoc]
  exact List.perm_append_comm

lemma begin (h : Balanced urls s) (n : Nat) :
    Balanced urls { s with held := s.held.map (Held.begin n) } := by
  refine ⟨h.total, h.pending, ?_⟩
  have same : Held.address ∘ Held.begin n = Held.address := by
    funext k
    simp only [Function.comp_apply, Held.begin]
    split <;> rfl
  have parts : State.parts { s with held := s.held.map (Held.begin n) } = s.parts := by
    simp only [State.parts, List.map_map, same]
  rw [parts]
  exact h.parts

end Balanced

/-! ### What a log tells -/

/-- The parts that are on their way. -/
def State.flying (s : State) : List Held :=
  s.held.filter (·.begun)

/-- A part that goes on its way is the only one that is new on its way. -/
lemma perm_flying_begin {l : List Held} (hl : (l.map (·.number)).Nodup) (n : Nat) :
    (((l.map (Held.begin n)).filter (·.begun)).map Held.address).Perm
      (((l.find? fun h => h.number = n && !h.begun).toList ++ l.filter (·.begun)).map
        Held.address) := by
  induction l with
  | nil => simp
  | cons h l ih =>
    obtain ⟨hh, hl⟩ := List.nodup_cons.1 hl
    by_cases hn : h.number = n
    · -- no other part has the number
      subst hn
      have others : l.map (Held.begin h.number) = l := by
        refine .trans (List.map_congr_left fun k hk => ?_) (List.map_id l)
        exact if_neg fun hkn => hh (List.mem_map.2 ⟨k, hk, hkn⟩)
      have none' : (l.find? fun k => k.number = h.number && !k.begun) = none := by
        rw [List.find?_eq_none]
        intro k hk hkn
        simp only [Bool.and_eq_true, decide_eq_true_eq] at hkn
        exact hh (List.mem_map.2 ⟨k, hk, hkn.1⟩)
      rw [List.map_cons, others]
      cases hb : h.begun with
      | true => simp [Held.begin, hb, none', Held.address]
      | false => simp [Held.begin, hb, Held.address]
    · have same : Held.begin n h = h := by simp [Held.begin, hn]
      rw [List.map_cons, same, List.find?_cons_of_neg (by simp [hn])]
      cases hb : h.begun with
      | false => simpa [hb] using ih hl
      | true =>
        simp only [hb, List.filter_cons_of_pos, List.map_cons, List.map_append]
        apply ((ih hl).cons _).trans
        rw [List.map_append]
        exact List.perm_middle.symm

namespace Amounts

variable {file : String} {s : State} {c : Choice} {notes : Log} {m : Move}

lemma puts (h : Amounts file c notes m) (e : Option Event) :
    Log.puts (.chosen s c :: (notes ++ told e)) = (s.put? c).toList := by
  cases h <;> cases e <;> cases hp : s.put? _ <;> simp [Log.puts, Note.put?, told, hp]

lemma answers (h : Amounts file c notes m) (e : Option Event) :
    Log.answers (.chosen s c :: (notes ++ told e)) = (s.answer? c).toList := by
  cases h <;> cases e <;> cases hp : s.answer? _ <;> simp [Log.answers, Note.answer?, told, hp]

/-- An answer that comes is the last one. -/
lemma settled_step {t : State} {e : Option Event} (h : Amounts file c notes m)
    (step : s.Step m t e) : s.settled ++ (s.answer? c).toList = t.settled := by
  cases step with
  | answered outcome mem number begun answer =>
    cases h
    rw [answer]
    rfl
  | unexpected _ _ answer =>
    cases h
    rw [answer, Option.toList_none, List.append_nil]
  | _ =>
    cases h
    simp [State.answer?, State.take, State.stop]

end Amounts

namespace Balanced

variable {urls : List String} {s t : State} {m : Move} {e : Option Event}

lemma step (h : Balanced urls s) (step : s.Step m t e) (ht : t.result = none) :
    Balanced urls t := by
  cases step with
  | waiting _ _ => exact h
  | taken pending _ _ => exact (h.take _ _ pending).2
  | begun n => exact h.begin n
  | unexpected _ _ _ => exact h
  | answered outcome mem number _ _ =>
    subst number
    exact h.settle mem outcome
  | cancelled _ => simp [State.stop] at ht
  | finished _ _ _ => simp at ht
  | unread _ _ => simp [State.stop] at ht

/-- A part whose answer comes is not on its way any more. -/
lemma flying_settle (h : Balanced urls s) {k : Held} (mem : k ∈ s.held) (begun : k.begun = true)
    (outcome : Except TransferError String) :
    (s.flying.map Held.address ++ s.settled.map Settled.address).Perm
      ((s.settle k.number k.url outcome).flying.map Held.address ++
        (s.settle k.number k.url outcome).settled.map Settled.address) := by
  have flies : k ∈ s.flying := List.mem_filter.2 ⟨mem, begun⟩
  have nodup : (s.flying.map (·.number)).Nodup :=
    h.nodup_held.sublist (List.filter_sublist.map _)
  have perm := ((perm_cons_filter nodup flies).map Held.address).append_right
    (s.settled.map Settled.address)
  have others : (s.settle k.number k.url outcome).flying =
      s.flying.filter fun h => h.number ≠ k.number := by
    rw [State.flying, State.flying, List.filter_filter, State.settle, List.filter_filter]
    exact List.filter_congr fun _ _ => Bool.and_comm _ _
  apply perm.trans
  rw [others, State.settle, List.map_append, List.map_cons, List.cons_append, ← List.append_assoc]
  exact (List.perm_append_singleton _ _).symm

/-- A part that goes on its way stays there until its answer comes. -/
lemma flying_step {file : String} {c : Choice} {notes : Log} (h : Balanced urls s)
    (amounts : Amounts file c notes m) (step : s.Step m t e) (ht : t.result = none) :
    (s.flying.map Held.address ++ s.settled.map Settled.address ++
      (s.put? c).toList.map Held.address).Perm
        (t.flying.map Held.address ++ t.settled.map Settled.address) := by
  cases step with
  | begun n =>
    cases amounts
    have flying := (perm_flying_begin h.nodup_held n).symm
    rw [List.map_append] at flying
    refine .trans ?_ (flying.append_right _)
    rw [List.append_assoc (_ : List (Nat × String)) _ (s.settled.map _)]
    exact List.perm_append_comm
  | answered outcome mem number begun _ =>
    cases amounts
    subst number
    simpa [State.put?] using h.flying_settle mem begun outcome
  | waiting _ _ =>
    cases amounts
    simp [State.put?]
  | taken _ _ _ =>
    cases amounts
    simp [State.put?, State.take, State.flying]
  | unexpected _ _ _ =>
    cases amounts
    simp [State.put?]
  | cancelled _ => simp [State.stop] at ht
  | finished _ _ _ => simp at ht
  | unread _ _ => simp [State.stop] at ht

end Balanced

/-- What a log of a sending tells of its state. -/
structure Told (urls : List String) (log : Log) (s : State) : Prop extends Balanced urls s where
  answers : Log.answers log = s.settled
  puts    : ((Log.puts log).map Held.address).Perm
    (s.flying.map Held.address ++ s.settled.map Settled.address)

namespace Told

variable {urls : List String} {s : State} {log : Log}

lemma start (slots : Nat) (reader : PartReader) (urls : List String) :
    Told urls [] (.start slots reader urls) :=
  ⟨.start slots reader urls, rfl, .refl _⟩

/-- No move takes a part without going on with it. -/
lemma kept (file : String) (urls : List String) : Kept file (Told urls) := by
  intro log notes s t c m e told _ amounts step ht
  refine ⟨told.toBalanced.step step ht, ?_, ?_⟩
  · rw [Log.answers_append, amounts.answers, told.answers]
    exact amounts.settled_step step
  · rw [Log.puts_append, amounts.puts, List.map_append]
    exact (told.puts.append_right _).trans (told.toBalanced.flying_step amounts step ht)

/-- No part goes on its way twice. -/
lemma subperm_puts (h : Told urls log s) :
    ((Log.puts log).map Held.address).Subperm (numbered urls) := by
  have parts : (s.flying.map Held.address ++ s.settled.map Settled.address).Subperm s.parts :=
    ((List.filter_sublist.map _).append (.refl _)).subperm
  exact (h.puts.subperm.trans parts).trans
    (h.parts.subperm.trans (numbered_take_sublist urls s.count).subperm)

/-- Once all answers have come, each part has gone on its way once. -/
lemma complete (h : Told urls log s) (pending : s.pending = []) (held : s.held = []) :
    ((Log.answers log).map Settled.address).Perm (numbered urls) ∧
      ((Log.puts log).map Held.address).Perm (numbered urls) := by
  have parts := h.settled_all pending held
  have puts := h.puts
  rw [State.flying, held, List.filter_nil, List.map_nil, List.nil_append] at puts
  exact ⟨h.answers ▸ parts, puts.trans parts⟩

end Told

end Sending

end StagedTransfer
