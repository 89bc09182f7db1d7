import Mathlib.Data.List.GetD
import StagedTransfer.Proofs.Session.Storing

/-!
# Sendings to an object store

Whatever comes next while parts are sent to a store, each part that is on its way is kept at its
place, and its answer is the tag under which it is kept. The sending ends with all of these tags.
-/

namespace StagedTransfer

open Http

/-! ### Places -/

/-- A part stands at its place under a tag. -/
def Depot.Stores (places : List Url) (contents : Bytes) (partSize : Nat) (d : Depot) (n : Nat)
    (tag : String) : Prop :=
  ∃ url, places[n - 1]? = some url ∧ d.kept url = some (slice contents partSize (n - 1), tag)

section

variable {urls : List String} {places : List Url}

lemma Sending.place_of_numbered (addresses : urls.map Url.parse? = places.map some) {n : Nat}
    {url : String} (h : (n, url) ∈ numbered urls) :
    1 ≤ n ∧ ∃ place, Url.parse? url = some place ∧ places[n - 1]? = some place := by
  obtain ⟨hn, hu⟩ := mem_numbered.1 h
  have same := congrArg (·[n - 1]?) addresses
  simp only [List.getElem?_map, hu, Option.map_some] at same
  cases hp : places[n - 1]? with
  | none => simp [hp] at same
  | some place =>
    rw [hp, Option.map_some] at same
    exact ⟨hn, place, Option.some.inj same, rfl⟩

namespace Depot.Stores

variable {contents : Bytes} {partSize : Nat} {d : Depot}

lemma keep_self {n : Nat} {place : Url} (hn : places[n - 1]? = some place) (tag : String) :
    (d.keep place (slice contents partSize (n - 1)) tag).Stores places contents partSize n tag :=
  ⟨place, hn, if_pos rfl⟩

/-- A part stays where it is while another one comes to its own place. -/
lemma keep_of_ne (distinct : places.Nodup) {m n : Nat} {tag tag' : String} {place : Url}
    {body : Bytes} (h : d.Stores places contents partSize m tag) (hn : places[n - 1]? = some place)
    (apart : m - 1 ≠ n - 1) : (d.keep place body tag').Stores places contents partSize m tag := by
  obtain ⟨url, hm, kept⟩ := h
  refine ⟨url, hm, ?_⟩
  have elsewhere : url ≠ place := by
    rintro rfl
    obtain ⟨hlm, hm⟩ := List.getElem?_eq_some_iff.1 hm
    obtain ⟨hln, hn⟩ := List.getElem?_eq_some_iff.1 hn
    exact apart ((distinct.getElem_inj_iff).1 (hm.trans hn.symm))
  rw [keep]
  exact (if_neg elsewhere).trans kept

end Depot.Stores

end

/-! ### What a sending keeps -/

namespace Sending

variable {σ : Type} (depot : σ → Depot) (places : List Url) (contents : Bytes) (partSize : Nat)
  (urls : List String) (disk : Disk) (rounds : Nat)

/-- The parts that are on their way or answered for are at their places. -/
structure Storing (s : State) (v : Session) (x : Site σ) : Prop extends Balanced urls s where
  slots   : 0 < s.slots
  reader  : s.reader = .after partSize contents.length s.count
  disk    : x.disk = disk
  rounds  : (depot x.far).rounds = rounds
  data    : ∀ h ∈ s.held, h.data = slice contents partSize (h.number - 1)
  flying  : ∀ h ∈ s.held, h.begun = true → ∃ tag, v.flights.lookup h.number = some (.ok tag) ∧
    (depot x.far).Stores places contents partSize h.number tag
  settled : ∀ a ∈ s.settled, ∃ tag, a.outcome = .ok tag ∧
    (depot x.far).Stores places contents partSize a.number tag

variable {depot places contents partSize urls disk rounds} {s : State} {v : Session} {x y : Site σ}

namespace Storing

lemma start {slots : Nat} (hs : 0 < slots) (v : Session) (hd : x.disk = disk)
    (hr : (depot x.far).rounds = rounds) :
    Storing depot places contents partSize urls disk rounds
      (.start slots (.after partSize contents.length 0) urls) v x := by
  refine ⟨.start slots _ urls, hs, ?_, hd, hr, by simp [State.start], by simp [State.start],
    by simp [State.start]⟩
  simp [State.start, State.count]

variable (h : Storing depot places contents partSize urls disk rounds s v x)

include h

lemma alike (same : x.Alike depot y) :
    Storing depot places contents partSize urls disk rounds s v y where
  toBalanced := h.toBalanced
  slots := h.slots
  reader := h.reader
  disk := same.disk.trans h.disk
  rounds := same.depot ▸ h.rounds
  data := h.data
  flying := same.depot ▸ h.flying
  settled := same.depot ▸ h.settled

/-- A part that is read holds the bytes at its place. -/
lemma taken (hp : 0 < partSize) (count : urls.length = partCount contents.length partSize)
    {reader : PartReader} {part : Option Part} {url : String} {rest : List String}
    (pending : s.pending = url :: rest)
    (read : s.reader.next (.ok contents) = (.ok part, reader)) :
    Storing depot places contents partSize urls disk rounds (s.take reader url rest part) v x := by
  obtain ⟨count', balanced⟩ := h.toBalanced.take reader part pending
  have within : s.count * partSize < contents.length := by
    rw [← lt_partCount_iff hp, ← count]
    exact (h.toBalanced.take_succ pending).1
  rw [h.reader] at read
  obtain ⟨rfl, _, ⟨rfl⟩, -, rfl⟩ := PartReader.of_next_after within read
  refine ⟨balanced, h.slots, by rw [count']; rfl, h.disk, h.rounds, fun k hk => ?_,
    fun k hk hb => ?_, h.settled⟩
  · rcases List.mem_append.1 hk with hk | hk
    · exact h.data k hk
    · obtain rfl := List.mem_singleton.1 hk
      exact take_sliceLength contents partSize s.count
  · rcases List.mem_append.1 hk with hk | hk
    · exact h.flying k hk hb
    · obtain rfl := List.mem_singleton.1 hk
      cases hb

/-- A part that goes on its way comes to its place. -/
lemma begun (distinct : places.Nodup) (addresses : urls.map Url.parse? = places.map some) {k : Held}
    (hk : k ∈ s.held) {place : Url} (hplace : Url.parse? k.url = some place) {tag : String}
    (hd : y.disk = x.disk) (kept : depot y.far = (depot x.far).keep place k.data tag) :
    Storing depot places contents partSize urls disk rounds
      { s with held := s.held.map (Held.begin k.number) }
      { v with flights := (k.number, .ok tag) :: v.flights } y := by
  obtain ⟨hn, place', hplace', hat⟩ := place_of_numbered addresses (h.held_mem_numbered hk)
  obtain rfl : place' = place := Option.some.inj (hplace'.symm.trans hplace)
  rw [h.data k hk] at kept
  have others {n : Nat} (hn' : 1 ≤ n) (apart : n ≠ k.number) {tag' : String}
      (stores : (depot x.far).Stores places contents partSize n tag') :
      (depot y.far).Stores places contents partSize n tag' := by
    rw [kept]
    exact stores.keep_of_ne distinct hat (by omega)
  refine ⟨h.toBalanced.begin k.number, h.slots, h.reader, hd.trans h.disk, ?_, ?_, ?_, ?_⟩
  · rw [kept]
    exact h.rounds
  · intro j hj
    obtain ⟨i, hi, rfl⟩ := List.mem_map.1 hj
    have data := h.data i hi
    unfold Held.begin
    split <;> exact data
  · intro j hj hb
    obtain ⟨i, hi, rfl⟩ := List.mem_map.1 hj
    by_cases same : i.number = k.number
    · refine ⟨tag, ?_, ?_⟩
      · rw [Held.begin, if_pos same]
        simp [same]
      · rw [Held.begin, if_pos same, same, kept]
        exact .keep_self hat tag
    · rw [Held.begin, if_neg same] at hb ⊢
      obtain ⟨tag', found, stores⟩ := h.flying i hi hb
      refine ⟨tag', ?_, others (Sending.mem_numbered.1 (h.held_mem_numbered hi)).1 same stores⟩
      rw [List.lookup_cons, beq_false_of_ne same]
      exact found
  · intro a ha
    obtain ⟨tag', outcome, stores⟩ := h.settled a ha
    refine ⟨tag', outcome, others (Sending.mem_numbered.1 (h.settled_mem_numbered ha)).1 ?_ stores⟩
    -- no part is held and answered for
    intro same
    exact (List.nodup_append.1 h.nodup_numbers).2.2 _ (List.mem_map_of_mem hk) _
      (List.mem_map_of_mem ha) same.symm

/-- The answer for a part is the tag under which it is kept. -/
lemma answered {k : Held} (hk : k ∈ s.held) (hb : k.begun = true)
    {outcome : Except TransferError String}
    (found : v.flights.lookup k.number = some outcome) :
    Storing depot places contents partSize urls disk rounds (s.settle k.number k.url outcome) v
      x := by
  obtain ⟨tag, found', stores⟩ := h.flying k hk hb
  obtain rfl : outcome = .ok tag := Option.some.inj (found.symm.trans found')
  refine ⟨h.toBalanced.settle hk _, h.slots, h.reader, h.disk, h.rounds,
    fun j hj => h.data j (List.mem_of_mem_filter hj),
    fun j hj => h.flying j (List.mem_of_mem_filter hj), fun a ha => ?_⟩
  rcases List.mem_append.1 ha with ha | ha
  · exact h.settled a ha
  · obtain rfl := List.mem_singleton.1 ha
    exact ⟨tag, rfl, stores⟩

end Storing

/-! ### How a sending ends -/

/-- All parts are at their places, and the tags yielded are those under which they are kept. -/
def Stored (depot : σ → Depot) (places : List Url) (contents : Bytes) (partSize : Nat)
    (urls : List String) (disk : Disk) (rounds : Nat) (etags : OrderedMap Nat String)
    (x : Site σ) : Prop :=
  x.disk = disk ∧ (depot x.far).rounds = rounds ∧ ∃ tag : Nat → String,
    Manifest.ofEtags etags urls.length =
        .ok ⟨(List.range' 1 urls.length).map fun n => (n, tag n)⟩ ∧
      ∀ n ∈ List.range' 1 urls.length, (depot x.far).Stores places contents partSize n (tag n)

/-- A sending that has come to its end has stored all parts. -/
lemma Storing.finished (h : Storing depot places contents partSize urls disk rounds s v x)
    (pending : s.pending = []) (held : s.held = []) :
    ∃ etags, resultOf s.settled = .ok etags ∧
      Stored depot places contents partSize urls disk rounds etags x := by
  have parts := h.settled_all pending held
  have arrived : ∀ a ∈ s.settled, ∃ tag, a.outcome = .ok tag := fun a ha => by
    obtain ⟨tag, outcome, -⟩ := h.settled a ha
    exact ⟨tag, outcome⟩
  obtain ⟨tag, answers⟩ := exists_tags parts arrived
  refine ⟨_, (resultOf_eq_ok_iff (nodup_of_address parts)).2 ⟨arrived, rfl⟩, h.disk, h.rounds, tag,
    ofEtags_tags answers, fun n hn => ?_⟩
  obtain ⟨url, hu⟩ : ∃ url, (n, url) ∈ numbered urls := by
    rw [← map_fst_numbered] at hn
    obtain ⟨⟨_, url⟩, mem, rfl⟩ := List.mem_map.1 hn
    exact ⟨url, mem⟩
  obtain ⟨tag', outcome, stores⟩ := h.settled ⟨n, url, .ok (tag n)⟩
    (answers.mem_iff.2 (List.mem_map.2 ⟨_, hu, rfl⟩))
  obtain rfl := Except.ok.inj outcome
  exact stores

/-! ### Turns -/

/-- There is always something that may come next. -/
lemma turns_ne_nil {s : State} (hs : 0 < s.slots) : Client.turns s false ≠ [] := by
  intro none'
  obtain ⟨idle, stuck⟩ := List.append_eq_nil_iff.1 none'
  have held : s.held = [] := List.map_eq_nil_iff.1 idle
  have can : s.canProceed = true := by
    rw [State.canProceed, held]
    split
    · rfl
    · simpa using hs
  simp [can] at stuck

section

variable (h : Storing depot places contents partSize urls disk rounds s v x)
  (open' : s.result = none)

include h open'

/-- The turn of the reader takes the next part or ends the sending. -/
lemma Storing.step_proceed (hp : 0 < partSize)
    (count : urls.length = partCount contents.length partSize) (can : s.canProceed = true) :
    (s.step (.proceed false (.ok contents))).1.result = none ∧
        (s.step (.proceed false (.ok contents))).1.weight < s.weight ∧
        Storing depot places contents partSize urls disk rounds
          (s.step (.proceed false (.ok contents))).1 v x ∨
      ∃ etags, (s.step (.proceed false (.ok contents))).1.result = some (.ok etags) ∧
        Stored depot places contents partSize urls disk rounds etags x := by
  have step := State.step_of_open open' (.proceed false (.ok contents))
  have amounts : Amounts "" .proceed _ (.proceed false (.ok contents)) := .proceed _ _
  have lighter := weight_lt amounts (s := s) can step
  generalize (s.step (.proceed false (.ok contents))).1 = t at step lighter ⊢
  generalize (s.step (.proceed false (.ok contents))).2 = e at step lighter
  cases step with
  | waiting _ wait => simp [wait] at can
  | finished _ pending held =>
    obtain ⟨etags, result, stored⟩ := h.finished pending held
    exact .inr ⟨etags, congrArg some result, stored⟩
  | unread _ read =>
    rw [h.reader] at read
    exact absurd read (PartReader.next_after_ne_error (Nat.le_refl _))
  | taken pending _ read => exact .inl ⟨open', lighter open', h.taken hp count pending read⟩

/-- A part that goes on its way brings the sending closer to its end. -/
lemma Storing.step_begin (distinct : places.Nodup)
    (addresses : urls.map Url.parse? = places.map some) {k : Held} (hk : k ∈ s.held)
    (idle : k.begun = false) {place : Url} (hplace : Url.parse? k.url = some place) {tag : String}
    (hd : y.disk = x.disk) (kept : depot y.far = (depot x.far).keep place k.data tag) :
    (s.step (.begin k.number)).1.result = none ∧
      (s.step (.begin k.number)).1.weight < s.weight ∧
      Storing depot places contents partSize urls disk rounds (s.step (.begin k.number)).1
        { v with flights := (k.number, .ok tag) :: v.flights } y := by
  have step := State.step_of_open open' (.begin k.number)
  have amounts : Amounts "" (.begin k.number) [] (.begin k.number) := .begin k.number
  have allows : s.Allows (.begin k.number) := by
    rw [State.Allows, State.put?, List.find?_isSome]
    exact ⟨k, hk, by simp [idle]⟩
  exact ⟨open', weight_lt amounts allows step open',
    h.begun distinct addresses hk hplace hd kept⟩

/-- The answer for a part brings the sending closer to its end. -/
lemma Storing.step_finish {k : Held} (hk : k ∈ s.held) (hb : k.begun = true)
    {outcome : Except TransferError String} (found : v.flights.lookup k.number = some outcome) :
    (s.step (.finish k.number outcome)).1.result = none ∧
      (s.step (.finish k.number outcome)).1.weight < s.weight ∧
      Storing depot places contents partSize urls disk rounds
        (s.step (.finish k.number outcome)).1 v x := by
  have step := State.step_of_open open' (.finish k.number outcome)
  have amounts : Amounts "" (.finish k.number outcome) [] (.finish k.number outcome) :=
    .finish k.number outcome
  have allows : s.Allows (.finish k.number outcome) := by
    rw [State.Allows, State.answer?, Option.isSome_map, List.find?_isSome]
    exact ⟨k, hk, by simp [hb]⟩
  have lighter := weight_lt amounts allows step
  generalize (s.step (.finish k.number outcome)).1 = t at step lighter ⊢
  generalize (s.step (.finish k.number outcome)).2 = e at step lighter
  generalize hn : k.number = n at step allows found
  cases step with
  | unexpected _ _ none' => simp [State.Allows, none'] at allows
  | answered _ mem number begun _ =>
    subst number
    exact ⟨open', lighter open', h.answered mem begun found⟩

end

/-- What a session has chosen in a state, and the states in which it is then. -/
inductive Chosen (depot : σ → Depot) (s : State) (v : Session) (x : Site σ) :
    Choice → Session → Site σ → Prop
  | proceed {y : Site σ} (can : s.canProceed = true) (same : x.Alike depot y) :
    Chosen depot s v x .proceed v y
  | begin {y : Site σ} {h : Held} {place : Url} {tag : String} (mem : h ∈ s.held)
    (idle : h.begun = false) (hplace : Url.parse? h.url = some place) (disk : y.disk = x.disk)
    (kept : depot y.far = (depot x.far).keep place h.data tag) :
    Chosen depot s v x (.begin h.number)
      { v with flights := (h.number, .ok tag) :: v.flights } y
  | finish {y : Site σ} {h : Held} {outcome : Except TransferError String} (mem : h ∈ s.held)
    (begun : h.begun = true) (found : v.flights.lookup h.number = some outcome)
    (same : x.Alike depot y) : Chosen depot s v x (.finish h.number outcome) v y

lemma Chosen.of_alike {c : Choice} {w : Session} {z : Site σ} (same : x.Alike depot y)
    (h : Chosen depot s v y c w z) : Chosen depot s v x c w z := by
  cases h with
  | proceed can same' => exact .proceed can (same.trans same')
  | begin mem idle hplace disk kept =>
    exact .begin mem idle hplace (disk.trans same.disk) (same.depot ▸ kept)
  | finish mem begun found same' => exact .finish mem begun found (same.trans same')

section

variable {f : FarSide σ} {completion download : Url}
  (serves : f.Serves depot places completion download) (g : Gateway)
  (source : StateM (Site σ) (Reply TokenError AccessToken))
  (gateway : (w : Await) → Visit (StateM (Site σ)) (Reply TransferError w.Answer))

include serves

/-- What the reader asks for before its turn. -/
lemma comes_moveOf_proceed (content : x.disk.content file = .ok contents) :
    (((f.client g source).behind gateway).moveOf file .proceed).Comes v x fun m w y =>
      m = .proceed false (.ok contents) ∧ w = v ∧ x.Alike depot y := by
  apply (serves.comes_cancelled g source v x gateway).bind
  rintro _ w y ⟨rfl, rfl, same⟩
  refine Visit.Comes.bind (P := fun a u z => a = .ok contents ∧ u = w ∧ z = y) ⟨?_, rfl, rfl⟩ ?_
  · change y.disk.content file = _
    rw [same.disk, content]
  · rintro _ _ _ ⟨rfl, rfl, rfl⟩
    exact ⟨rfl, rfl, same⟩

lemma comes_step (s : State) (m : Move) (v : Session) (x : Site σ) :
    (do
      ((f.client g source).behind gateway).tell (s.step m).2
      return (s.step m).1).Comes v x fun t w y => t = (s.step m).1 ∧ w = v ∧ x.Alike depot y := by
  apply (serves.comes_tell g source v x gateway (s.step m).2).bind
  rintro _ w y ⟨rfl, same⟩
  exact ⟨rfl, rfl, same⟩

variable (addresses : urls.map Url.parse? = places.map some)

include addresses

/-- A turn is taken. -/
lemma Storing.comes_take (h : Storing depot places contents partSize urls disk rounds s v x)
    {turn : Client.Turn} (mem : turn ∈ Client.turns s false) :
    ((f.client g source).take turn).Comes v x fun c w y => Chosen depot s v x c w y := by
  rcases List.mem_append.1 mem with mem | mem
  · obtain ⟨k, hk, rfl⟩ := List.mem_map.1 mem
    cases hb : k.begun with
    | false =>
      obtain ⟨-, place, hplace, hat⟩ := place_of_numbered addresses (h.held_mem_numbered hk)
      apply (serves.comes_sendPart g source v x hplace (List.mem_of_getElem? hat) k.data).bind
      rintro _ w y ⟨rfl, hd, tag, rfl, kept⟩
      exact .begin hk hb hplace hd kept
    | true =>
      obtain ⟨tag, found, -⟩ := h.flying k hk hb
      refine Visit.Comes.bind (P := fun a w y => a = v ∧ w = v ∧ y = x) ⟨rfl, rfl, rfl⟩ ?_
      rintro _ w y ⟨rfl, rfl, rfl⟩
      rw [found]
      exact .finish hk hb found (.refl y)
  · have can : s.canProceed = true ∧ turn = .proceed := by
      split at mem
      · next can => exact ⟨by simpa using can, List.mem_singleton.1 mem⟩
      · simp at mem
    rw [can.2]
    exact .proceed can.1 (.refl x)

lemma Storing.comes_choose (h : Storing depot places contents partSize urls disk rounds s v x) :
    (((f.client g source).behind gateway).choose s).Comes v x fun c w y =>
      Chosen depot s v x c w y := by
  apply (serves.comes_cancelled g source v x gateway).bind
  rintro _ w y ⟨rfl, rfl, same⟩
  refine Visit.Comes.bind (P := fun _ u z => u = w ∧ y.Alike depot z)
    ⟨rfl, rfl, serves.prefer y.far⟩ ?_
  rintro k _ z ⟨rfl, same'⟩
  have some' := List.length_pos_of_ne_nil (turns_ne_nil h.slots)
  have mem : (Client.turns s false).getD (k % (Client.turns s false).length) .proceed ∈
      Client.turns s false := by
    rw [List.getD_eq_getElem _ _ (Nat.mod_lt k some')]
    exact List.getElem_mem _
  have chosen := (h.alike (same.trans same')).comes_take serves g source addresses mem
  exact chosen.imp fun _ _ _ hc => hc.of_alike (same.trans same')

variable {file : String} (hp : 0 < partSize)
  (count : urls.length = partCount contents.length partSize) (distinct : places.Nodup)
  (content : disk.content file = .ok contents)

include hp count distinct content

/-- A turn of a sending to a store brings it closer to its end or ends it. -/
lemma Storing.comes_turn (h : Storing depot places contents partSize urls disk rounds s v x)
    (open' : s.result = none) :
    (((f.client g source).behind gateway).turn file s).Comes v x fun t w y =>
      (t.result = none ∧ t.weight < s.weight ∧
        Storing depot places contents partSize urls disk rounds t w y) ∨
      ∃ r, t.result = some r ∧ ∃ etags, r = .ok etags ∧
        Stored depot places contents partSize urls disk rounds etags y := by
  apply (h.comes_choose serves g source gateway addresses).bind
  rintro c w y chosen
  cases chosen with
  | proceed can same =>
    apply (comes_moveOf_proceed serves g source gateway (same.disk ▸ h.disk ▸ content)).bind
    rintro _ w z ⟨rfl, rfl, same'⟩
    apply (comes_step serves g source gateway s _ w z).imp
    rintro _ w u ⟨rfl, rfl, same''⟩
    have h := h.alike ((same.trans same').trans same'')
    rcases h.step_proceed open' hp count can with next | ⟨etags, result, stored⟩
    · exact .inl next
    · exact .inr ⟨_, result, etags, rfl, stored⟩
  | begin mem idle hplace hd kept =>
    apply (comes_step serves g source gateway s (.begin _) _ y).imp
    rintro _ w z ⟨rfl, rfl, same⟩
    exact .inl (h.step_begin open' distinct addresses mem idle hplace (same.disk.trans hd)
      (same.depot.trans kept))
  | finish mem begun found same =>
    apply (comes_step serves g source gateway s (.finish _ _) _ y).imp
    rintro _ w z ⟨rfl, rfl, same'⟩
    exact .inl ((h.alike (same.trans same')).step_finish open' mem begun found)

/-- A sending to a store stores all parts. -/
theorem comes_send {slots : Nat} (hs : 0 < slots) (v : Session) (hd : x.disk = disk)
    (hr : (depot x.far).rounds = rounds) :
    (((f.client g source).behind gateway).send
      ⟨file, slots, .after partSize contents.length 0, urls⟩).Comes v x fun r _ y =>
        ∃ etags, r = some (.ok etags) ∧
          Stored depot places contents partSize urls disk rounds etags y := by
  have start : Storing depot places contents partSize urls disk rounds
      (.start slots (.after partSize contents.length 0) urls) v x := .start hs v hd hr
  refine (Environment.comes_sendFrom (fun s v x open' h => h.comes_turn serves g source gateway
    addresses hp count distinct content open') rfl ?_ start).imp ?_
  · simp [State.weight, State.moveBound, State.start]
  · rintro _ w y ⟨_, rfl, etags, rfl, stored⟩
    exact ⟨etags, rfl, stored⟩

end

end Sending

end StagedTransfer
