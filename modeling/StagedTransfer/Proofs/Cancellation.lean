import StagedTransfer.Proofs.Heed
import StagedTransfer.Proofs.Sending.Safety
import StagedTransfer.Proofs.Session.Trail

/-!
# After a cancellation

Once a transfer has been cancelled, no operation sends a request, asks for a token or waits for
anything else, be it in the middle of a call, and the reader of the file stays where it is; what is
left are steps that are done at once and the parts that have been read. The main statement is
`activity_obeys`, for every operation in every session.
-/

namespace StagedTransfer

open Activity Wire

/-! ### Environments that can be cancelled -/

/-- The other sides tell whether the transfer has been cancelled, which stays so, and a pause is given
up then. Sendings among them come to their end. -/
structure Environment.Heeds {σ : Type} (env : Environment (StateM σ)) (fired : σ → Bool) : Prop where
  tells   : ∀ x, fired (env.cancelled x).2 = (env.cancelled x).1
  asked   : ∀ x, fired x = true → fired (env.cancelled x).2 = true
  awaited : ∀ w x, fired x = true → fired (env.await w x).2 = true
  acted   : ∀ a x, fired x = true → fired (env.act a x).2 = true
  chosen  : ∀ s x, fired x = true → fired (env.choose s x).2 = true
  paused  : ∀ d x r, fired (env.await (.pause d) x).2 = true →
    (env.await (.pause d) x).1 = .answered r → r = .error .cancelled
  sends   : ∀ b x, 0 < b.slots → (env.send b x).1.isSome

namespace Environment.Heeds

variable {σ : Type} {env : Environment (StateM σ)} {fired : σ → Bool} (heeds : env.Heeds fired)
  {x y : σ} {log : Log}

include heeds

lemma leads (h : env.Leads x log y) (hx : fired x = true) : fired y = true := by
  induction h with
  | nil => exact hx
  | asked _ ih => exact ih (heeds.asked _ hx)
  | awaited w _ ih => exact ih (heeds.awaited w _ hx)
  | acted a _ ih => exact ih (heeds.acted a _ hx)
  | chosen s _ ih => exact ih (heeds.chosen s _ hx)

end Environment.Heeds

/-- No part is read in a state of a sending that has not been read in another one. -/
structure Sending.State.Rests (s₀ s : Sending.State) : Prop where
  reader  : s.reader = s₀.reader
  pending : s.pending = s₀.pending
  held    : ∀ h ∈ s.held, ∃ h₀ ∈ s₀.held, h.number = h₀.number ∧ h.url = h₀.url ∧ h.data = h₀.data

namespace Sending.State.Rests

variable {s s₀ t : Sending.State}

lemma refl (s : Sending.State) : Rests s s :=
  ⟨rfl, rfl, fun h hh => ⟨h, hh, rfl, rfl, rfl⟩⟩

lemma trans (h : Rests s₀ s) (h' : Rests s t) : Rests s₀ t := by
  refine ⟨h'.reader.trans h.reader, h'.pending.trans h.pending, fun k hk => ?_⟩
  obtain ⟨k', hk', number, url, data⟩ := h'.held k hk
  obtain ⟨k₀, hk₀, number', url', data'⟩ := h.held k' hk'
  exact ⟨k₀, hk₀, number.trans number', url.trans url', data.trans data'⟩

lemma begin (s : Sending.State) (n : Nat) :
    Rests s { s with held := s.held.map (Held.begin n) } := by
  refine ⟨rfl, rfl, fun h hh => ?_⟩
  obtain ⟨h₀, hh₀, rfl⟩ := List.mem_map.1 hh
  refine ⟨h₀, hh₀, ?_⟩
  unfold Held.begin
  split <;> exact ⟨rfl, rfl, rfl⟩

lemma settle (s : Sending.State) (n : Nat) (url : String) (outcome : Except TransferError String) :
    Rests s (s.settle n url outcome) :=
  ⟨rfl, rfl, fun h hh => ⟨h, (List.mem_filter.1 hh).1, rfl, rfl, rfl⟩⟩

end Sending.State.Rests

instance : Inhabited Sending.State :=
  ⟨.start 0 (.after 0 0 0) []⟩

/-- A note that may come after a cancellation: nothing is waited for, whoever asks is told of the
cancellation, and a sending reads no further part than in a state `s₀`. -/
def Note.Obedient (s₀ : Sending.State) : Note → Prop
  | .asked cancelled => cancelled = true
  | .awaited _ _     => False
  | .acted _ _       => True
  | .chosen s _      => s₀.Rests s

/-- A note of what is done at once. -/
def Note.IsActed (note : Note) : Prop :=
  ∃ a x, note = .acted a x

lemma Note.IsActed.obedient {note : Note} (h : note.IsActed) (s₀ : Sending.State) :
    note.Obedient s₀ := by
  obtain ⟨a, x, rfl⟩ := h
  trivial

lemma Note.Obedient.mono {s s₀ : Sending.State} {note : Note} (h : note.Obedient s)
    (rests : s₀.Rests s) : note.Obedient s₀ := by
  cases note with
  | chosen t c => exact rests.trans h
  | _ => exact h

/-! ### Sendings -/

namespace Sending.Course

variable {σ : Type} {env : Environment (StateM σ)} {fired : σ → Bool} (heeds : env.Heeds fired)
  {file : String} {fuel : Nat} {s t : State} {log : Log} {x y z : σ}

lemma rests_of_begin_or_finish {m : Move} {e : Option Event} (open' : s.result = none)
    (step : s.Step m t e) (still : ∀ cancelled content, m ≠ .proceed cancelled content) :
    s.Rests t ∧ t.result = none := by
  cases step with
  | begun n => exact ⟨.begin s n, open'⟩
  | unexpected => exact ⟨.refl s, open'⟩
  | answered => exact ⟨.settle s _ _ _, open'⟩
  | _ => exact absurd rfl (still _ _)

lemma isActed_of_mem_told {e : Option Event} {note : Note} (h : note ∈ told e) :
    note.IsActed := by
  cases e with
  | none => simp [told] at h
  | some e =>
    obtain rfl : note = .acted (.emit e) () := by simpa [told] using h
    exact ⟨_, _, rfl⟩

include heeds

/-- A sending that has been cancelled reads no further part, and is over with the next turn of the
reader. -/
lemma obedient (course : Course file fuel s log t) (leads : env.Leads x log y)
    (hx : fired x = true) (open' : s.result = none) :
    (∀ note ∈ log, note.Obedient s) ∧ (t.result = none ∨ t.result = some (.error .cancelled)) := by
  induction course generalizing x with
  | spent s => exact ⟨by simp, .inl open'⟩
  | ended result => simp [open'] at result
  | @move n s t c notes log m _ amounts rest ih =>
    have chosen : (Note.chosen s c).Obedient s := .refl s
    have step := State.step_of_open open' m
    have hx := heeds.chosen s x hx
    obtain ⟨-, later⟩ := leads.of_chosen
    clear leads
    -- The reader's turn sees the cancellation and ends the course. The other moves read nothing
    -- and leave the sending open.
    cases amounts with
    | proceed cancelled content =>
      obtain ⟨asked, later⟩ := later.of_asked
      obtain rfl : cancelled = true := by rw [← asked, ← heeds.tells, heeds.asked _ hx]
      rw [State.step_proceed_of_open open'] at rest ⊢
      obtain ⟨rfl, rfl⟩ := rest.eq_of_result (r := .error .cancelled) rfl
      refine ⟨?_, .inr rfl⟩
      simpa [told, Note.Obedient] using chosen
    | begin k =>
      obtain ⟨rests, open'⟩ := rests_of_begin_or_finish open' step (by simp)
      obtain ⟨obedient, ends⟩ := ih later hx open'
      refine ⟨fun note mem => ?_, ends⟩
      rcases List.mem_cons.1 mem with rfl | mem
      · exact chosen
      · exact (obedient note mem).mono rests
    | finish k outcome =>
      obtain ⟨rests, open'⟩ := rests_of_begin_or_finish open' step (by simp)
      obtain ⟨w, first, later⟩ := Environment.Leads.of_append later
      obtain ⟨obedient, ends⟩ := ih later (heeds.leads first hx) open'
      refine ⟨fun note mem => ?_, ends⟩
      rcases List.mem_cons.1 mem with rfl | mem
      · exact chosen
      · rcases List.mem_append.1 mem with told' | mem
        · exact (isActed_of_mem_told told').obedient s
        · exact (obedient note mem).mono rests

/-- A sending that is cancelled within a move ends with it or goes on as a cancelled one. -/
lemma obedient_within {n : Nat} {c : Choice} {notes before after : Log} {m : Move}
    (open' : s.result = none) (amounts : Amounts file c notes m)
    (rest : Course file n (s.step m).1 log t) (split : notes ++ told (s.step m).2 = before ++ after)
    (first : env.Leads x before z) (later : env.Leads z (after ++ log) y) (hz : fired z = true) :
    ∃ s₀, (∀ note ∈ after ++ log, note.Obedient s₀) ∧
      (t.result = none ∨ t.result = some (.error .cancelled) ∨
        ∀ note ∈ after ++ log, note.IsActed) := by
  have step := State.step_of_open open' m
  obtain ⟨w, telling, later'⟩ := Environment.Leads.of_append later
  have hw := heeds.leads telling hz
  -- Where the move leaves the sending open, the rest of it only tells.
  have boundary (tellsOnly : ∀ note ∈ after, note.IsActed) (still : (s.step m).1.result = none) :
      ∃ s₀, (∀ note ∈ after ++ log, note.Obedient s₀) ∧
        (t.result = none ∨ t.result = some (.error .cancelled) ∨
          ∀ note ∈ after ++ log, note.IsActed) := by
    obtain ⟨obedient, ends⟩ := obedient heeds rest later' hw still
    refine ⟨(s.step m).1, fun note mem => ?_, ends.imp id .inl⟩
    rcases List.mem_append.1 mem with mem | mem
    · exact (tellsOnly note mem).obedient _
    · exact obedient note mem
  cases amounts with
  | proceed cancelled content =>
    rw [State.step_proceed_of_open open'] at split rest boundary
    have turn : [.asked cancelled, .acted (.content file) content] = before ++ after := by
      simpa [told] using split
    have stops (told' : cancelled = true) : ∃ s₀, (∀ note ∈ after ++ log, note.Obedient s₀) ∧
        (t.result = none ∨ t.result = some (.error .cancelled) ∨
          ∀ note ∈ after ++ log, note.IsActed) := by
      subst told'
      obtain ⟨rfl, rfl⟩ := rest.eq_of_result (r := .error .cancelled) rfl
      refine ⟨s, fun note mem => ?_, .inr (.inl rfl)⟩
      rw [List.append_nil] at mem
      replace mem := List.mem_append_right before mem
      rw [← turn] at mem
      rcases List.mem_pair.1 mem with rfl | rfl <;> simp [Note.Obedient]
    -- It falls before the look of the turn, between the look and the reading, or after both.
    rcases before with _ | ⟨_, _ | ⟨_, _ | _⟩⟩
    · rw [List.nil_append] at turn
      subst turn
      obtain ⟨asked, -⟩ := later.of_asked
      exact stops (by rw [← asked, ← heeds.tells, heeds.asked _ hz])
    · obtain ⟨rfl, rfl⟩ : _ = Note.asked cancelled ∧ after = [_] := by simpa [eq_comm] using turn
      obtain ⟨asked, rest'⟩ := first.of_asked
      cases rest'
      exact stops (by rw [← asked, ← heeds.tells, hz])
    · obtain rfl : after = [] := by simp_all
      cases ended : (s.proceed cancelled content).result with
      | none => exact boundary (by simp) ended
      | some r =>
        obtain ⟨rfl, rfl⟩ := rest.eq_of_result ended
        exact ⟨s, by simp, .inr (.inr (by simp))⟩
    · simp at turn
  | begin k =>
    refine boundary (fun note mem => ?_) (rests_of_begin_or_finish open' step (by simp)).2
    exact isActed_of_mem_told (e := (s.step (.begin k)).2) (by simp_all)
  | finish k outcome =>
    refine boundary (fun note mem => ?_) (rests_of_begin_or_finish open' step (by simp)).2
    rw [List.nil_append] at split
    exact isActed_of_mem_told (split ▸ List.mem_append_right before mem)

/-- Once a sending has been cancelled no further part is read. The next turn of the reader ends it,
if it has not ended already. -/
lemma obedient_split {before after : Log} (course : Course file fuel s log t)
    (split : log = before ++ after) (first : env.Leads x before z) (later : env.Leads z after y)
    (hz : fired z = true) :
    ∃ s₀, (∀ note ∈ after, note.Obedient s₀) ∧
      (t.result = none ∨ t.result = some (.error .cancelled) ∨ ∀ note ∈ after, note.IsActed) := by
  -- On the course: the cancellation comes before a move, within it or in what follows.
  induction course generalizing x before with
  | spent s =>
    obtain ⟨-, rfl⟩ := List.append_eq_nil_iff.1 split.symm
    exact ⟨s, by simp, .inr (.inr (by simp))⟩
  | @ended _ s _ result =>
    obtain ⟨-, rfl⟩ := List.append_eq_nil_iff.1 split.symm
    exact ⟨s, by simp, .inr (.inr (by simp))⟩
  | @move n s t c notes log m open' amounts rest ih =>
    cases before with
    | nil =>
      cases first
      rw [List.nil_append] at split
      subst split
      obtain ⟨obedient, ends⟩ := obedient heeds (.move open' amounts rest) later hz open'
      exact ⟨s, obedient, ends.imp id .inl⟩
    | cons note before =>
      obtain ⟨rfl, within⟩ := List.cons.inj split
      obtain ⟨-, first⟩ := first.of_chosen
      rcases List.append_eq_append_iff.1 within with ⟨last, hb, tail⟩ | ⟨last, turn, ha⟩
      · rw [hb] at first
        obtain ⟨w, -, first⟩ := Environment.Leads.of_append first
        exact ih tail first
      · rw [ha] at later ⊢
        exact obedient_within heeds open' amounts rest turn first later hz

end Sending.Course

/-! ### Activities -/

/-- What is left of a run, with the log `after`, at a moment at which the transfer has been
cancelled. The run may not be followed to its end if `loose`. -/
structure Obeys {α : Type} (loose : Prop) (after : Log) (r : Except Stop α) : Prop where
  notes  : ∃ s₀, ∀ note ∈ after, note.Obedient s₀
  result : r = .error (.failed .cancelled) ∨
    ((∀ note ∈ after, note.IsActed) ∧ r ≠ .error .unfinished) ∨ r = .error .unfinished ∧ loose

namespace Obeys

variable {α : Type} {loose : Prop} {log after : Log} {r : Except Stop α}

lemma of_isActed (acted : ∀ note ∈ after, note.IsActed) (ended : r = .error .unfinished → loose) :
    Obeys loose after r := by
  refine ⟨⟨default, fun note mem => (acted note mem).obedient _⟩, ?_⟩
  by_cases unfinished : r = .error .unfinished
  · exact .inr (.inr ⟨unfinished, ended unfinished⟩)
  · exact .inr (.inl ⟨acted, unfinished⟩)

/-- What is done at once may come before. -/
lemma acted (h : Obeys loose after r) (acted : ∀ note ∈ log, note.IsActed) :
    Obeys loose (log ++ after) r := by
  obtain ⟨⟨s₀, notes⟩, result⟩ := h
  refine ⟨⟨s₀, fun note mem => ?_⟩, ?_⟩
  · rcases List.mem_append.1 mem with mem | mem
    · exact (acted note mem).obedient s₀
    · exact notes note mem
  · refine result.imp id (.imp (fun ⟨later, ended⟩ => ⟨fun note mem => ?_, ended⟩) id)
    exact (List.mem_append.1 mem).elim (acted note) (later note)

/-- What has given up does only what is done at once after some notes that may come. -/
lemma of_givesUp {a : Activity α} {rest : Log} (up : a.GivesUp) (course : a.Course rest r)
    {s₀ : Sending.State} (notes : ∀ note ∈ after, note.Obedient s₀) :
    Obeys loose (after ++ rest) r := by
  obtain ⟨acts, rfl⟩ := up.of_course course
  refine ⟨⟨s₀, fun note mem => ?_⟩, .inl rfl⟩
  rcases List.mem_append.1 mem with mem | mem
  · exact notes note mem
  · exact Note.IsActed.obedient (acts note mem) s₀

/-- What gives up once it is told does nothing more. -/
lemma of_givesUp_told {a : Activity α} {rest : Log} (up : a.GivesUp) (course : a.Course rest r) :
    Obeys loose (.asked true :: rest) r := by
  have notes : ∀ note ∈ [Note.asked true], note.Obedient default := by simp [Note.Obedient]
  exact Obeys.of_givesUp up course notes

/-- What has given up has nothing left but what is done at once. -/
lemma of_givesUp_suffix {a : Activity α} {before : Log} (up : a.GivesUp) (course : a.Course log r)
    (split : log = before ++ after) : Obeys loose after r := by
  obtain ⟨acts, rfl⟩ := up.of_course course
  refine .of_isActed (fun note mem => acts note ?_) (by simp)
  rw [split]
  exact List.mem_append_right before mem

end Obeys

namespace Activity.Heedful

variable {σ α : Type} {env : Environment (StateM σ)} {fired : σ → Bool} (heeds : env.Heeds fired)
  {a : Activity α} {lax loose : Prop} {log before after : Log} {r : Except Stop α} {x y z : σ}

include heeds

/-- An activity that heeds a cancellation obeys it from the start. -/
lemma obeys_of_fired (h : Heedful lax a) (course : a.Course log r) (leads : env.Leads x log y)
    (hx : fired x = true) (hl : lax → loose) : Obeys loose log r := by
  induction h generalizing log x with
  | done ended =>
    cases course
    exact .of_isActed (by simp) fun unfinished => hl (ended unfinished)
  | act rest ih =>
    cases course with
    | @act _ _ log _ answer course =>
      obtain ⟨-, later⟩ := leads.of_acted
      change Obeys loose ([_] ++ log) r
      refine (ih answer course later (heeds.acted _ x hx)).acted fun note mem => ?_
      exact ⟨_, _, List.mem_singleton.1 mem⟩
  | await up rest ih =>
    have fires : (env.cancelled x).1 = true := by rw [← heeds.tells, heeds.asked x hx]
    cases course with
    | giveUp course =>
      exact .of_givesUp_told up course
    | _ =>
      obtain ⟨asked, -⟩ := leads.of_asked
      cases fires.symm.trans asked
  | send _ up rest ih =>
    have fires : (env.cancelled x).1 = true := by rw [← heeds.tells, heeds.asked x hx]
    cases course with
    | giveUpSending course =>
      exact .of_givesUp_told up course
    | _ =>
      obtain ⟨asked, -⟩ := leads.of_asked
      cases fires.symm.trans asked

/-- Between the question whether the transfer has been cancelled, if the answer is no, and what is
waited for then, it has not been cancelled. -/
lemma leads_awaited {w : Await} {reply : Reply TransferError w.Answer}
    (split : .awaited w reply :: log = before ++ after)
    (first : env.Leads x (.asked false :: before) z) (hz : fired z = true) :
    ∃ last u, log = last ++ after ∧ (env.await w u).1 = reply ∧ env.Leads (env.await w u).2 last z := by
  obtain ⟨asked, first⟩ := first.of_asked
  cases before with
  | nil =>
    cases first
    rw [← heeds.tells, hz] at asked
    cases asked
  | cons note last =>
    obtain ⟨rfl, behind⟩ := List.cons.inj split
    exact ⟨last, _, behind, first.of_awaited⟩

/-- An activity that heeds a cancellation obeys it from whatever moment it comes. -/
theorem obeys (h : Heedful lax a) (course : a.Course log r) (split : log = before ++ after)
    (first : env.Leads x before z) (later : env.Leads z after y) (hz : fired z = true)
    (hl : lax → loose) : Obeys loose after r := by
  -- On the activity: the cancellation comes before its first step, within it or in what follows.
  induction h generalizing log before x with
  | done ended =>
    cases course
    obtain ⟨-, rfl⟩ := List.append_eq_nil_iff.1 split.symm
    exact .of_isActed (by simp) fun unfinished => hl (ended unfinished)
  | act rest ih =>
    cases before with
    | nil =>
      cases first
      subst split
      exact obeys_of_fired heeds (.act rest) course later hz hl
    | cons note before =>
      cases course with
      | act answer course =>
        obtain ⟨rfl, tail⟩ := List.cons.inj split
        exact ih answer course tail first.of_acted.2
  | @await w next up rest ih =>
    cases before with
    | nil =>
      cases first
      subst split
      exact obeys_of_fired heeds (.await up rest) course later hz hl
    | cons note before =>
      cases course with
      | giveUp course =>
        obtain ⟨-, tail⟩ := List.cons.inj split
        exact .of_givesUp_suffix up course tail
      | @await _ _ log _ answer course =>
        obtain ⟨rfl, tail⟩ := List.cons.inj split
        obtain ⟨last, u, behind, reply, first⟩ := leads_awaited heeds tail first hz
        by_cases left : next answer = .done (.error .unfinished) → ∀ d, w ≠ .pause d
        · exact ih answer left course behind first
        · -- The last answer is that of an activity not followed further, so it is no cancellation.
          obtain ⟨unfinished, d, rfl⟩ : next answer = .done (.error .unfinished) ∧
              ∃ d, w = .pause d := by simpa using left
          rw [unfinished] at course
          cases course
          obtain ⟨rfl, rfl⟩ := List.append_eq_nil_iff.1 behind.symm
          cases first
          obtain rfl := heeds.paused d _ answer hz reply
          rw [unfinished] at up
          cases up
      | overrun o =>
        obtain ⟨rfl, tail⟩ := List.cons.inj split
        obtain ⟨_, _, behind, -⟩ := leads_awaited heeds tail first hz
        obtain ⟨-, rfl⟩ := List.append_eq_nil_iff.1 behind.symm
        exact .of_isActed (by simp) (by simp)
  | @send b next some' up rest ih =>
    cases before with
    | nil =>
      cases first
      subst split
      exact obeys_of_fired heeds (.send some' up rest) course later hz hl
    | cons note before =>
      cases course with
      | giveUpSending course =>
        obtain ⟨-, tail⟩ := List.cons.inj split
        exact .of_givesUp_suffix up course tail
      | @send _ _ sending log _ t result sent ended course =>
        obtain ⟨rfl, tail⟩ := List.cons.inj split
        obtain ⟨-, first⟩ := first.of_asked
        rcases List.append_eq_append_iff.1 tail with ⟨last, hb, behind⟩ | ⟨last, within, ha⟩
        · rw [hb] at first
          obtain ⟨w, -, first⟩ := first.of_append
          exact ih result course behind first
        · subst ha
          obtain ⟨u, sending, later⟩ := later.of_append
          obtain ⟨s₀, obedient, open' | cancelled | acts⟩ :=
            sent.obedient_split heeds within first sending hz
          · simp [ended] at open'
          · cases ended.symm.trans cancelled
            exact .of_givesUp up course obedient
          · exact (obeys_of_fired heeds (rest result) course later (heeds.leads sending hz) hl).acted
              acts
      | @stalled _ _ sending t sent ended =>
        obtain ⟨rfl, tail⟩ := List.cons.inj split
        subst tail
        have same : env.send b (env.cancelled x).2 = (t.result, y) :=
          (first.of_asked.2.append later).sendFrom_eq sent
        have finished := heeds.sends b (env.cancelled x).2 some'
        rw [same, ended] at finished
        cases finished

omit heeds in
/-- An activity has nothing left but what is done at once when something that it has waited for has been
given up. -/
lemma of_givenUp (h : Heedful lax a) {w : Await} (course : a.Course log r)
    (split : log = before ++ .awaited w (.answered (.error .cancelled)) :: after) :
    (∀ note ∈ after, note.IsActed) ∧ r = .error (.failed .cancelled) := by
  have mem : .awaited w (.answered (.error .cancelled)) ∈ log := by simp [split]
  -- On what is left to do. The answer is that of the first wait or of a later one, and a
  -- sending holds no answer of this kind.
  induction h generalizing log before with
  | done =>
    cases course
    simp at split
  | act rest ih =>
    cases course with
    | act answer course =>
      cases before with
      | nil => cases (List.cons.inj split).1
      | cons =>
        have tail := (List.cons.inj split).2
        exact ih answer course tail (by simp [tail])
  | await up rest ih =>
    cases course with
    | giveUp course =>
      obtain ⟨acts, -⟩ := up.of_course course
      obtain ⟨_, _, ⟨⟩⟩ := acts _ (by simpa using mem)
    | await answer course =>
      rcases before with _ | ⟨_, _ | ⟨_, before⟩⟩
      · cases (List.cons.inj split).1
      · obtain ⟨⟨⟩, rfl⟩ := List.cons.inj (List.cons.inj split).2
        exact up.of_course course
      · have tail := (List.cons.inj (List.cons.inj split).2).2
        refine ih answer (fun unfinished => ?_) course tail (by simp [tail])
        rw [unfinished] at course
        cases course
        simp at tail
    | overrun o =>
      rcases before with _ | ⟨_, _ | ⟨_, before⟩⟩
      · cases (List.cons.inj split).1
      · cases (List.cons.inj (List.cons.inj split).2).1
      · simp at split
  | send _ up rest ih =>
    cases course with
    | giveUpSending course =>
      obtain ⟨acts, -⟩ := up.of_course course
      obtain ⟨_, _, ⟨⟩⟩ := acts _ (by simpa using mem)
    | @send _ _ sending log _ _ result sent _ course =>
      have quiet : .awaited w (.answered (.error .cancelled)) ∉ sending := fun mem =>
        nomatch sent.asks mem
      cases before with
      | nil => cases (List.cons.inj split).1
      | cons _ before =>
        have tail := (List.cons.inj split).2
        rcases List.append_eq_append_iff.1 tail with ⟨last, -, behind⟩ | ⟨_ | ⟨_, last⟩, rfl, behind⟩
        · exact ih result course behind (by simp [behind])
        · have behind : log = [] ++ _ := behind.symm
          exact ih result course behind (by simp [behind])
        · cases (List.cons.inj behind).1
          simp at quiet
    | stalled sent =>
      exact nomatch sent.asks ((List.mem_cons.1 mem).resolve_left nofun)

end Activity.Heedful

/-! ### Sessions -/

namespace Client.Cancellable

variable {S : Type} {c : Client (StateM S)} {fired : S → Bool} (h : c.Cancellable fired)

include h

/-- Every session gives up what it waits for once the transfer has been cancelled. -/
theorem heeds : (c.tracked fired).flat.Heeds fun x => fired x.2.1 where
  tells x := h.tells x.2.1
  asked x := h.stays.cancelled x.2.1
  awaited w x fires := by
    obtain ⟨T, -, breaks⟩ := h.breaks_await w x.1 x.2.1 x.2.2
    exact breaks.stays (.inl fires)
  acted a x := h.stays.environment.act a x.1 x.2.1
  chosen s x := h.stays.environment.choose s x.1 x.2.1
  paused d x r fires answer :=
    Reply.answered.inj (answer.symm.trans (h.comes_pause d x.1 x.2.1 x.2.2 fires))
  sends b x some' := by
    obtain ⟨T, same⟩ := (c.tracked_alike fired).sendFrom b.file b.start.moveBound b.start
      x.1 x.2.1 x.2.2
    have ends : (c.environment.send b x.1 x.2.1).1.1.isSome := h.comes_send b some' x.1 x.2.1
    rw [Environment.send_flat]
    change ((c.tracked fired).sendFrom b.file b.start.moveBound b.start x.1 (x.2.1, x.2.2)).1.1.isSome
    rw [same]
    exact ends

end Client.Cancellable

/-! ### Trails -/

/-- A deed that may come after a cancellation: no request is sent and nothing else is begun that is
waited for, whoever asks is told of the cancellation, and a sending reads no further part than in a
state `s₀`. -/
def Deed.Obedient (s₀ : Sending.State) : Deed → Prop
  | .asked cancelled => cancelled = true
  | .began _         => False
  | .acted _         => True
  | .chosen s _      => s₀.Rests s

/-- What is done at once. -/
def Deed.IsActed (deed : Deed) : Prop :=
  ∃ a, deed = .acted a

/-- What is left of the trail of a run at a moment at which the transfer has been cancelled. The run
may not be followed to its end if `loose`. -/
structure Trail.Obeys {α : Type} (loose : Prop) (after : Trail) (r : Except Stop α) : Prop where
  deeds  : ∃ s₀, ∀ m ∈ after, m.deed.Obedient s₀
  result : r = .error (.failed .cancelled) ∨
    ((∀ m ∈ after, m.deed.IsActed) ∧ r ≠ .error .unfinished) ∨ r = .error .unfinished ∧ loose

section

variable {note : Note} {deed : Deed}

lemma Deed.obedient_of_note {s₀ : Sending.State} (h : note.Obedient s₀)
    (made : note.deed? = some deed) : deed.Obedient s₀ := by
  cases note with
  | awaited => cases made
  | _ =>
    cases made
    exact h

lemma Deed.isActed_of_note (h : note.IsActed) (made : note.deed? = some deed) : deed.IsActed := by
  obtain ⟨a, x, rfl⟩ := h
  cases made
  exact ⟨a, rfl⟩

lemma Note.Obedient.isSome {s₀ : Sending.State} (h : note.Obedient s₀) : note.deed?.isSome := by
  cases note with
  | awaited => exact h.elim
  | _ => rfl

end

/-- What is left of a trail is as what is left of the log. -/
lemma Client.Moment.obeys {S α : Type} {c : Client (StateM S)} {fired : S → Bool}
    (h : c.Cancellable fired) {a : Activity α} {lax : Prop} (heedful : Heedful lax a) {log : Log}
    {r : Except Stop α} (course : a.Course log r) {x y : Session × S × Trail} {after : Trail}
    (moment : c.Moment fired x y log after) : after.Obeys lax r := by
  cases moment with
  | between split leads rest fires trail =>
    obtain ⟨⟨s₀, notes⟩, result⟩ := heedful.obeys h.heeds course split leads rest fires id
    have made := h.exists_note rest (fun note mem => (notes note mem).isSome) trail
    refine ⟨⟨s₀, fun m mem => ?_⟩, result.imp_right (.imp_left (And.imp_left fun acted m mem => ?_))⟩
    · obtain ⟨note, mem, deed⟩ := made m mem
      exact Deed.obedient_of_note (notes note mem) deed
    · obtain ⟨note, mem, deed⟩ := made m mem
      exact Deed.isActed_of_note (acted note mem) deed
  | within split rest told trail =>
    obtain ⟨acted, rfl⟩ := heedful.of_givenUp course split
    subst told
    have made := h.exists_note rest (fun note mem => ((acted note mem).obedient default).isSome) trail
    refine ⟨⟨default, fun m mem => ?_⟩, .inl rfl⟩
    rcases List.mem_cons.1 mem with rfl | mem
    · rfl
    · obtain ⟨note, mem, deed⟩ := made m mem
      exact Deed.obedient_of_note ((acted note mem).obedient default) deed

/-! ### Operations -/

namespace Profile

/-- From the moment on at which the transfer has been cancelled, whether between two steps of an
operation or in the middle of a call, no operation sends a request, asks for a token, waits for
anything else or reads a further part. It ends as cancelled, unless nothing is left of it but what is
done at once. -/
theorem activity_obeys {S α : Type} (c : Client (StateM S)) {fired : S → Bool}
    (cancellable : c.Cancellable fired) (p : Profile) (o : Operation α) (v : Session) (s : S)
    {before after : Trail} (split : c.trail fired (p.activity o) v s = before ++ after)
    (late : fired s = true ∨ before.Late) :
    after.Obeys p.Impatient (c.run (p.activity o) v s).1.1 := by
  have course := course_log (c.tracked fired).flat (p.activity o) (v, s, [])
  have leads := (c.tracked fired).flat.leads_log (p.activity o) (v, s, [])
  rw [(c.tracked fired).run_flat] at course leads
  have same := c.run_tracked fired (p.activity o) v s
  have ends : (Visit.flat ((p.activity o).run (c.tracked fired)) (v, s, [])).1 =
      (c.run (p.activity o) v s).1.1 := congrArg (·.1.1) same
  rw [ends] at course
  exact (cancellable.exists_moment leads split late).obeys cancellable (p.heedful_activity o) course

end Profile

/-! ### A call that is given up before its request -/

/-- A client whose transfer is cancelled while it is asking for a token. -/
def quitter : Client (StateM Bool) where
  around :=
    { exchange  := fun _ => pure (.answered ⟨404, [], [], true⟩)
      now       := pure ⟨0⟩
      pause     := fun _ => pure ()
      cancelled := get
      size      := fun _ => pure (.error .earlyEnd)
      content   := fun _ => pure (.error .earlyEnd)
      write     := fun _ _ => pure (.error .earlyEnd)
      prefer    := pure 0
      listen    := fun _ => pure ()
      enter     := fun _ => pure () }
  gateway := ⟨"http://gateway", "cluster", 0⟩
  source  := do
    set true
    return .ok ⟨"t", ⟨5⟩⟩

lemma quitter_cancellable : quitter.Cancellable id where
  tells _ := rfl
  stays := by
    constructor
    case gateway => rfl
    all_goals
      intros
      intro s hs
      first
        | exact hs
        | rfl

/-- The call has a token, but sends no request with it. -/
theorem Profile.activity_obeys_quitter :
    let p : Profile := ⟨none, .default, 1, 0, 3⟩
    let before : Trail := [⟨.asked false, false⟩, ⟨.began .token, true⟩]
    quitter.trail id (p.activity (.cancelJob 7)) .start false = before ++ [⟨.asked true, true⟩] ∧
      before.Late ∧
      Trail.Obeys p.Impatient [⟨.asked true, true⟩]
        (quitter.run (p.activity (.cancelJob 7)) .start false).1.1 := by
  intro p before
  have whole : (p.activity (.cancelJob 7)).run (quitter.tracked id).flat (.start, false, []) =
      (.error (.failed .cancelled), .start, true, before ++ [⟨.asked true, true⟩]) :=
    Environment.run_await (r := .error .cancelled) _ rfl rfl
  rw [Environment.run_flat] at whole
  have split : quitter.trail id (p.activity (.cancelJob 7)) .start false =
      before ++ [⟨.asked true, true⟩] := congrArg (·.2.2.2) whole
  have late : before.Late := ⟨_, List.mem_cons_of_mem _ (List.mem_singleton_self _), rfl⟩
  exact ⟨split, late,
    p.activity_obeys quitter quitter_cancellable (.cancelJob 7) .start false split (.inr late)⟩

end StagedTransfer
