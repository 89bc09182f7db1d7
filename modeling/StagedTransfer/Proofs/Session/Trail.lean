import StagedTransfer.Proofs.Session.Diary
import StagedTransfer.Proofs.Session.Flight

/-!
# Trails

A run leaves a mark of each thing that it begins, which also says whether the transfer had been
cancelled when that was over. So the trail of a run can be cut at every moment at which the transfer
may have been cancelled, also between the legs of an errand: before or after it has asked for a
token, sent its request or written a file. Looks at the clock and at what the session keeps take no
time, and belong to what is marked after them.
-/

namespace StagedTransfer

open Activity Wire

/-! ### Marks -/

/-- What a run begins. -/
inductive Deed
  /-- Whether the transfer has been cancelled. -/
  | asked (cancelled : Bool)
  /-- A leg of an errand: a request, the question for a token, a file, a pause. -/
  | began (l : Leg)
  | acted (a : Act)
  /-- What comes next in a state of a sending. A part goes on its way if it begins. -/
  | chosen (s : Sending.State) (c : Sending.Choice)

/-- A deed, and whether the transfer had been cancelled when it was over. -/
structure Mark where
  deed : Deed
  late : Bool

/-- The marks of a run, in order. -/
abbrev Trail := List Mark

/-- The transfer has been cancelled on the way. -/
def Trail.Late (T : Trail) : Prop :=
  ∃ m ∈ T, m.late = true

namespace Trail.Late

variable {m : Mark} {T first last : Trail}

lemma ne_nil (h : T.Late) : T ≠ [] := by
  rintro rfl
  simp [Late] at h

lemma append (h : first.Late) (last : Trail) : Late (first ++ last) := by
  obtain ⟨m, mem, late⟩ := h
  exact ⟨m, List.mem_append_left last mem, late⟩

/-- What has not been cancelled by the first mark has been so after it. -/
lemma of_cons (h : first.Late) (early : m.late = false) (split : m :: T = first ++ last) :
    ∃ rest, T = rest ++ last ∧ rest.Late := by
  obtain ⟨k, mem, late⟩ := h
  cases first with
  | nil => simp at mem
  | cons m' rest =>
    obtain ⟨rfl, tail⟩ := List.cons.inj split
    rcases List.mem_cons.1 mem with rfl | mem
    · simp [early] at late
    · exact ⟨rest, tail, k, mem, late⟩

end Trail.Late

/-- What a run begins with a question, but for what it waits for. -/
def Note.deed? : Note → Option Deed
  | .asked cancelled => some (.asked cancelled)
  | .awaited _ _     => none
  | .acted a _       => some (.acted a)
  | .chosen s c      => some (.chosen s c)

/-! ### Leaving marks -/

section

variable {S α : Type} (fired : S → Bool)

/-- The step, which leaves a mark. -/
def marking (x : StateM S α) (deed : α → Deed) : StateM (S × Trail) α := fun p =>
  ((x p.1).1, (x p.1).2, p.2 ++ [⟨deed (x p.1).1, fired (x p.1).2⟩])

/-- The step, which leaves no mark. -/
def unmarked (x : StateM S α) : StateM (S × Trail) α := fun p =>
  ((x p.1).1, (x p.1).2, p.2)

/-- The same surroundings, which leave a mark of each leg and of each question whether the transfer has
been cancelled. -/
def Surroundings.marked (around : Surroundings (StateM S)) : Surroundings (StateM (S × Trail)) where
  exchange r         := marking fired (around.exchange r) fun _ => .began (.exchange r)
  now                := unmarked around.now
  pause d            := marking fired (around.pause d) fun _ => .began (.pause d)
  cancelled          := marking fired around.cancelled .asked
  size file          := marking fired (around.size file) fun _ => .began (.size file)
  content file       := marking fired (around.content file) fun _ => .began (.content file)
  write file content := marking fired (around.write file content) fun _ => .began (.write file content)
  prefer             := unmarked around.prefer
  listen e           := unmarked (around.listen e)
  enter p            := unmarked (around.enter p)

namespace Client

variable (c : Client (StateM S))

/-- The same client, who leaves marks. -/
def marked : Client (StateM (S × Trail)) where
  around  := c.around.marked fired
  gateway := c.gateway
  source  := marking fired c.source fun _ => .began .token

/-- The environment of a session that leaves marks. -/
def tracked : Environment (Visit (StateM (S × Trail))) where
  cancelled := (c.marked fired).environment.cancelled
  await     := (c.marked fired).await
  act a     := fun v => marking fired (c.act a v) fun _ => .acted a
  choose s  := fun v => marking fired (c.choose s v) fun p => .chosen s p.1

/-- The trail of a run. -/
def trail (a : Activity α) (v : Session) (s : S) : Trail :=
  (a.run (c.tracked fired) v (s, [])).2.2

/-! ### A mark changes nothing -/

lemma marked_alike : (c.marked fired).Alike (.keeping S Mark) c where
  gateway         := rfl
  source _ _      := ⟨_, rfl⟩
  exchange _ _ _  := ⟨_, rfl⟩
  now _ _         := ⟨_, rfl⟩
  pause _ _ _     := ⟨_, rfl⟩
  cancelled _ _   := ⟨_, rfl⟩
  size _ _ _      := ⟨_, rfl⟩
  content _ _ _   := ⟨_, rfl⟩
  write _ _ _ _   := ⟨_, rfl⟩
  prefer _ _      := ⟨_, rfl⟩
  listen _ _ _    := ⟨_, rfl⟩
  enter _ _ _     := ⟨_, rfl⟩

lemma tracked_alike : (c.tracked fired).Alike (Lockstep.keeping S Mark).visits c.environment where
  cancelled      := (c.marked_alike fired).environment.cancelled
  await          := (c.marked_alike fired).environment.await
  act _ _ _ _    := ⟨_, rfl⟩
  choose _ _ _ _ := ⟨_, rfl⟩

/-- A run comes to the same whether it leaves marks or not. -/
theorem run_tracked (a : Activity α) (v : Session) (s : S) :
    a.run (c.tracked fired) v (s, []) = ((c.run a v s).1, (c.run a v s).2, c.trail fired a v s) := by
  obtain ⟨l, same⟩ := (c.tracked_alike fired).run a v s []
  rw [trail, same]
  rfl

end Client

end

/-! ### What is given up -/

section

variable {S : Type} {fired : S → Bool}

/-- A step with the marks `T` leads from one state of the surroundings to another. Once the transfer
has been cancelled on the way, nothing more is begun: whoever asks is told, and the step is given up
then. -/
structure Trail.Breaks (fired : S → Bool) (s : S) (T : Trail) (up : Prop) (s' : S) : Prop where
  stays : fired s = true ∨ T.Late → fired s' = true
  rest  : ∀ first last, T = first ++ last → first ≠ [] → fired s = true ∨ first.Late →
    last = [] ∨ last = [⟨.asked true, true⟩] ∧ up

namespace Trail.Breaks

variable {s t u : S} {T : Trail} {up : Prop} {deed : Deed}

lemma nil (stays : fired s = true → fired t = true) : Breaks fired s [] up t where
  stays late := stays (late.resolve_right (by simp [Late]))
  rest first last split some' := absurd (List.append_eq_nil_iff.1 split.symm).1 some'

/-- A step with a single mark. -/
lemma mark (stays : fired s = true → fired t = true) : Breaks fired s [⟨deed, fired t⟩] up t where
  stays late := late.elim stays (by simp [Late])
  rest first last split some' _ := by
    cases first with
    | nil => exact absurd rfl some'
    | cons => exact .inl (List.append_eq_nil_iff.1 (List.cons.inj split).2.symm).2

/-- What takes no time may come first. -/
lemma prepend (h : Breaks fired t T up u) (stays : fired s = true → fired t = true) :
    Breaks fired s T up u where
  stays late := h.stays (late.imp_left stays)
  rest first last split some' late := h.rest first last split some' (late.imp_left stays)

/-- A leg that is over before a cancellation may come first. -/
lemma leg (h : Breaks fired t T up u) (deed : Deed) (early : fired s = false) :
    Breaks fired s (⟨deed, false⟩ :: ⟨.asked false, false⟩ :: T) up u where
  stays late := h.stays (.inr (by simpa [early, Late] using late))
  rest first last split _ late := by
    have late : first.Late := by simpa [early] using late
    obtain ⟨first, split, late⟩ := late.of_cons rfl split
    obtain ⟨first, split, late⟩ := late.of_cons rfl split
    exact h.rest first last split late.ne_nil (.inr late)

lemma imp {up' : Prop} (h : Breaks fired s T up t) (hup : up → up') : Breaks fired s T up' t where
  stays := h.stays
  rest first last split some' late :=
    (h.rest first last split some' late).imp_right (And.imp_right hup)

/-- A leg on the way of which the transfer has been cancelled is the last one. -/
lemma last (fires : fired t = true) {late : Bool} (given : up) :
    Breaks fired s [⟨deed, late⟩, ⟨.asked true, true⟩] up t where
  stays _ := fires
  rest first last split some' _ := by
    rcases first with _ | ⟨_, _ | ⟨_, first⟩⟩
    · exact absurd rfl some'
    · exact .inr ⟨(List.cons.inj split).2.symm, given⟩
    · exact .inl (List.append_eq_nil_iff.1 (List.cons.inj (List.cons.inj split).2).2.symm).2

end Trail.Breaks

end

namespace Client.Cancellable

variable {S α : Type} {c : Client (StateM S)} {fired : S → Bool} (h : c.Cancellable fired)

include h

/-- A leg of an errand leaves a mark. -/
lemma comes_meet (l : Leg) (v : Session) (s : S) (T : Trail) :
    (liftM ((c.marked fired).meet l) : Visit (StateM (S × Trail)) l.Answer).Comes v (s, T)
      fun _ _ p => ∃ s', p = (s', T ++ [⟨.began l, fired s'⟩]) ∧
        (fired s = true → fired s' = true) := by
  have stays : fired s = true → fired ((c.meet l) s).2 = true := h.stays.meet l s
  cases l <;> exact ⟨_, rfl, stays⟩

/-- So does the question whether the transfer has been cancelled. -/
lemma comes_cancelled (v : Session) (s : S) (T : Trail) :
    (liftM (c.marked fired).around.cancelled : Visit (StateM (S × Trail)) Bool).Comes v (s, T)
      fun told _ p => ∃ s', p = (s', T ++ [⟨.asked told, told⟩]) ∧ fired s' = told ∧
        (fired s = true → told = true) := by
  refine ⟨(c.around.cancelled s).2, ?_, h.tells s, h.told⟩
  change (_, T ++ [⟨_, fired (c.around.cancelled s).2⟩]) = _
  rw [h.tells]
  rfl

/-- An errand on the way of which the transfer is cancelled begins no further leg. -/
theorem breaks_heed (e : Errand α) (v : Session) (s : S) (T : Trail) :
    ((c.marked fired).heed e).Comes v (s, T) fun r _ p => ∃ T',
      p.2 = T ++ T' ∧ T'.Breaks fired s (r = none) p.1 := by
  induction e generalizing v s T with
  | done a => exact ⟨[], (List.append_nil T).symm, .nil id⟩
  | consult next ih =>
    refine Visit.Comes.bind (P := fun _ _ p => p = (s, T)) rfl ?_
    rintro u w _ rfl
    refine Visit.Comes.bind (P := fun _ _ p => p.2 = T ∧ (fired s = true → fired p.1 = true))
      ⟨rfl, h.stays.now s⟩ ?_
    rintro now w ⟨s', T⟩ ⟨rfl, stays⟩
    exact (ih u.token now w s' T).imp fun _ _ _ ⟨T', goes, breaks⟩ =>
      ⟨T', goes, breaks.prepend stays⟩
  | keep t e ih =>
    refine Visit.Comes.bind (P := fun _ _ p => p = (s, T)) rfl ?_
    rintro _ w _ rfl
    exact ih w s T
  | go l next ih =>
    apply (h.comes_meet l v s T).bind
    rintro x w _ ⟨s', rfl, stays⟩
    apply (h.comes_cancelled w s' _).bind
    rintro told w _ ⟨s'', rfl, fires, stays'⟩
    -- A cancellation that the look after a leg finds has come during that leg, and no leg follows.
    cases told with
    | true => exact ⟨_, List.append_assoc .., .last fires rfl⟩
    | false =>
      have early : fired s' = false := by simpa using stays'
      have early' : fired s = false := by simpa [early] using stays
      rw [early]
      refine (ih x w s'' _).imp fun _ _ _ ⟨T', goes, breaks⟩ =>
        ⟨_, ?_, breaks.leg (.began l) early'⟩
      rw [goes, List.append_assoc, List.append_assoc]
      rfl

/-- What is waited for is given up, if the transfer is cancelled on the way. -/
lemma breaks_await (w : Await) (v : Session) (s : S) (T : Trail) :
    ((c.marked fired).await w).Comes v (s, T) fun r _ p => ∃ T',
      p.2 = T ++ T' ∧ T'.Breaks fired s (r = .fail .cancelled) p.1 := by
  apply (h.breaks_heed (.await c.gateway w) v s T).bind
  rintro r u p ⟨T', goes, breaks⟩
  exact ⟨T', goes, breaks.imp fun none' => by rw [none']; rfl⟩

/-- A pause that is over once the transfer has been cancelled has been given up. -/
lemma comes_pause (d : Span) (v : Session) (s : S) (T : Trail) :
    ((c.marked fired).await (.pause d)).Comes v (s, T) fun r _ p =>
      fired p.1 = true → r = .fail .cancelled := by
  have heeded : ((c.marked fired).heed (.await c.gateway (.pause d))).Comes v (s, T) fun r _ p =>
      fired p.1 = true → r = none := by
    apply (h.comes_meet (.pause d) v s T).bind
    rintro x w _ ⟨s', rfl, -⟩
    apply (h.comes_cancelled w s' _).bind
    rintro told w _ ⟨s'', rfl, fires, -⟩
    cases told with
    | true => exact fun _ => rfl
    | false => exact fun late => absurd (fires.symm.trans late) Bool.false_ne_true
  apply heeded.bind
  intro r u p given fires
  rw [given fires]
  rfl

end Client.Cancellable

/-! ### Moments -/

section

variable {S : Type} {c : Client (StateM S)} {fired : S → Bool} {x y z : Session × S × Trail}
  {note : Note} {log : Log} {T before after : Trail}

/-- What is left of a run at a moment at which the transfer has been cancelled: the rest of its log,
with the marks `after`, or no more than the answer to whoever asks and then the rest of the log. -/
inductive Client.Moment (c : Client (StateM S)) (fired : S → Bool) (x y : Session × S × Trail)
    (log : Log) (after : Trail) : Prop
  | between {first later : Log} {z : Session × S × Trail} (split : log = first ++ later)
    (leads : (c.tracked fired).flat.Leads x first z)
    (rest : (c.tracked fired).flat.Leads z later y) (fires : fired z.2.1 = true)
    (trail : y.2.2 = z.2.2 ++ after)
  | within {first later : Log} {w : Await} {z : Session × S × Trail} {T : Trail}
    (split : log = first ++ .awaited w (.fail .cancelled) :: later)
    (rest : (c.tracked fired).flat.Leads z later y) (told : after = ⟨.asked true, true⟩ :: T)
    (trail : y.2.2 = z.2.2 ++ T)

namespace Client.Moment

/-- A step may come first. -/
lemma prepend (h : c.Moment fired z y log after)
    (leads : (c.tracked fired).flat.Leads x [note] z) : c.Moment fired x y (note :: log) after := by
  cases h with
  | between split first rest fires trail =>
    exact .between (congrArg (note :: ·) split) (leads.append first) rest fires trail
  | @within first later w _ _ split rest told trail =>
    have split : note :: log = (note :: first) ++ .awaited w (.fail .cancelled) :: later :=
      congrArg (note :: ·) split
    exact .within split rest told trail

/-- A moment in a run comes before a step, within it or in what follows. -/
lemma of_step (leads : (c.tracked fired).flat.Leads x [note] z)
    (rest : (c.tracked fired).flat.Leads z log y) (goes : z.2.2 = x.2.2 ++ T)
    (breaks : T.Breaks fired x.2.1 (∃ w, note = .awaited w (.fail .cancelled)) z.2.1)
    (grows : ∃ T', y.2.2 = z.2.2 ++ T')
    (ih : ∀ before, y.2.2 = z.2.2 ++ (before ++ after) → fired z.2.1 = true ∨ before.Late →
      c.Moment fired z y log after)
    (trail : y.2.2 = x.2.2 ++ (before ++ after)) (late : fired x.2.1 = true ∨ before.Late) :
    c.Moment fired x y (note :: log) after := by
  obtain ⟨T', grows⟩ := grows
  have same : T ++ T' = before ++ after := by
    rw [grows, goes, List.append_assoc] at trail
    exact List.append_cancel_left trail
  by_cases some' : before = []
  · subst some'
    have fires := late.resolve_right fun late => late.ne_nil rfl
    exact .between (List.nil_append _).symm (.nil x) (leads.append rest) fires trail
  rcases List.append_eq_append_iff.1 same with ⟨before, rfl, rfl⟩ | ⟨last, rfl, rfl⟩
  · refine (ih before grows ?_).prepend leads
    rcases late with fires | ⟨m, mem, late⟩
    · exact .inl (breaks.stays (.inl fires))
    rcases List.mem_append.1 mem with mem | mem
    · exact .inl (breaks.stays (.inr ⟨m, mem, late⟩))
    · exact .inr ⟨m, mem, late⟩
  · rcases breaks.rest before last rfl some' late with rfl | ⟨rfl, w, rfl⟩
    · have fires := breaks.stays (late.imp_right (·.append []))
      exact .between (List.singleton_append ..).symm leads rest fires grows
    · exact .within (List.nil_append _).symm rest rfl grows

end Client.Moment

namespace Client.Cancellable

variable (h : c.Cancellable fired)

include h

/-- What a step of a run adds to its trail. -/
lemma breaks_of_leads (leads : (c.tracked fired).flat.Leads x [note] z) :
    ∃ T, z.2.2 = x.2.2 ++ T ∧
      T.Breaks fired x.2.1 (∃ w, note = .awaited w (.fail .cancelled)) z.2.1 := by
  obtain ⟨v, s, T⟩ := x
  cases leads with
  | asked rest =>
    cases rest
    exact ⟨_, rfl, .mark (h.stays.cancelled s)⟩
  | awaited w rest =>
    cases rest
    obtain ⟨T', goes, breaks⟩ := h.breaks_await w v s T
    exact ⟨T', goes, breaks.imp fun given => ⟨w, congrArg (Note.awaited w) given⟩⟩
  | acted a rest =>
    cases rest
    exact ⟨_, rfl, .mark (h.stays.environment.act a v s)⟩
  | chosen b rest =>
    cases rest
    exact ⟨_, rfl, .mark (h.stays.environment.choose b v s)⟩

lemma grows (leads : (c.tracked fired).flat.Leads x log y) : ∃ T, y.2.2 = x.2.2 ++ T := by
  induction log generalizing x with
  | nil =>
    cases leads
    exact ⟨[], (List.append_nil _).symm⟩
  | cons note log ih =>
    have leads : (c.tracked fired).flat.Leads x ([note] ++ log) y := leads
    obtain ⟨z, one, rest⟩ := leads.of_append
    obtain ⟨T, goes, -⟩ := h.breaks_of_leads one
    obtain ⟨T', goes'⟩ := ih rest
    exact ⟨T ++ T', by rw [goes', goes, List.append_assoc]⟩

/-- Wherever the trail of a run is cut once the transfer has been cancelled, there is a moment of the
run. -/
theorem exists_moment (leads : (c.tracked fired).flat.Leads x log y)
    (trail : y.2.2 = x.2.2 ++ (before ++ after)) (late : fired x.2.1 = true ∨ before.Late) :
    c.Moment fired x y log after := by
  induction log generalizing x before with
  | nil =>
    cases leads
    obtain ⟨rfl, rfl⟩ := List.append_eq_nil_iff.1 (List.self_eq_append_right.1 trail)
    have fires := late.resolve_right fun late => late.ne_nil rfl
    exact .between rfl (.nil y) (.nil y) fires trail
  | cons note log ih =>
    have leads : (c.tracked fired).flat.Leads x ([note] ++ log) y := leads
    obtain ⟨z, one, rest⟩ := leads.of_append
    obtain ⟨T, goes, breaks⟩ := h.breaks_of_leads one
    exact .of_step one rest goes breaks (h.grows rest) (fun _ => ih rest) trail late

/-- If nothing is waited for, each mark has a note of its own. -/
lemma exists_note (leads : (c.tracked fired).flat.Leads x log y)
    (silent : ∀ note ∈ log, note.deed?.isSome) (trail : y.2.2 = x.2.2 ++ T) :
    ∀ m ∈ T, ∃ note ∈ log, note.deed? = some m.deed := by
  have single {x z : Session × S × Trail} {note : Note} (silent : note.deed?.isSome)
      (leads : (c.tracked fired).flat.Leads x [note] z) :
      ∃ m, z.2.2 = x.2.2 ++ [m] ∧ note.deed? = some m.deed := by
    cases leads with
    | awaited => cases silent
    | asked rest | acted _ rest | chosen _ rest =>
      cases rest
      exact ⟨_, rfl, rfl⟩
  induction log generalizing x T with
  | nil =>
    cases leads
    obtain rfl := List.self_eq_append_right.1 trail
    simp
  | cons note log ih =>
    have leads : (c.tracked fired).flat.Leads x ([note] ++ log) y := leads
    obtain ⟨z, one, rest⟩ := leads.of_append
    obtain ⟨k, goes, deed⟩ := single (silent note (by simp)) one
    obtain ⟨T', goes'⟩ := h.grows rest
    obtain rfl : k :: T' = T := by
      rw [goes', goes, List.append_assoc] at trail
      exact List.append_cancel_left trail
    intro m mem
    rcases List.mem_cons.1 mem with rfl | mem
    · exact ⟨note, by simp, deed⟩
    · obtain ⟨note', mem', deed'⟩ :=
        ih rest (fun note mem => silent note (List.mem_cons_of_mem _ mem)) goes' m mem
      exact ⟨note', List.mem_cons_of_mem _ mem', deed'⟩

end Client.Cancellable

end

end StagedTransfer
