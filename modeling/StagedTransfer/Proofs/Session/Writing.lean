import StagedTransfer.Proofs.Session.Entries

/-!
# What a client writes down

For each step of a session, what a diary holds of it. All of it together says what the diary of a run
tells about the log of the run.
-/

namespace StagedTransfer

open Http

/-! ### Choices -/

/-- What is written down of a choice while parts are sent, what is chosen, and what the session keeps
then. -/
inductive Picks (s : Sending.State) (v : Session) : Diary → Sending.Choice → Session → Prop
  | proceed (told : Bool) : Picks s v (if told then [.cancelled] else []) .proceed v
  | begin {h : Sending.Held} {D : Diary} {x : Except GatewayError Response} (told : Bool)
    (held : h ∈ s.held) (sends : Sends (Store.put h.url h.data) none D x) :
    Picks s v ((if told then [.cancelled] else []) ++ D) (.begin h.number)
      { v with flights := (h.number, (x.bind Response.etag).mapError .ofGateway) :: v.flights }
  | finish {n : Nat} {outcome : Except TransferError String} (told : Bool)
    (found : v.flights.lookup n = some outcome) :
    Picks s v (if told then [.cancelled] else []) (.finish n outcome) v

namespace Picks

variable {s : Sending.State} {v w : Session} {D : Diary} {choice : Sending.Choice}
  (h : Picks s v D choice w)

include h

lemma token_eq : w.token = v.token := by
  cases h <;> rfl

/-- No request is sent but to the store with a part. -/
lemma put_of_mem {q : Request} (mem : q ∈ D.requests) :
    ∃ url data, (Store.put url data).request? none = some q := by
  cases h with
  | proceed | finish => simp at mem
  | @begin part _ _ _ _ sends =>
    rw [Diary.requests_append, Diary.requests_told, List.nil_append, sends.requests_eq] at mem
    exact ⟨part.url, part.data, by simpa using mem⟩

end Picks

/-! ### What a client writes down -/

namespace Client

variable {S : Type} (c : Client (StateM S)) (v : Session)

/-- What is written down of a call. -/
lemma writes_perform (call : Call) :
    (c.written.perform call).Writes v fun D reply w =>
      Performs c.gateway call v.token D reply w.token :=
  (c.writes_carry v _).imp fun _ _ _ ⟨_, yields⟩ => .of_yields yields

/-- A part that may go on its way is held. -/
lemma held_of_begin {s : Sending.State} {cancelled : Bool} {h : Sending.Held}
    (mem : .begin h ∈ turns s cancelled) : h ∈ s.held := by
  rcases List.mem_append.1 mem with mem | mem
  · obtain ⟨k, hk, same⟩ := List.mem_map.1 mem
    split at same
    · cases same
    · cases same
      exact hk
  · split at mem <;> simp at mem

lemma writes_await (w : Await) :
    (c.written.await w).Writes v fun D reply u => Awaits c.gateway w v.token D reply u.token := by
  apply (c.writes_heed v (.await c.gateway w)).bind
  rintro D r u heeds
  refine .pure ?_
  rw [List.append_nil]
  exact .of_heeds heeds

/-- Nothing is written down of what is done at once. -/
lemma writes_act (a : Act) : (c.written.act a).Writes v fun D _ w => D = [] ∧ w = v := by
  cases a <;> exact fun _ _ => ⟨[], rfl, rfl, rfl⟩

/-- What is written down of a choice while parts are sent. -/
lemma writes_choose (s : Sending.State) : (c.written.choose s).Writes v (Picks s v) := by
  apply (c.writes_cancelled v).bind
  rintro _ answer w ⟨rfl, rfl⟩
  refine Visit.Writes.bind (P := fun D _ u => D = [] ∧ u = w) (fun _ l => ⟨[], rfl, rfl, rfl⟩) ?_
  rintro _ n w ⟨rfl, rfl⟩
  -- one of the turns is taken, and that of the reader if there are none
  have among : (turns s answer).getD (n % (turns s answer).length) .proceed ∈ turns s answer ∨
      (turns s answer).getD (n % (turns s answer).length) .proceed = .proceed := by
    rw [List.getD_eq_getElem?_getD]
    cases found : (turns s answer)[n % (turns s answer).length]? with
    | none => exact .inr rfl
    | some turn => exact .inl (List.mem_of_getElem? found)
  generalize (turns s answer).getD _ _ = turn at among
  cases turn with
  | proceed =>
    refine .pure ?_
    rw [List.nil_append, List.append_nil]
    exact .proceed answer
  | begin h =>
    have held : h ∈ s.held := held_of_begin (among.resolve_right nofun)
    refine Visit.Writes.bind (P := fun D outcome u => u = w ∧ ∃ x,
      Sends (Store.put h.url h.data) none D x ∧
        outcome = (x.bind Response.etag).mapError .ofGateway) ?_ ?_
    · apply (c.writes_carry w (.ask _ none)).bind
      rintro D x u ⟨same, yields⟩
      obtain ⟨sends, kept⟩ := Sends.of_yields yields
      refine .pure ⟨same.trans (by rw [kept]), x, ?_, rfl⟩
      rwa [List.append_nil]
    · rintro D _ w ⟨rfl, x, sends, rfl⟩
      refine fun _ l => ⟨[], (List.append_nil l).symm, ?_⟩
      change Picks s w (_ ++ ([] ++ (D ++ []))) (.begin h.number) _
      rw [List.nil_append, List.append_nil]
      exact .begin answer held sends
  | finish n =>
    refine Visit.Writes.bind (P := fun D u u' => D = [] ∧ u = w ∧ u' = w)
      (fun _ l => ⟨[], (List.append_nil l).symm, rfl, rfl, rfl⟩) ?_
    rintro _ _ w ⟨rfl, rfl, rfl⟩
    cases found : w.flights.lookup n with
    | none =>
      refine .pure ?_
      rw [List.nil_append, List.nil_append, List.append_nil]
      exact .proceed answer
    | some outcome =>
      refine .pure ?_
      rw [List.nil_append, List.nil_append, List.append_nil]
      exact .finish answer found

end Client

/-! ### Diaries and logs -/

/-- What a wait comes to with a reply. -/
def Reply.ended {α : Type} : Reply TransferError α → Except Stop α
  | .answered (.ok a)    => .ok a
  | .answered (.error e) => .error (.failed e)
  | .overrun o           => .error (.overrun o)

/-- What a diary tells of the questions in a log, with the tokens that are kept before and after. -/
inductive Tells (g : Gateway) :
    Option AccessToken → Log → Diary → Option AccessToken → Prop
  | nil (k : Option AccessToken) : Tells g k [] [] k
  | cancelled {k k' : Option AccessToken} {log : Log} {D : Diary} (rest : Tells g k log D k') :
    Tells g k (.asked true :: log) (.cancelled :: D) k'
  | notCancelled {k k' : Option AccessToken} {log : Log} {D : Diary} (rest : Tells g k log D k') :
    Tells g k (.asked false :: log) D k'
  | awaited {w : Await} {k k' k'' : Option AccessToken} {log : Log} {D D' : Diary}
    {reply : Reply TransferError w.Answer} (awaits : Awaits g w k D reply k')
    (rest : Tells g k' log D' k'') :
    Tells g k (.awaited w reply :: log) (D ++ .awaited w reply :: D') k''
  | acted {k k' : Option AccessToken} {log : Log} {D : Diary} (a : Act) (x : a.Answer)
    (rest : Tells g k log D k') : Tells g k (.acted a x :: log) D k'
  | chosen {k k' : Option AccessToken} {log : Log} {D : Diary} (s : Sending.State)
    (c : Sending.Choice) (written : Diary) (rest : Tells g k log D k') :
    Tells g k (.chosen s c :: log) (written ++ D) k'

namespace Tells

variable {g : Gateway} {k k' : Option AccessToken} {log log' : Log} {D : Diary}

lemma of_nil (h : Tells g k [] D k') : D = [] ∧ k' = k := by
  cases h
  exact ⟨rfl, rfl⟩

lemma of_awaited {w : Await} {reply : Reply TransferError w.Answer}
    (h : Tells g k (.awaited w reply :: log) D k') :
    ∃ D' D'' k'', Awaits g w k D' reply k'' ∧ Tells g k'' log D'' k' ∧
      D = D' ++ .awaited w reply :: D'' := by
  cases h with
  | awaited awaits rest => exact ⟨_, _, _, awaits, rest, rfl⟩

lemma of_append (h : Tells g k (log ++ log') D k') :
    ∃ D' D'' k'', Tells g k log D' k'' ∧ Tells g k'' log' D'' k' ∧ D = D' ++ D'' := by
  induction log generalizing k D with
  | nil => exact ⟨[], D, k, .nil k, h, rfl⟩
  | cons note log ih =>
    cases h with
    | cancelled rest =>
      obtain ⟨D', D'', k'', first, last, rfl⟩ := ih rest
      exact ⟨_, D'', k'', .cancelled first, last, rfl⟩
    | notCancelled rest =>
      obtain ⟨D', D'', k'', first, last, rfl⟩ := ih rest
      exact ⟨D', D'', k'', .notCancelled first, last, rfl⟩
    | awaited awaits rest =>
      obtain ⟨D', D'', k'', first, last, rfl⟩ := ih rest
      exact ⟨_, D'', k'', .awaited awaits first, last, by simp⟩
    | acted a x rest =>
      obtain ⟨D', D'', k'', first, last, rfl⟩ := ih rest
      exact ⟨D', D'', k'', .acted a x first, last, rfl⟩
    | chosen s c written rest =>
      obtain ⟨D', D'', k'', first, last, rfl⟩ := ih rest
      exact ⟨_, D'', k'', .chosen s c written first, last, by simp⟩

/-- What is written down of a single wait. -/
lemma of_waits {w : Await} {r : Except Stop w.Answer} (waits : Activity.Waits w log r)
    (h : Tells g k log D k') :
    (D = [.cancelled] ∧ k' = k ∧ r = .error (.failed .cancelled)) ∨
      ∃ D' reply, Awaits g w k D' reply k' ∧ D = D' ++ [.awaited w reply] ∧ r = reply.ended := by
  cases waits with
  | giveUp =>
    cases h with
    | cancelled rest =>
      obtain ⟨rfl, rfl⟩ := rest.of_nil
      exact .inl ⟨rfl, rfl, rfl⟩
  | _ =>
    cases h with
    | notCancelled rest =>
      obtain ⟨D', _, k'', awaits, last, rfl⟩ := rest.of_awaited
      obtain ⟨rfl, rfl⟩ := last.of_nil
      exact .inr ⟨D', _, awaits, rfl, rfl⟩

end Tells

namespace Client

variable {S α : Type} (c : Client (StateM S))

/-- A diary tells of a log whatever it has told before. -/
lemma tells_of_leads {log : Log} {x y : Session × S × Diary} (h : c.keeping.flat.Leads x log y) :
    ∃ D, y.2.2 = x.2.2 ++ D ∧ Tells c.gateway x.1.token log D y.1.token := by
  -- On the steps that have been taken: each adds to what has been written down before.
  induction h with
  | nil x => exact ⟨[], (List.append_nil _).symm, .nil _⟩
  | @asked x y log _ ih =>
    obtain ⟨D, written, tells⟩ := ih
    obtain ⟨D', first, rfl, same⟩ := c.writes_cancelled x.1 x.2.1 x.2.2
    have first : (c.keeping.flat.cancelled x).2.2.2 = _ := first
    have same : (c.keeping.flat.cancelled x).2.1 = x.1 := same
    rw [first, List.append_assoc] at written
    rw [same] at tells
    refine ⟨_, written, ?_⟩
    change Tells _ _ (.asked (c.around.cancelled x.2.1).1 :: log)
      ((if (c.around.cancelled x.2.1).1 then [.cancelled] else []) ++ D) _
    cases (c.around.cancelled x.2.1).1 with
    | true => exact .cancelled tells
    | false => exact .notCancelled tells
  | @awaited x y log w _ ih =>
    obtain ⟨D, written, tells⟩ := ih
    obtain ⟨D', first, awaits⟩ := c.writes_await x.1 w x.2.1 x.2.2
    have noted : (c.keeping.flat.await w x).2.2.2 =
        x.2.2 ++ D' ++ [.awaited w (c.keeping.flat.await w x).1] :=
      congrArg (· ++ [Entry.awaited w (c.keeping.flat.await w x).1]) first
    rw [noted, List.append_assoc, List.append_assoc] at written
    exact ⟨_, by simpa using written, .awaited awaits tells⟩
  | @acted x y log a _ ih =>
    obtain ⟨D, written, tells⟩ := ih
    obtain ⟨_, first, rfl, same⟩ := c.writes_act x.1 a x.2.1 x.2.2
    have first : (c.keeping.flat.act a x).2.2.2 = _ := first
    have same : (c.keeping.flat.act a x).2.1 = x.1 := same
    rw [first, List.append_nil] at written
    rw [same] at tells
    exact ⟨D, written, .acted a _ tells⟩
  | @chosen x y log s _ ih =>
    obtain ⟨D, written, tells⟩ := ih
    obtain ⟨D', first, picks⟩ := c.writes_choose x.1 s x.2.1 x.2.2
    have first : (c.keeping.flat.choose s x).2.2.2 = _ := first
    have same : (c.keeping.flat.choose s x).2.1.token = x.1.token := picks.token_eq
    rw [first, List.append_assoc] at written
    rw [same] at tells
    exact ⟨_, written, .chosen s _ D' tells⟩

/-- The log of a run is that of a course of the activity to the result of the run, and leads from
where the run begins to where it ends. -/
theorem exists_leads (a : Activity α) (v : Session) (s : S) :
    ∃ log y, a.Course log (c.run a v s).1.1 ∧ c.keeping.flat.Leads (v, s, []) log y ∧
      y.2 = ((c.run a v s).2, c.diary a v s) := by
  have course := Activity.course_log c.keeping.flat a (v, s, [])
  have leads := c.keeping.flat.leads_log a (v, s, [])
  rw [c.keeping.run_flat] at course leads
  have same := c.run_keeping a v s
  have result : (Visit.flat (a.run c.keeping) (v, s, [])).1 = (c.run a v s).1.1 :=
    congrArg (·.1.1) same
  rw [result] at course
  exact ⟨_, _, course, leads, congrArg Prod.snd same⟩

/-- The diary of a run tells of a course of the activity to the result of the run. -/
theorem tells (a : Activity α) (v : Session) (s : S) :
    ∃ log k, a.Course log (c.run a v s).1.1 ∧ Tells c.gateway v.token log (c.diary a v s) k := by
  obtain ⟨log, y, course, leads, ends⟩ := c.exists_leads a v s
  obtain ⟨D, written, tells⟩ := c.tells_of_leads leads
  have whole : c.diary a v s = D := (congrArg Prod.snd ends).symm.trans written
  exact ⟨log, _, course, whole ▸ tells⟩

end Client

end StagedTransfer
