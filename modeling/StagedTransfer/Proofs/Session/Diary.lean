import StagedTransfer.Proofs.Leads
import StagedTransfer.Proofs.Session.Lockstep
import StagedTransfer.Proofs.Session.Visit

/-!
# Diaries

A session can keep a diary of what it finds around it: the looks at the time, the tokens that it is
granted, the requests that it sends and the files that it writes, and what has come of all that it
has waited for. A diary changes nothing, and it is put together from what each step writes down.
-/

namespace StagedTransfer

open Http

/-- What is written down of a step of a session. -/
inductive Entry
  /-- Whoever has asked has been told that the transfer has been cancelled. -/
  | cancelled
  | looked (now : Instant)
  /-- What has come of the question for a new token. -/
  | granted (reply : Reply TokenError AccessToken)
  | exchanged (r : Request) (o : Outcome)
  | wrote (file : String) (content : Bytes) (result : Except IoError Unit)
  | awaited (w : Await) (reply : Reply TransferError w.Answer)

abbrev Diary := List Entry

namespace Diary

/-- The requests that have been sent, in order. -/
def requests (D : Diary) : List Request :=
  D.filterMap fun
    | .exchanged q _ => some q
    | _              => none

variable {D D' : Diary}

@[simp] lemma requests_nil : requests [] = [] :=
  rfl

@[simp] lemma requests_told (told : Bool) :
    requests (if told then [.cancelled] else []) = [] := by
  cases told <;> rfl

@[simp] lemma requests_append : requests (D ++ D') = D.requests ++ D'.requests :=
  List.filterMap_append

lemma mem_requests {q : Request} : q ∈ D.requests ↔ ∃ o, .exchanged q o ∈ D := by
  refine List.mem_filterMap.trans ⟨?_, fun ⟨o, mem⟩ => ⟨_, mem, rfl⟩⟩
  rintro ⟨x, mem, sent⟩
  cases x with
  | exchanged q' o =>
    obtain rfl := Option.some.inj sent
    exact ⟨o, mem⟩
  | _ => cases sent

/-- An entry stands in the first of two parts of a diary or in the second. -/
lemma append_split {before after : Diary} {x : Entry} (h : D ++ D' = before ++ x :: after) :
    (∃ between, before = D ++ between ∧ D' = between ++ x :: after) ∨
      ∃ between, D = before ++ x :: between ∧ after = between ++ D' := by
  rcases List.append_eq_append_iff.1 h with ⟨between, rfl, rfl⟩ | ⟨_ | ⟨y, between⟩, rfl, tail⟩
  · exact .inl ⟨between, rfl, rfl⟩
  · exact .inl ⟨[], by simp, by simpa using tail.symm⟩
  · obtain ⟨rfl, rfl⟩ := List.cons.inj tail
    exact .inr ⟨between, rfl, rfl⟩

/-- An entry that stands in a diary once stands in one place. -/
lemma eq_of_split (first : Diary) {last before after : Diary} {x y : Entry}
    (split : first ++ x :: last = before ++ y :: after) (outside : y ∉ first) (outside' : y ∉ last) :
    before = first ∧ y = x ∧ after = last := by
  obtain ⟨rfl, rfl, rfl⟩ := (List.append_cons_inj_of_notMem outside outside').1 split
  exact ⟨rfl, rfl, rfl⟩

end Diary

/-! ### Keeping a diary -/

section

variable {S α : Type}

/-- The step, which writes down what has come of it. -/
def writing (x : StateM S α) (entries : α → Diary) : StateM (S × Diary) α := fun p =>
  ((x p.1).1, (x p.1).2, p.2 ++ entries (x p.1).1)

/-- The same surroundings, of which a diary is kept. -/
def Surroundings.written (around : Surroundings (StateM S)) :
    Surroundings (StateM (S × Diary)) where
  exchange r         := writing (around.exchange r) fun o => [.exchanged r o]
  now                := writing around.now fun now => [.looked now]
  pause d            := writing (around.pause d) fun _ => []
  cancelled          := writing around.cancelled fun told => if told then [.cancelled] else []
  size file          := writing (around.size file) fun _ => []
  content file       := writing (around.content file) fun _ => []
  write file content := writing (around.write file content) fun r => [.wrote file content r]
  prefer             := writing around.prefer fun _ => []
  listen e           := writing (around.listen e) fun _ => []
  enter p            := writing (around.enter p) fun _ => []

/-- The same client, who keeps a diary. -/
def Client.written (c : Client (StateM S)) : Client (StateM (S × Diary)) where
  around  := c.around.written
  gateway := c.gateway
  source  := writing c.source fun reply => [.granted reply]

/-- The environment of a session that keeps a diary. -/
def Client.keeping (c : Client (StateM S)) : Environment (Visit (StateM (S × Diary))) :=
  { c.written.environment with
    await := fun w => do
      let reply ← c.written.await w
      let _ ← (writing (pure ()) fun _ => [.awaited w reply] : StateM (S × Diary) Unit)
      return reply }

/-- The diary of a run. -/
def Client.diary (c : Client (StateM S)) (a : Activity α) (v : Session) (s : S) : Diary :=
  (a.run c.keeping v (s, [])).2.2

/-! ### A diary changes nothing -/

/-- Steps of which one keeps a list of what it does and the other does not. -/
def Lockstep.keeping (S β : Type) : Lockstep (StateM (S × List β)) (StateM S) where
  Alike x y := ∀ s l, ∃ l', x (s, l) = ((y s).1, (y s).2, l')
  pure _ _ l := ⟨l, rfl⟩
  bind {_ _ x y f g} hx hf s l := by
    obtain ⟨l', same⟩ := hx s l
    obtain ⟨l'', same'⟩ := hf (y s).1 (y s).2 l'
    refine ⟨l'', ?_⟩
    change f (x (s, l)).1 (x (s, l)).2 = _
    rw [same]
    exact same'

namespace Client

variable (c : Client (StateM S))

lemma written_alike : c.written.Alike (.keeping S Entry) c where
  gateway         := rfl
  source _ _      := ⟨_, rfl⟩
  exchange _ _ _  := ⟨_, rfl⟩
  now _ _         := ⟨_, rfl⟩
  pause _ _ _     := ⟨_, rfl⟩
  cancelled _ _   := ⟨_, rfl⟩
  size _ _ _      := ⟨_, rfl⟩
  content _ _ _   := ⟨_, rfl⟩
  write _ _ _ _   := ⟨_, rfl⟩
  prefer _ _      := ⟨_, rfl⟩
  listen _ _ _    := ⟨_, rfl⟩
  enter _ _ _     := ⟨_, rfl⟩

lemma await_keeping (w : Await) (v : Session) (p : S × Diary) :
    c.keeping.await w v p = ((c.written.await w v p).1, (c.written.await w v p).2.1,
      (c.written.await w v p).2.2 ++ [.awaited w (c.written.await w v p).1.1]) :=
  rfl

lemma keeping_alike : c.keeping.Alike (Lockstep.keeping S Entry).visits c.environment where
  cancelled := c.written_alike.environment.cancelled
  await w v s l := by
    obtain ⟨l', same⟩ := c.written_alike.await w v s l
    refine ⟨l' ++ [.awaited w (c.await w v s).1.1], ?_⟩
    rw [await_keeping, same]
    rfl
  act := c.written_alike.environment.act
  choose := c.written_alike.environment.choose

/-- A run comes to the same whether a diary is kept or not. -/
theorem run_keeping (a : Activity α) (v : Session) (s : S) :
    a.run c.keeping v (s, []) = ((c.run a v s).1, (c.run a v s).2, c.diary a v s) := by
  obtain ⟨l, same⟩ := c.keeping_alike.run a v s []
  rw [diary, same]
  rfl

end Client

/-! ### Diaries put together -/

/-- Steps that add to a diary whatever it holds. -/
def Lockstep.adding (S : Type) : Lockstep (StateM (S × Diary)) (StateM (S × Diary)) where
  Alike x _ := ∀ s l, x (s, l) = ((x (s, [])).1, (x (s, [])).2.1, l ++ (x (s, [])).2.2)
  pure _ _ l := by
    change _ = (_, _, l ++ [])
    rw [List.append_nil]
    rfl
  bind {_ _ x _ f _} hx hf s l := by
    change f (x (s, l)).1 (x (s, l)).2 =
      ((f (x (s, [])).1 (x (s, [])).2).1, (f (x (s, [])).1 (x (s, [])).2).2.1,
        l ++ (f (x (s, [])).1 (x (s, [])).2).2.2)
    rw [hx s l, hf _ (x (s, [])).2.1 (l ++ (x (s, [])).2.2), hf _ (x (s, [])).2.1 (x (s, [])).2.2,
      List.append_assoc]

namespace Client

variable (c : Client (StateM S))

lemma written_adding : c.written.Alike (.adding S) c.written where
  gateway         := rfl
  source _ _      := rfl
  exchange _ _ _  := rfl
  now _ _         := rfl
  pause _ _ _     := rfl
  cancelled _ _   := rfl
  size _ _ _      := rfl
  content _ _ _   := rfl
  write _ _ _ _   := rfl
  prefer _ _      := rfl
  listen _ _ _    := rfl
  enter _ _ _     := rfl

lemma keeping_adding : c.keeping.Alike (Lockstep.adding S).visits c.keeping where
  cancelled := c.written_adding.environment.cancelled
  await w v s l := by
    rw [await_keeping, await_keeping, c.written_adding.await w v s l, List.append_assoc]
  act := c.written_adding.environment.act
  choose := c.written_adding.environment.choose

/-- What has been written down before a run stays as it is. -/
lemma run_keeping_append (a : Activity α) (v : Session) (s : S) (l : Diary) :
    a.run c.keeping v (s, l) = ((c.run a v s).1, (c.run a v s).2, l ++ c.diary a v s) := by
  rw [c.keeping_adding.run a v s l, run_keeping]

variable {c} {β : Type} {a : Activity α} {v : Session} {s : S}

/-- Diaries and results that come of two runs at once. -/
lemma eq_and_diary_eq {r r' : (Except Stop β × Session) × S} {D D' : Diary}
    (whole : (r.1, r.2, D) = (r'.1, r'.2, D')) : r = r' ∧ D = D' := by
  obtain ⟨first, rest⟩ := Prod.mk.inj whole
  obtain ⟨second, third⟩ := Prod.mk.inj rest
  exact ⟨Prod.ext first second, third⟩

lemma run_keeping_bind (f : α → Activity β) :
    (a >>= f).run c.keeping v (s, []) =
      (match (c.run a v s).1.1 with
        | .ok x    => (f x).run c.keeping
        | .error e => pure (.error e) : Visit _ _)
      (c.run a v s).1.2 ((c.run a v s).2, c.diary a v s) := by
  rw [Activity.run_bind]
  change (match (a.run c.keeping v (s, [])).1.1 with
    | .ok x    => (f x).run c.keeping
    | .error e => pure (.error e) : Visit _ _) (a.run c.keeping v (s, [])).1.2
      (a.run c.keeping v (s, [])).2 = _
  rw [run_keeping]

/-- An activity that goes on with the value of another comes to what it comes to after that one. -/
theorem run_bind_ok {x : α} (ended : (c.run a v s).1.1 = .ok x) (f : α → Activity β) :
    c.run (a >>= f) v s = c.run (f x) (c.run a v s).1.2 (c.run a v s).2 ∧
      c.diary (a >>= f) v s =
        c.diary a v s ++ c.diary (f x) (c.run a v s).1.2 (c.run a v s).2 := by
  have whole := run_keeping_bind (c := c) (a := a) (v := v) (s := s) f
  rw [ended, run_keeping] at whole
  dsimp only at whole
  rw [run_keeping_append] at whole
  exact eq_and_diary_eq whole

/-- An activity ends where one does with whose value it would go on. -/
theorem run_bind_error {e : Stop} (ended : (c.run a v s).1.1 = .error e) (f : α → Activity β) :
    c.run (a >>= f) v s = ((.error e, (c.run a v s).1.2), (c.run a v s).2) ∧
      c.diary (a >>= f) v s = c.diary a v s := by
  have whole := run_keeping_bind (c := c) (a := a) (v := v) (s := s) f
  rw [ended, run_keeping] at whole
  exact eq_and_diary_eq whole

/-- What is made of the value of an activity is not written down. -/
theorem run_map (f : α → β) :
    c.run (a >>= fun x => pure (f x)) v s =
        (((c.run a v s).1.1.map f, (c.run a v s).1.2), (c.run a v s).2) ∧
      c.diary (a >>= fun x => pure (f x)) v s = c.diary a v s := by
  cases ended : (c.run a v s).1.1 with
  | ok x =>
    obtain ⟨run, diary⟩ := run_bind_ok ended fun x => pure (f x)
    rw [run, diary]
    exact ⟨rfl, List.append_nil _⟩
  | error e => exact run_bind_error ended _

end Client

/-! ### What a diary tells of the surroundings -/

/-- What all that is written down on the way from one state of the surroundings to another tells of
them. -/
structure Diary.Account (S : Type) where
  Holds  : S → Diary → S → Prop
  nil    : ∀ s, Holds s [] s
  append : ∀ {s t u D D'}, Holds s D t → Holds t D' u → Holds s (D ++ D') u

/-- Steps of which the account holds. -/
def Lockstep.telling (A : Diary.Account S) : Lockstep (StateM (S × Diary)) (StateM (S × Diary)) :=
  .along (fun p q => ∃ D, q.2 = p.2 ++ D ∧ A.Holds p.1 D q.1)
    (fun p => ⟨[], (List.append_nil _).symm, A.nil p.1⟩) <| by
      rintro p q r ⟨D, first, told⟩ ⟨D', rest, told'⟩
      exact ⟨D ++ D', by rw [rest, first, List.append_assoc], A.append told told'⟩

namespace Client

variable {c : Client (StateM S)} {A : Diary.Account S} (told : c.written.Alike (.telling A) c.written)
  (noted : ∀ s w reply, A.Holds s [.awaited w reply] s)

include told noted

lemma keeping_telling : c.keeping.Alike (Lockstep.telling A).visits c.keeping where
  cancelled := told.environment.cancelled
  await w := by
    refine (Lockstep.telling A).visits.bind (told.environment.await w) fun reply => ?_
    refine (Lockstep.telling A).visits.bind ?_ fun _ => (Lockstep.telling A).visits.pure reply
    exact (Lockstep.telling A).lift fun p => ⟨_, rfl, noted p.1 w reply⟩
  act := told.environment.act
  choose := told.environment.choose

/-- The diary of a run gives an account of the run. -/
theorem diary_telling (a : Activity α) (v : Session) (s : S) :
    A.Holds s (c.diary a v s) (c.run a v s).2 := by
  obtain ⟨D, written, holds⟩ := (keeping_telling told noted).run a v (s, [])
  rw [run_keeping] at written holds
  have whole : c.diary a v s = D := written
  rw [whole]
  exact holds

/-- What is written down while a log leads on gives an account of where it leads. -/
theorem leads_telling {log : Log} {x y : Session × S × Diary} (h : c.keeping.flat.Leads x log y) :
    ∃ D, y.2.2 = x.2.2 ++ D ∧ A.Holds x.2.1 D y.2.1 := by
  have alike := keeping_telling told noted
  have goes {x y z : Session × S × Diary} (first : ∃ D, y.2.2 = x.2.2 ++ D ∧ A.Holds x.2.1 D y.2.1)
      (rest : ∃ D, z.2.2 = y.2.2 ++ D ∧ A.Holds y.2.1 D z.2.1) :
      ∃ D, z.2.2 = x.2.2 ++ D ∧ A.Holds x.2.1 D z.2.1 := by
    obtain ⟨D, first, holds⟩ := first
    obtain ⟨D', rest, holds'⟩ := rest
    exact ⟨D ++ D', by rw [rest, first, List.append_assoc], A.append holds holds'⟩
  induction h with
  | nil x => exact ⟨[], (List.append_nil _).symm, A.nil _⟩
  | @asked x _ _ _ ih => exact goes (alike.cancelled x.1 x.2) ih
  | @awaited x _ _ w _ ih => exact goes (alike.await w x.1 x.2) ih
  | @acted x _ _ a _ ih => exact goes (alike.act a x.1 x.2) ih
  | @chosen x _ _ s _ ih => exact goes (alike.choose s x.1 x.2) ih

end Client

end

end StagedTransfer
