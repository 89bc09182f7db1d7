import StagedTransfer.Proofs.Sending.History
import StagedTransfer.Proofs.Session.Writing

/-!
# What has become of the parts

While parts are sent, a session keeps what has come of each of them until it is asked for it. So every
answer for a part is that to a request which took the part to its address, as it was held then.
-/

namespace StagedTransfer

open Http

/-! ### What is on its way stays there -/

/-- A step of a session after which the same parts are on their way. -/
def Visit.KeepsFlights {S α : Type} (x : Visit (StateM S) α) : Prop :=
  ∀ v s, x.Comes v s fun _ w _ => w.flights = v.flights

namespace Visit.KeepsFlights

variable {S α β : Type}

lemma pure (a : α) : KeepsFlights (Pure.pure a : Visit (StateM S) α) :=
  fun _ _ => rfl

lemma bind {x : Visit (StateM S) α} {f : α → Visit (StateM S) β} (h : x.KeepsFlights)
    (next : ∀ a, (f a).KeepsFlights) : (x >>= f).KeepsFlights :=
  fun v s => Visit.Comes.bind (h v s) fun a w t same => (next a w t).trans same

lemma lift (x : StateM S α) : KeepsFlights (liftM x : Visit (StateM S) α) :=
  fun _ _ => rfl

lemma get : KeepsFlights (get : Visit (StateM S) Session) :=
  fun _ _ => rfl

/-- A new token changes nothing on the way of the parts. -/
lemma keep (t : AccessToken) :
    KeepsFlights (modify fun s => { s with token := some t } : Visit (StateM S) Unit) :=
  fun _ _ => rfl

end Visit.KeepsFlights

namespace Client

open Visit (KeepsFlights)

variable {S : Type} (c : Client (StateM S))

/-- An errand brings no part on its way. -/
lemma keepsFlights_heed {α : Type} (e : Errand α) : KeepsFlights (c.heed e) := by
  induction e with
  | done a => exact .pure _
  | consult next ih => exact .bind .get fun v => .bind (.lift _) fun now => ih v.token now
  | keep t rest ih => exact .bind (.keep t) fun _ => ih
  | go leg next ih =>
    refine .bind (.lift _) fun x => .bind (.lift _) fun cancelled => ?_
    cases cancelled with
    | true => exact .pure _
    | false => exact ih x

lemma keepsFlights_await (w : Await) : KeepsFlights (c.await w) :=
  .bind (c.keepsFlights_heed _) fun _ => .pure _

lemma keepsFlights_act (a : Act) : KeepsFlights (c.act a) := by
  cases a <;> exact fun _ _ => rfl

end Client

/-! ### Answers for parts -/

/-- What has become of the part with a number: it went on its way when this was chosen, as it was held
then, and all that was written down of its request stands in the diary. -/
inductive Carried (log : Log) (D : Diary) : Nat → Except TransferError String → Prop
  | intro {s : Sending.State} {h : Sending.Held} {D' : Diary} {x : Except GatewayError Response}
    (chosen : .chosen s (.begin h.number) ∈ log) (held : h ∈ s.held)
    (sends : Sends (Store.put h.url h.data) none D' x) (written : D' ⊆ D) :
    Carried log D h.number ((x.bind Response.etag).mapError .ofGateway)

lemma Carried.mono {log log' : Log} {D D' : Diary} {n : Nat}
    {outcome : Except TransferError String} (h : Carried log D n outcome) (sub : log ⊆ log')
    (sub' : D ⊆ D') : Carried log' D' n outcome := by
  cases h with
  | intro chosen held sends written =>
    exact .intro (sub chosen) held sends (List.Subset.trans written sub')

/-- A tag is one that the store has given in the answer to the request for the part. -/
lemma Carried.of_ok {log : Log} {D : Diary} {n : Nat} {tag : String}
    (h : Carried log D n (.ok tag)) :
    ∃ s part q response, .chosen s (.begin n) ∈ log ∧ part ∈ s.held ∧ part.number = n ∧
      (Store.put part.url part.data).request? none = some q ∧
      .exchanged q (.answered response) ∈ D ∧ response.etag = .ok tag := by
  generalize same : Except.ok tag = outcome at h
  cases h with
  | @intro s part _ _ chosen held sends written =>
    cases sends with
    | unsendable | lost => cases same
    | answered request response =>
      refine ⟨s, part, _, response, chosen, held, rfl, request, written (List.mem_singleton_self _),
        ?_⟩
      change _ = (response.etag).mapError TransferError.ofGateway at same
      cases given : response.etag with
      | error e =>
        rw [given] at same
        cases same
      | ok tag' =>
        rw [given] at same
        exact congrArg _ (Except.ok.inj same).symm

lemma mem_of_lookup {α β : Type} [BEq α] [LawfulBEq α] {a : α} {b : β} {l : List (α × β)}
    (found : l.lookup a = some b) : (a, b) ∈ l := by
  obtain ⟨before, after, rfl, -⟩ := List.lookup_eq_some_iff.1 found
  simp

/-- What has become of all parts that are on their way is known. -/
def Known {S : Type} (log : Log) (x : Session × S × Diary) : Prop :=
  ∀ n outcome, (n, outcome) ∈ x.1.flights → Carried log x.2.2 n outcome

lemma Known.go {S : Type} {log : Log} {x y : Session × S × Diary} (h : Known log x)
    (flights : y.1.flights = x.1.flights) (written : x.2.2 ⊆ y.2.2) : Known log y :=
  fun n outcome mem => (h n outcome (flights ▸ mem)).mono (List.Subset.refl log) written

namespace Client

variable {S : Type} {c : Client (StateM S)} {whole : Log}

/-- Nothing that has been written down is lost. -/
lemma subset_of_leads {log : Log} {x y : Session × S × Diary} (h : c.keeping.flat.Leads x log y) :
    x.2.2 ⊆ y.2.2 := by
  obtain ⟨D, written, -⟩ := c.tells_of_leads h
  rw [written]
  exact List.subset_append_left _ _

/-- After a choice it is known what has become of the parts on their way, and so it has been of the
part for which an answer has come. -/
lemma known_choose {s : Sending.State} {x : Session × S × Diary} (known : Known whole x)
    (chosen : .chosen s (c.keeping.flat.choose s x).1 ∈ whole) :
    Known whole (c.keeping.flat.choose s x).2 ∧
      ∀ n outcome, (c.keeping.flat.choose s x).1 = .finish n outcome →
        Carried whole x.2.2 n outcome := by
  obtain ⟨D, written, picks⟩ := c.writes_choose x.1 s x.2.1 x.2.2
  have written : (c.keeping.flat.choose s x).2.2.2 = x.2.2 ++ D := written
  have sub : x.2.2 ⊆ (c.keeping.flat.choose s x).2.2.2 := by
    rw [written]
    exact List.subset_append_left _ _
  have picks : Picks s x.1 D (c.keeping.flat.choose s x).1 (c.keeping.flat.choose s x).2.1 := picks
  generalize (c.keeping.flat.choose s x).1 = choice at picks chosen
  generalize same : (c.keeping.flat.choose s x).2.1 = w at picks
  cases picks with
  | proceed => exact ⟨known.go (same ▸ rfl) sub, by simp⟩
  | @begin h D r _ held sends =>
    refine ⟨fun n outcome mem => ?_, by simp⟩
    rw [same] at mem
    rcases List.mem_cons.1 mem with here | mem
    · obtain ⟨rfl, rfl⟩ := Prod.mk.inj here
      refine .intro chosen held sends ?_
      rw [written]
      exact List.subset_append_of_subset_right _ (List.subset_append_right _ _)
    · exact (known n outcome mem).mono (List.Subset.refl whole) sub
  | finish _ found =>
    refine ⟨known.go (same ▸ rfl) sub, ?_⟩
    rintro _ _ ⟨rfl, rfl⟩
    exact known _ _ (mem_of_lookup found)

/-- If it is known at first what has become of the parts on their way, it is known of every part for
which an answer comes. -/
theorem carried_of_leads {log : Log} {x y : Session × S × Diary}
    (h : c.keeping.flat.Leads x log y) (sub : log ⊆ whole) (known : Known whole x) :
    ∀ s n outcome, .chosen s (.finish n outcome) ∈ log → Carried whole y.2.2 n outcome := by
  -- On the steps that have been taken: each of them leaves what is on its way known.
  induction h with
  | nil => simp
  | @asked x _ _ _ ih =>
    have known' : Known whole (c.keeping.flat.cancelled x).2 :=
      known.go rfl (subset_of_leads (.asked (.nil _)))
    have later := ih (List.cons_subset.1 sub).2 known'
    exact fun s n outcome mem => later s n outcome (by simpa using mem)
  | @awaited x _ _ w _ ih =>
    have known' : Known whole (c.keeping.flat.await w x).2 :=
      known.go (c.written.keepsFlights_await w x.1 x.2) (subset_of_leads (.awaited w (.nil _)))
    have later := ih (List.cons_subset.1 sub).2 known'
    exact fun s n outcome mem => later s n outcome (by simpa using mem)
  | @acted x _ _ a _ ih =>
    have known' : Known whole (c.keeping.flat.act a x).2 :=
      known.go (c.written.keepsFlights_act a x.1 x.2) (subset_of_leads (.acted a (.nil _)))
    have later := ih (List.cons_subset.1 sub).2 known'
    exact fun s n outcome mem => later s n outcome (by simpa using mem)
  | @chosen x y _ s rest ih =>
    obtain ⟨here, tail⟩ := List.cons_subset.1 sub
    obtain ⟨known', answered⟩ := known_choose known here
    intro s' n outcome mem
    rcases List.mem_cons.1 mem with same | mem
    · obtain ⟨-, finish⟩ := Note.chosen.inj same
      have written : x.2.2 ⊆ y.2.2 := subset_of_leads (.chosen s rest)
      exact (answered n outcome finish.symm).mono (List.Subset.refl whole) written
    · exact ih tail known' s' n outcome mem

end Client

end StagedTransfer
