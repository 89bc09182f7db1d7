import StagedTransfer.Proofs.Session.Diary

/-!
# What comes of an errand

An errand comes to a value, or it is given up after one of its legs. What a diary holds of it is told
leg by leg, and up to the leg after which it is given up.
-/

namespace StagedTransfer

open Http

/-! ### Steps that write down -/

section

variable {S α β : Type}

/-- Whatever the surroundings are, what a step of a session adds to a diary, the value that it yields
and what the session keeps then are as told. -/
def Visit.Writes (x : Visit (StateM (S × Diary)) α) (v : Session)
    (Q : Diary → α → Session → Prop) : Prop :=
  ∀ s l, x.Comes v (s, l) fun a w p => ∃ D, p.2 = l ++ D ∧ Q D a w

namespace Visit.Writes

variable {v : Session} {P Q : Diary → α → Session → Prop} {R : Diary → β → Session → Prop}

lemma pure {a : α} (h : Q [] a v) : (Pure.pure a : Visit (StateM (S × Diary)) α).Writes v Q :=
  fun _ l => ⟨[], (List.append_nil l).symm, h⟩

lemma bind {x : Visit (StateM (S × Diary)) α} {f : α → Visit (StateM (S × Diary)) β}
    (h : x.Writes v P)
    (next : ∀ D a w, P D a w → (f a).Writes w fun D' b u => R (D ++ D') b u) :
    (x >>= f).Writes v R := by
  intro s l
  refine (h s l).bind ?_
  rintro a w ⟨s, l'⟩ ⟨D, rfl, hP⟩
  obtain ⟨D', hD', hR⟩ := next D a w hP s (l ++ D)
  exact ⟨D ++ D', by rw [hD', List.append_assoc], hR⟩

lemma imp {x : Visit (StateM (S × Diary)) α} (h : x.Writes v P)
    (hPQ : ∀ D a w, P D a w → Q D a w) : x.Writes v Q :=
  fun s l => (h s l).imp fun _ _ _ ⟨D, hD, hP⟩ => ⟨D, hD, hPQ _ _ _ hP⟩

end Visit.Writes

end

/-! ### Legs and errands -/

/-- What is written down of a leg. -/
def Leg.entries : (l : Leg) → l.Answer → Diary
  | .size _, _               => []
  | .content _, _            => []
  | .token, reply            => [.granted reply]
  | .exchange r, outcome     => [.exchanged r outcome]
  | .write file body, result => [.wrote file body result]
  | .pause _, _              => []

namespace Errand

variable {α β : Type}

/-- An errand can come to a value, with a diary and with the tokens that are kept before and after. -/
inductive Yields : Errand α → Option AccessToken → Diary → α → Option AccessToken → Prop
  | done (a : α) (k : Option AccessToken) : Yields (.done a) k [] a k
  | consult {next : Option AccessToken → Instant → Errand α} {k k' : Option AccessToken} {D : Diary}
    {a : α} (now : Instant) (rest : Yields (next k now) k D a k') :
    Yields (.consult next) k (.looked now :: D) a k'
  | keep {t : AccessToken} {e : Errand α} {k k' : Option AccessToken} {D : Diary} {a : α}
    (rest : Yields e (some t) D a k') : Yields (.keep t e) k D a k'
  | go {l : Leg} {next : l.Answer → Errand α} {k k' : Option AccessToken} {D : Diary} {a : α}
    (x : l.Answer) (rest : Yields (next x) k D a k') : Yields (.go l next) k (l.entries x ++ D) a k'

/-- An errand can be given up after a leg, with a diary and with the tokens that are kept before and
after. -/
inductive Drops : Errand α → Option AccessToken → Diary → Option AccessToken → Prop
  | consult {next : Option AccessToken → Instant → Errand α} {k k' : Option AccessToken} {D : Diary}
    (now : Instant) (rest : Drops (next k now) k D k') : Drops (.consult next) k (.looked now :: D) k'
  | keep {t : AccessToken} {e : Errand α} {k k' : Option AccessToken} {D : Diary}
    (rest : Drops e (some t) D k') : Drops (.keep t e) k D k'
  | here {l : Leg} {next : l.Answer → Errand α} {k : Option AccessToken} (x : l.Answer) :
    Drops (.go l next) k (l.entries x) k
  | later {l : Leg} {next : l.Answer → Errand α} {k k' : Option AccessToken} {D : Diary}
    (x : l.Answer) (rest : Drops (next x) k D k') : Drops (.go l next) k (l.entries x ++ D) k'

variable {e : Errand α} {f : α → Errand β} {l : Leg} {k k' : Option AccessToken} {D : Diary}

/-! #### Values -/

namespace Yields

lemma of_pure {a b : α} (h : (pure a : Errand α).Yields k D b k') : D = [] ∧ b = a ∧ k' = k := by
  cases h
  exact ⟨rfl, rfl, rfl⟩

lemma of_consult {next : Option AccessToken → Instant → Errand α} {a : α}
    (h : (Errand.consult next).Yields k D a k') :
    ∃ now D', D = .looked now :: D' ∧ (next k now).Yields k D' a k' := by
  cases h with
  | consult now rest => exact ⟨now, _, rfl, rest⟩

lemma of_keep {t : AccessToken} {a : α} (h : (Errand.keep t e).Yields k D a k') :
    e.Yields (some t) D a k' := by
  cases h with
  | keep rest => exact rest

lemma of_leg {f : l.Answer → Errand β} {b : β} (h : (leg l >>= f).Yields k D b k') :
    ∃ x D', D = l.entries x ++ D' ∧ (f x).Yields k D' b k' := by
  cases h with
  | go x rest => exact ⟨x, _, rfl, rest⟩

lemma of_bind {b : β} (h : (e >>= f).Yields k D b k') :
    ∃ D₁ D₂ a k₁, D = D₁ ++ D₂ ∧ e.Yields k D₁ a k₁ ∧ (f a).Yields k₁ D₂ b k' := by
  change (e.bind f).Yields k D b k' at h
  induction e generalizing k D with
  | done a => exact ⟨[], D, a, k, rfl, .done a k, h⟩
  | consult next ih =>
    obtain ⟨now, D, rfl, rest⟩ := h.of_consult
    obtain ⟨D₁, D₂, a, k₁, rfl, first, last⟩ := ih k now rest
    exact ⟨_, D₂, a, k₁, rfl, .consult now first, last⟩
  | keep t e ih =>
    obtain ⟨D₁, D₂, a, k₁, rfl, first, last⟩ := ih h.of_keep
    exact ⟨D₁, D₂, a, k₁, rfl, .keep first, last⟩
  | go l next ih =>
    cases h with
    | go x rest =>
      obtain ⟨D₁, D₂, a, k₁, rfl, first, last⟩ := ih x rest
      exact ⟨_, D₂, a, k₁, (List.append_assoc ..).symm, .go x first, last⟩

end Yields

/-! #### Errands that are given up -/

namespace Drops

lemma of_consult {next : Option AccessToken → Instant → Errand α}
    (h : (Errand.consult next).Drops k D k') :
    ∃ now D', D = .looked now :: D' ∧ (next k now).Drops k D' k' := by
  cases h with
  | consult now rest => exact ⟨now, _, rfl, rest⟩

lemma of_leg {f : l.Answer → Errand β} (h : (leg l >>= f).Drops k D k') :
    (∃ x, D = l.entries x ∧ k' = k) ∨ ∃ x D', D = l.entries x ++ D' ∧ (f x).Drops k D' k' := by
  cases h with
  | here x => exact .inl ⟨x, rfl, rfl⟩
  | later x rest => exact .inr ⟨x, _, rfl, rest⟩

lemma of_bind (h : (e >>= f).Drops k D k') :
    e.Drops k D k' ∨
      ∃ D₁ D₂ a k₁, D = D₁ ++ D₂ ∧ e.Yields k D₁ a k₁ ∧ (f a).Drops k₁ D₂ k' := by
  change (e.bind f).Drops k D k' at h
  induction e generalizing k D with
  | done a => exact .inr ⟨[], D, a, k, rfl, .done a k, h⟩
  | consult next ih =>
    cases h with
    | consult now rest =>
      rcases ih k now rest with drops | ⟨D₁, D₂, a, k₁, rfl, first, last⟩
      · exact .inl (.consult now drops)
      · exact .inr ⟨_, D₂, a, k₁, rfl, .consult now first, last⟩
  | keep t e ih =>
    cases h with
    | keep rest =>
      rcases ih rest with drops | ⟨D₁, D₂, a, k₁, rfl, first, last⟩
      · exact .inl (.keep drops)
      · exact .inr ⟨D₁, D₂, a, k₁, rfl, .keep first, last⟩
  | go l next ih =>
    cases h with
    | here x => exact .inl (.here x)
    | later x rest =>
      rcases ih x rest with drops | ⟨D₁, D₂, a, k₁, rfl, first, last⟩
      · exact .inl (.later x drops)
      · exact .inr ⟨_, D₂, a, k₁, (List.append_assoc ..).symm, .go x first, last⟩

lemma of_pure {a : α} (h : (pure a : Errand α).Drops k D k') : False := by
  cases h

/-- What is made of the value of an errand makes no difference if it is given up. -/
lemma of_map {g : α → β} (h : (e >>= fun x => pure (g x)).Drops k D k') : e.Drops k D k' := by
  rcases h.of_bind with drops | ⟨_, _, _, _, -, -, last⟩
  · exact drops
  · exact last.of_pure.elim

end Drops

end Errand

/-! ### Clients that run them -/

namespace Client

variable {S α : Type} (c : Client (StateM S)) (v : Session)

lemma writes_now :
    (liftM c.written.around.now : Visit (StateM (S × Diary)) Instant).Writes v
      fun D now w => D = [.looked now] ∧ w = v :=
  fun _ _ => ⟨_, rfl, rfl, rfl⟩

lemma writes_cancelled :
    (liftM c.written.around.cancelled : Visit (StateM (S × Diary)) Bool).Writes v
      fun D told w => D = (if told then [.cancelled] else []) ∧ w = v :=
  fun _ _ => ⟨_, rfl, rfl, rfl⟩

lemma writes_get :
    (get : Visit (StateM (S × Diary)) Session).Writes v fun D u w => D = [] ∧ u = v ∧ w = v :=
  fun _ l => ⟨[], (List.append_nil l).symm, rfl, rfl, rfl⟩

lemma writes_keep (t : AccessToken) :
    (modify fun s => { s with token := some t } : Visit (StateM (S × Diary)) Unit).Writes v
      fun D _ w => D = [] ∧ w = { v with token := some t } :=
  fun _ l => ⟨[], (List.append_nil l).symm, rfl, rfl⟩

lemma writes_meet (l : Leg) :
    (liftM (c.written.meet l) : Visit (StateM (S × Diary)) l.Answer).Writes v
      fun D x w => D = l.entries x ∧ w = v := by
  cases l <;> exact fun _ _ => ⟨_, rfl, rfl, rfl⟩

/-- What is written down of an errand that is run to its end. -/
theorem writes_carry (e : Errand α) :
    (c.written.carry e).Writes v fun D a w =>
      w = { v with token := w.token } ∧ e.Yields v.token D a w.token := by
  induction e generalizing v with
  | done a => exact .pure ⟨rfl, .done a v.token⟩
  | consult next ih =>
    apply (writes_get v).bind
    rintro _ _ w ⟨rfl, rfl, rfl⟩
    apply (c.writes_now w).bind
    rintro _ now w ⟨rfl, rfl⟩
    exact (ih w.token now w).imp fun D a u ⟨same, rest⟩ => ⟨same, .consult now rest⟩
  | keep t e ih =>
    apply (writes_keep v t).bind
    rintro _ _ _ ⟨rfl, rfl⟩
    exact (ih _).imp fun D a u ⟨same, rest⟩ => ⟨same, .keep rest⟩
  | go l next ih =>
    apply (c.writes_meet v l).bind
    rintro _ x w ⟨rfl, rfl⟩
    exact (ih x w).imp fun D a u ⟨same, rest⟩ => ⟨same, .go x rest⟩

/-- What is written down of an errand that comes to a value or is given up. -/
inductive Heeds (e : Errand α) (k : Option AccessToken) :
    Diary → Option α → Option AccessToken → Prop
  | done {D : Diary} {a : α} {k' : Option AccessToken} (yields : e.Yields k D a k') :
    Heeds e k D (some a) k'
  | dropped {D : Diary} {k' : Option AccessToken} (drops : e.Drops k D k') :
    Heeds e k (D ++ [.cancelled]) none k'

theorem writes_heed (e : Errand α) :
    (c.written.heed e).Writes v fun D r w => Heeds e v.token D r w.token := by
  induction e generalizing v with
  | done a => exact .pure (.done (.done a v.token))
  | consult next ih =>
    apply (writes_get v).bind
    rintro _ _ w ⟨rfl, rfl, rfl⟩
    apply (c.writes_now w).bind
    rintro _ now w ⟨rfl, rfl⟩
    refine (ih w.token now w).imp fun D r u heeds => ?_
    cases heeds with
    | done yields => exact .done (.consult now yields)
    | dropped drops => exact .dropped (.consult now drops)
  | keep t e ih =>
    apply (writes_keep v t).bind
    rintro _ _ _ ⟨rfl, rfl⟩
    refine (ih _).imp fun D r u heeds => ?_
    cases heeds with
    | done yields => exact .done (.keep yields)
    | dropped drops => exact .dropped (.keep drops)
  | go l next ih =>
    apply (c.writes_meet v l).bind
    rintro _ x w ⟨rfl, rfl⟩
    apply (c.writes_cancelled w).bind
    rintro _ told w ⟨rfl, rfl⟩
    -- What a leg has written down stays, whether or not the errand goes on after it.
    cases told with
    | true =>
      refine .pure ?_
      exact .dropped (.here x)
    | false =>
      refine (ih x w).imp fun D r u heeds => ?_
      cases heeds with
      | done yields => exact .done (.go x yields)
      | @dropped D _ drops =>
        change Heeds _ _ (l.entries x ++ ([] ++ (D ++ [.cancelled]))) none u.token
        rw [List.nil_append, ← List.append_assoc]
        exact .dropped (.later x drops)

end Client

end StagedTransfer
