import StagedTransfer.Proofs.Sending.Progress
import StagedTransfer.Session.Client

/-!
# Where visits lead

A session among surroundings that can be in different states goes on in one way. What a step comes
to is put together from what the steps it is made of come to, for activities as well as for single
steps of a session.
-/

namespace StagedTransfer

/-! ### Steps of a session -/

namespace Visit

variable {S α β : Type}

/-- What a step of a session comes to is as told. -/
def Comes (x : Visit (StateM S) α) (v : Session) (s : S) (Q : α → Session → S → Prop) : Prop :=
  Q (x v s).1.1 (x v s).1.2 (x v s).2

variable {v : Session} {s : S} {P Q : α → Session → S → Prop}

lemma Comes.imp {x : Visit (StateM S) α} (h : x.Comes v s P) (hPQ : ∀ a v s, P a v s → Q a v s) :
    x.Comes v s Q :=
  hPQ _ _ _ h

lemma Comes.bind {x : Visit (StateM S) α} {f : α → Visit (StateM S) β}
    {R : β → Session → S → Prop} (h : x.Comes v s P)
    (next : ∀ a v s, P a v s → (f a).Comes v s R) : (x >>= f).Comes v s R :=
  next _ _ _ h

end Visit

/-! ### Errands -/

namespace Client

lemma heed_bind {m : Type → Type} [Monad m] [LawfulMonad m] (c : Client m) {α β : Type}
    (e : Errand α) (f : α → Errand β) :
    c.heed (e >>= f) = (do
      match ← c.heed e with
      | some x => c.heed (f x)
      | none   => pure none) := by
  change c.heed (e.bind f) = _
  induction e with
  | done a => simp [Errand.bind, heed]
  | consult next ih => simp only [Errand.bind, heed, ih, bind_assoc]
  | keep t e ih => simp only [Errand.bind, heed, ih, bind_assoc]
  | go l next ih =>
    simp only [Errand.bind, heed, ih, bind_assoc]
    congr 1
    funext x
    congr 1
    funext cancelled
    cases cancelled <;> simp

variable {S α β : Type} {c : Client (StateM S)} {v : Session} {s : S}

/-- An errand that is not given up goes on with its value. -/
lemma comes_heed_bind {e : Errand α} {f : α → Errand β} {P : α → Session → S → Prop}
    {Q : Option β → Session → S → Prop}
    (h : (c.heed e).Comes v s fun r w t => ∃ x, r = some x ∧ P x w t)
    (next : ∀ x w t, P x w t → (c.heed (f x)).Comes w t Q) : (c.heed (e >>= f)).Comes v s Q := by
  rw [heed_bind]
  refine h.bind ?_
  rintro _ w t ⟨x, rfl, hP⟩
  exact next x w t hP

end Client

/-! ### Activities -/

namespace Activity

/-- An activity that goes on with the value of another runs after that one. -/
lemma run_bind {m : Type → Type} [Monad m] [LawfulMonad m] (env : Environment m) {α β : Type}
    (a : Activity α) (f : α → Activity β) :
    (a >>= f).run env = (do
      match ← a.run env with
      | .ok x    => (f x).run env
      | .error s => pure (.error s)) := by
  change (a.bind f).run env = _
  induction a with
  | done r => cases r <;> simp [Activity.bind, run]
  | act a next ih => simp only [Activity.bind, run, ih, bind_assoc]
  | await w next ih =>
    simp only [Activity.bind, run, bind_assoc]
    congr 1
    funext cancelled
    cases cancelled with
    | true => simp [ih]
    | false =>
      simp only [Bool.false_eq_true, if_false, bind_assoc]
      congr 1
      funext reply
      cases reply <;> simp [ih]
  | send b next ih =>
    simp only [Activity.bind, run, bind_assoc]
    congr 1
    funext cancelled
    cases cancelled with
    | true => simp [ih]
    | false =>
      simp only [Bool.false_eq_true, if_false, bind_assoc]
      congr 1
      funext result
      cases result <;> simp [ih]

lemma run_attempt {m : Type → Type} [Monad m] [LawfulMonad m] (env : Environment m) {α : Type}
    (a : Activity α) : a.attempt.run env = Course.attempted <$> a.run env := by
  induction a with
  | done r =>
    rcases r with (_ | _ | _) | x <;> simp [attempt, run, Course.attempted]
  | act a next ih => simp only [attempt, run, ih, map_bind]
  | await w next ih =>
    simp only [attempt, run, map_bind]
    congr 1
    funext cancelled
    cases cancelled with
    | true => simp [ih]
    | false =>
      simp only [Bool.false_eq_true, if_false, map_bind]
      congr 1
      funext reply
      cases reply <;> simp [ih, Course.attempted]
  | send b next ih =>
    simp only [attempt, run, map_bind]
    congr 1
    funext cancelled
    cases cancelled with
    | true => simp [ih]
    | false =>
      simp only [Bool.false_eq_true, if_false, map_bind]
      congr 1
      funext result
      cases result <;> simp [ih, Course.attempted]

variable {S α β : Type} (env : Environment (Visit (StateM S)))

/-- An activity ends with a value, and what it comes to is as told. -/
def Ends (a : Activity α) (v : Session) (s : S) (Q : α → Session → S → Prop) : Prop :=
  (a.run env).Comes v s fun r v s => ∃ x, r = .ok x ∧ Q x v s

variable {env} {v : Session} {s : S} {Q : α → Session → S → Prop}

lemma Ends.imp {R : α → Session → S → Prop} {a : Activity α} (h : a.Ends env v s R)
    (hRQ : ∀ x v s, R x v s → Q x v s) : a.Ends env v s Q := by
  obtain ⟨x, hx, hR⟩ := h
  exact ⟨x, hx, hRQ x _ _ hR⟩

lemma Ends.pure {x : α} (h : Q x v s) : (Pure.pure x : Activity α).Ends env v s Q :=
  ⟨x, rfl, h⟩

lemma Ends.ofExcept {x : α} (h : Q x v s) : (Activity.ofExcept (.ok x)).Ends env v s Q :=
  .pure h

lemma Ends.bind {P : α → Session → S → Prop} {R : β → Session → S → Prop} {a : Activity α}
    {f : α → Activity β} (h : a.Ends env v s P)
    (next : ∀ x v s, P x v s → (f x).Ends env v s R) : (a >>= f).Ends env v s R := by
  rw [Ends, run_bind]
  refine Visit.Comes.bind h ?_
  rintro _ v s ⟨x, rfl, hP⟩
  exact next x v s hP

lemma Ends.attempt {a : Activity α} (h : a.Ends env v s Q) :
    a.attempt.Ends env v s fun r v s => ∃ x, r = .ok x ∧ Q x v s := by
  rw [Ends, run_attempt]
  obtain ⟨x, hx, hQ⟩ := h
  refine ⟨.ok x, ?_, x, rfl, hQ⟩
  change Course.attempted _ = _
  rw [hx]
  rfl

lemma Ends.perform {a : Act} {Q : a.Answer → Session → S → Prop} (h : (env.act a).Comes v s Q) :
    (perform a).Ends env v s Q :=
  ⟨_, rfl, h⟩

section

variable {P : Session → S → Prop} (still : env.cancelled.Comes v s fun b v s => b = false ∧ P v s)

include still

lemma Ends.awaiting {w : Await} {Q : w.Answer → Session → S → Prop}
    (answer : ∀ v s, P v s → (env.await w).Comes v s fun r v s => ∃ x, r = .ok x ∧ Q x v s) :
    (awaiting w).Ends env v s Q := by
  rw [Ends, Activity.awaiting, Activity.run]
  apply still.bind
  rintro _ v s ⟨rfl, hP⟩
  apply (answer v s hP).bind
  rintro _ v s ⟨x, rfl, hQ⟩
  exact ⟨x, rfl, hQ⟩

lemma Ends.send {b : Batch} {Q : OrderedMap Nat String → Session → S → Prop}
    (sent : ∀ v s, P v s → (env.send b).Comes v s fun r v s => ∃ x, r = some (.ok x) ∧ Q x v s) :
    (Activity.send b Activity.ofExcept).Ends env v s Q := by
  rw [Ends, Activity.run]
  apply still.bind
  rintro _ v s ⟨rfl, hP⟩
  apply (sent v s hP).bind
  rintro _ v s ⟨x, rfl, hQ⟩
  exact ⟨x, rfl, hQ⟩

end

end Activity

/-! ### Sendings -/

namespace Environment

variable {S : Type} (env : Environment (Visit (StateM S))) (file : String)

/-- One turn of a sending that is not over. -/
def turn (s : Sending.State) : Visit (StateM S) Sending.State := do
  let move ← env.moveOf file (← env.choose s)
  env.tell (s.step move).2
  return (s.step move).1

variable {env file} {I : Sending.State → Session → S → Prop}
  {Q : Sending.Result → Session → S → Prop}

/-- A sending ends if each turn keeps an invariant and comes closer to the end. -/
lemma comes_sendFrom
    (turn : ∀ s v x, s.result = none → I s v x → (env.turn file s).Comes v x fun t v x =>
      (t.result = none ∧ t.weight < s.weight ∧ I t v x) ∨ ∃ r, t.result = some r ∧ Q r v x)
    {fuel : Nat} {s : Sending.State} {v : Session} {x : S} (open' : s.result = none)
    (bound : s.weight ≤ fuel) (inv : I s v x) :
    (env.sendFrom file fuel s).Comes v x fun r v x => ∃ y, r = some y ∧ Q y v x := by
  induction fuel generalizing s v x with
  | zero =>
    unfold Sending.State.weight at bound
    omega
  | succ n ih =>
    have split : env.sendFrom file (n + 1) s = env.turn file s >>= env.sendFrom file n := by
      rw [sendFrom_succ _ _ _ open', Environment.turn]
      simp only [bind_assoc, pure_bind]
    rw [split]
    apply (turn s v x open' inv).bind
    rintro t v x (⟨open', lighter, inv⟩ | ⟨r, ended, hQ⟩)
    · exact ih open' (by omega) inv
    · rw [sendFrom_of_result _ _ _ ended]
      exact ⟨r, rfl, hQ⟩

end Environment

end StagedTransfer
