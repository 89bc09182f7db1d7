import StagedTransfer.Proofs.Lockstep
import StagedTransfer.Session.Client

/-!
# Sessions in lockstep

Clients whose surroundings answer alike give environments that answer alike. A session and its
surroundings can also be taken together, as one state of the other sides of a transfer.
-/

namespace StagedTransfer

namespace Lockstep

variable {m n : Type → Type} [Monad m] [Monad n] (l : Lockstep m n)

/-- Steps of a session that are alike whatever the session has kept. -/
def visits : Lockstep (Visit m) (Visit n) where
  Alike x y := ∀ v, l.Alike (x v) (y v)
  pure a v := l.pure (a, v)
  bind h next v := l.bind (h v) fun p => next p.1 p.2

lemma lift {α : Type} {x : m α} {y : n α} (h : l.Alike x y) :
    l.visits.Alike (liftM x : Visit m α) (liftM y) :=
  fun v => l.bind h fun a => l.pure (a, v)

lemma get : l.visits.Alike (get : Visit m Session) get :=
  fun v => l.pure (v, v)

lemma modify (f : Session → Session) :
    l.visits.Alike (modify f : Visit m Unit) (modify f) :=
  fun v => l.pure ((), f v)

end Lockstep

/-- The surroundings of two clients answer alike, and the clients know the same gateway. -/
structure Client.Alike {m n : Type → Type} [Monad m] [Monad n] (l : Lockstep m n) (c : Client m)
    (c' : Client n) : Prop where
  gateway   : c.gateway = c'.gateway
  source    : l.Alike c.source c'.source
  exchange  : ∀ r, l.Alike (c.around.exchange r) (c'.around.exchange r)
  now       : l.Alike c.around.now c'.around.now
  pause     : ∀ d, l.Alike (c.around.pause d) (c'.around.pause d)
  cancelled : l.Alike c.around.cancelled c'.around.cancelled
  size      : ∀ file, l.Alike (c.around.size file) (c'.around.size file)
  content   : ∀ file, l.Alike (c.around.content file) (c'.around.content file)
  write     : ∀ file content, l.Alike (c.around.write file content) (c'.around.write file content)
  prefer    : l.Alike c.around.prefer c'.around.prefer
  listen    : ∀ e, l.Alike (c.around.listen e) (c'.around.listen e)
  enter     : ∀ p, l.Alike (c.around.enter p) (c'.around.enter p)

namespace Client.Alike

variable {m n : Type → Type} [Monad m] [Monad n] {l : Lockstep m n} {c : Client m} {c' : Client n}
  (h : c.Alike l c')

include h

lemma meet (leg : Leg) : l.Alike (c.meet leg) (c'.meet leg) := by
  cases leg with
  | size file => exact h.size file
  | content file => exact h.content file
  | token => exact h.source
  | exchange r => exact h.exchange r
  | write file content => exact h.write file content
  | pause d => exact h.pause d

lemma carry {α : Type} (e : Errand α) : l.visits.Alike (c.carry e) (c'.carry e) := by
  induction e with
  | done a => exact l.visits.pure a
  | consult next ih =>
    exact l.visits.bind l.get fun v => l.visits.bind (l.lift h.now) fun now => ih v.token now
  | keep t rest ih => exact l.visits.bind (l.modify _) fun _ => ih
  | go leg next ih => exact l.visits.bind (l.lift (h.meet leg)) ih

lemma heed {α : Type} (e : Errand α) : l.visits.Alike (c.heed e) (c'.heed e) := by
  induction e with
  | done a => exact l.visits.pure _
  | consult next ih =>
    exact l.visits.bind l.get fun v => l.visits.bind (l.lift h.now) fun now => ih v.token now
  | keep t rest ih => exact l.visits.bind (l.modify _) fun _ => ih
  | go leg next ih =>
    refine l.visits.bind (l.lift (h.meet leg)) fun x => ?_
    refine l.visits.bind (l.lift h.cancelled) fun cancelled => ?_
    cases cancelled with
    | true => exact l.visits.pure _
    | false => exact ih x

lemma await (w : Await) : l.visits.Alike (c.await w) (c'.await w) := by
  rw [Client.await, Client.await, h.gateway]
  exact l.visits.bind (h.heed _) fun _ => l.visits.pure _

lemma act (a : Act) : l.visits.Alike (c.act a) (c'.act a) := by
  cases a with
  | size file => exact l.lift (h.size file)
  | content file => exact l.lift (h.content file)
  | emit e => exact l.lift (h.listen e)
  | enter p => exact l.lift (h.enter p)

lemma choose (s : Sending.State) : l.visits.Alike (c.choose s) (c'.choose s) := by
  refine l.visits.bind (l.lift h.cancelled) fun cancelled => ?_
  refine l.visits.bind (l.lift h.prefer) fun preferred => ?_
  cases (turns s cancelled).getD (preferred % (turns s cancelled).length) .proceed with
  | proceed => exact l.visits.pure _
  | begin k =>
    refine l.visits.bind (l.visits.bind (h.carry _) fun _ => l.visits.pure _) fun _ => ?_
    exact l.visits.bind (l.modify _) fun _ => l.visits.pure _
  | finish number =>
    refine l.visits.bind l.get fun v => ?_
    cases v.flights.lookup number <;> exact l.visits.pure _

theorem environment : c.environment.Alike l.visits c'.environment where
  cancelled := l.lift h.cancelled
  await     := h.await
  act       := h.act
  choose    := h.choose

end Client.Alike

/-! ### The session as one of the other sides -/

section

variable {S α : Type}

/-- The step as one on the session together with its surroundings. -/
def Visit.flat (x : Visit (StateM S) α) : StateM (Session × S) α := fun p =>
  ((x p.1 p.2).1.1, (x p.1 p.2).1.2, (x p.1 p.2).2)

/-- The environment in which the session is one of the other sides. -/
def Environment.flat (env : Environment (Visit (StateM S))) :
    Environment (StateM (Session × S)) where
  cancelled := env.cancelled.flat
  await w   := (env.await w).flat
  act a     := (env.act a).flat
  choose s  := (env.choose s).flat

/-- Steps that are the same but for where the session is kept. -/
def Lockstep.flat (S : Type) : Lockstep (StateM (Session × S)) (Visit (StateM S)) where
  Alike x y := x = y.flat
  pure _ := rfl
  bind h next := by
    subst h
    funext p
    exact congrFun (next _) _

lemma Environment.alike_flat (env : Environment (Visit (StateM S))) :
    env.flat.Alike (.flat S) env := by
  constructor <;> intros <;> rfl

/-- An activity comes to the same wherever the session is kept. -/
lemma Environment.run_flat (env : Environment (Visit (StateM S))) (a : Activity α) :
    a.run env.flat = Visit.flat (a.run env) :=
  env.alike_flat.run a

lemma Environment.send_flat (env : Environment (Visit (StateM S))) (b : Batch) :
    env.flat.send b = Visit.flat (env.send b) :=
  env.alike_flat.sendFrom b.file _ _

end

end StagedTransfer
