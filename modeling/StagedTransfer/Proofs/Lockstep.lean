import Mathlib.Tactic.Lemma
import StagedTransfer.Transfer.Activity

/-!
# Environments in lockstep

Two environments that answer alike, each in its own way of taking steps, stay in lockstep for the
whole run of an activity. What alike means is a relation of steps that is kept when steps are put
together; with one environment on both sides this is a property that every run keeps.
-/

namespace StagedTransfer

/-- A relation of the steps of two kinds that is kept when steps are put together. -/
structure Lockstep (m n : Type → Type) [Monad m] [Monad n] where
  Alike : {α : Type} → m α → n α → Prop
  pure  : ∀ {α : Type} (a : α), Alike (Pure.pure a) (Pure.pure a)
  bind  : ∀ {α β : Type} {x : m α} {y : n α} {f : α → m β} {g : α → n β},
    Alike x y → (∀ a, Alike (f a) (g a)) → Alike (x >>= f) (y >>= g)

/-- Steps that lead from a state to such as it is related to. -/
def Lockstep.along {σ : Type} (R : σ → σ → Prop) (refl : ∀ x, R x x)
    (trans : ∀ {x y z}, R x y → R y z → R x z) : Lockstep (StateM σ) (StateM σ) where
  Alike f _ := ∀ x, R x (f x).2
  pure _ x := refl x
  bind hf hg x := trans (hf x) (hg _ _)

/-- Two environments answer alike. -/
structure Environment.Alike {m n : Type → Type} [Monad m] [Monad n] (l : Lockstep m n)
    (env : Environment m) (env' : Environment n) : Prop where
  cancelled : l.Alike env.cancelled env'.cancelled
  await     : ∀ w, l.Alike (env.await w) (env'.await w)
  act       : ∀ a, l.Alike (env.act a) (env'.act a)
  choose    : ∀ s, l.Alike (env.choose s) (env'.choose s)

namespace Environment.Alike

variable {m n : Type → Type} [Monad m] [Monad n] {l : Lockstep m n} {env : Environment m}
  {env' : Environment n} (h : env.Alike l env')

include h

lemma moveOf (file : String) (c : Sending.Choice) :
    l.Alike (env.moveOf file c) (env'.moveOf file c) := by
  cases c with
  | proceed =>
    exact l.bind h.cancelled fun _ => l.bind (h.act (.content file)) fun _ => l.pure _
  | begin n => exact l.pure _
  | finish n outcome => exact l.pure _

lemma sendFrom (file : String) (fuel : Nat) (s : Sending.State) :
    l.Alike (env.sendFrom file fuel s) (env'.sendFrom file fuel s) := by
  induction fuel generalizing s with
  | zero => exact l.pure _
  | succ fuel ih =>
    rw [Environment.sendFrom, Environment.sendFrom]
    split
    · exact l.pure _
    · refine l.bind (h.choose s) fun c => l.bind (h.moveOf file c) fun move => ?_
      rcases s.step move with ⟨t, e⟩
      cases e with
      | some e => exact l.bind (h.act (.emit e)) fun _ => ih _
      | none => exact ih _

/-- Whatever is done among environments that answer alike comes out alike. -/
theorem run {α : Type} (a : Activity α) : l.Alike (a.run env) (a.run env') := by
  induction a with
  | done r => exact l.pure r
  | act a next ih => exact l.bind (h.act a) ih
  | await w next ih =>
    rw [Activity.run, Activity.run]
    refine l.bind h.cancelled fun cancelled => ?_
    split
    · exact ih _
    · refine l.bind (h.await w) fun reply => ?_
      cases reply with
      | answered r => exact ih r
      | overrun o => exact l.pure _
  | send b next ih =>
    rw [Activity.run, Activity.run]
    refine l.bind h.cancelled fun cancelled => ?_
    split
    · exact ih _
    · refine l.bind (h.sendFrom b.file _ _) fun result => ?_
      cases result with
      | some r => exact ih r
      | none => exact l.pure _

end Environment.Alike

end StagedTransfer
