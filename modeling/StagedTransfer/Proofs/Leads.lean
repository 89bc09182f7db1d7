import Mathlib.Tactic.Lemma
import StagedTransfer.Proofs.Course
import StagedTransfer.Proofs.Lockstep

/-!
# Where logs lead

Each question of a run is put to the other sides in some state and leaves them in another. So a log
leads from the state before a run to the state after it, and each of its beginnings leads to the
state that the run has come to by then.
-/

namespace StagedTransfer.Environment

variable {σ : Type} {env : Environment (StateM σ)} {x y z : σ} {log log' : Log}

/-- The questions in a log lead from one state of the other sides to another. -/
inductive Leads (env : Environment (StateM σ)) : σ → Log → σ → Prop
  | nil (x : σ) : Leads env x [] x
  | asked {x y : σ} {log : Log} (rest : Leads env (env.cancelled x).2 log y) :
    Leads env x (.asked (env.cancelled x).1 :: log) y
  | awaited {x y : σ} {log : Log} (w : Await) (rest : Leads env (env.await w x).2 log y) :
    Leads env x (.awaited w (env.await w x).1 :: log) y
  | acted {x y : σ} {log : Log} (a : Act) (rest : Leads env (env.act a x).2 log y) :
    Leads env x (.acted a (env.act a x).1 :: log) y
  | chosen {x y : σ} {log : Log} (s : Sending.State) (rest : Leads env (env.choose s x).2 log y) :
    Leads env x (.chosen s (env.choose s x).1 :: log) y

namespace Leads

lemma append (first : env.Leads x log y) (rest : env.Leads y log' z) :
    env.Leads x (log ++ log') z := by
  induction first with
  | nil => exact rest
  | asked _ ih => exact .asked (ih rest)
  | awaited w _ ih => exact .awaited w (ih rest)
  | acted a _ ih => exact .acted a (ih rest)
  | chosen s _ ih => exact .chosen s (ih rest)

lemma of_asked {b : Bool} (h : env.Leads x (.asked b :: log) y) :
    (env.cancelled x).1 = b ∧ env.Leads (env.cancelled x).2 log y := by
  cases h with
  | asked rest => exact ⟨rfl, rest⟩

lemma of_awaited {w : Await} {reply : Reply TransferError w.Answer}
    (h : env.Leads x (.awaited w reply :: log) y) :
    (env.await w x).1 = reply ∧ env.Leads (env.await w x).2 log y := by
  cases h with
  | awaited _ rest => exact ⟨rfl, rest⟩

lemma of_acted {a : Act} {answer : a.Answer} (h : env.Leads x (.acted a answer :: log) y) :
    (env.act a x).1 = answer ∧ env.Leads (env.act a x).2 log y := by
  cases h with
  | acted _ rest => exact ⟨rfl, rest⟩

lemma of_chosen {s : Sending.State} {c : Sending.Choice} (h : env.Leads x (.chosen s c :: log) y) :
    (env.choose s x).1 = c ∧ env.Leads (env.choose s x).2 log y := by
  cases h with
  | chosen _ rest => exact ⟨rfl, rest⟩

lemma of_append (h : env.Leads x (log ++ log') z) : ∃ y, env.Leads x log y ∧ env.Leads y log' z := by
  induction log generalizing x with
  | nil => exact ⟨x, .nil x, h⟩
  | cons note log ih =>
    rw [List.cons_append] at h
    cases h with
    | asked rest =>
      obtain ⟨y, first, rest⟩ := ih rest
      exact ⟨y, .asked first, rest⟩
    | awaited w rest =>
      obtain ⟨y, first, rest⟩ := ih rest
      exact ⟨y, .awaited w first, rest⟩
    | acted a rest =>
      obtain ⟨y, first, rest⟩ := ih rest
      exact ⟨y, .acted a first, rest⟩
    | chosen s rest =>
      obtain ⟨y, first, rest⟩ := ih rest
      exact ⟨y, .chosen s first, rest⟩

end Leads

/-- The steps that lead on from where a log leads, as the log grows. -/
def leading (env : Environment (StateM σ)) (x : σ) : Lockstep (StateM (σ × Log)) (StateM (σ × Log)) :=
  .along (fun p q => env.Leads x p.2 p.1 → env.Leads x q.2 q.1) (fun _ h => h)
    fun first rest h => rest (first h)

lemma leading_recorded (env : Environment (StateM σ)) (x : σ) :
    env.recorded.Alike (leading env x) env.recorded where
  cancelled _ h := h.append (.asked (.nil _))
  await w _ h := h.append (.awaited w (.nil _))
  act a _ h := h.append (.acted a (.nil _))
  choose s _ h := h.append (.chosen s (.nil _))

/-- The log of a run leads to the state after the run. -/
theorem leads_log {α : Type} (env : Environment (StateM σ)) (a : Activity α) (x : σ) :
    env.Leads x (a.log env x) (a.run env x).2 := by
  have leads := (env.leading_recorded x).run a (x, []) (.nil x)
  rwa [Activity.run_recorded_start] at leads

/-! ### Sendings -/

section

variable {file : String} {e : Option Event} {c : Sending.Choice} {m : Sending.Move} {notes : Log}

lemma Leads.of_told (h : env.Leads x (Sending.told e ++ log) y) :
    env.Leads (env.tell e x).2 log y := by
  cases e with
  | none => exact h
  | some e => exact h.of_acted.2

lemma Leads.of_amounts (amounts : Sending.Amounts file c notes m) (h : env.Leads x (notes ++ log) y) :
    (env.moveOf file c x).1 = m ∧ env.Leads (env.moveOf file c x).2 log y := by
  cases amounts with
  | proceed cancelled content =>
    obtain ⟨rfl, later⟩ := h.of_asked
    obtain ⟨rfl, last⟩ := later.of_acted
    exact ⟨rfl, last⟩
  | begin n => exact ⟨rfl, h⟩
  | finish n outcome => exact ⟨rfl, h⟩

/-- A sending comes to what the course comes to that its log tells of. -/
lemma Leads.sendFrom_eq {fuel : Nat} {s t : Sending.State}
    (course : Sending.Course file fuel s log t) (h : env.Leads x log y) :
    env.sendFrom file fuel s x = (t.result, y) := by
  induction course generalizing x with
  | spent s =>
    cases h
    rfl
  | ended result =>
    cases h
    rw [sendFrom_of_result _ _ _ result, result]
    rfl
  | move open' amounts rest ih =>
    obtain ⟨rfl, later⟩ := h.of_chosen
    rw [List.append_assoc] at later
    obtain ⟨rfl, later'⟩ := later.of_amounts amounts
    rw [sendFrom_succ _ _ _ open']
    exact ih later'.of_told

end

end StagedTransfer.Environment
