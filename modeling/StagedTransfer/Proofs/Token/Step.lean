import Mathlib.Tactic.Lemma
import Mathlib.Data.List.Nodup
import StagedTransfer.Token.Cache

/-!
# Moves of the shared token

All that a move can do to a token cache. Whatever the moves are, the lock is with one caller at
most, who is the only one to ask for a new token, and the others that want it stand in the queue.
-/

namespace StagedTransfer

lemma acceptedToken?_eq_some_iff {cached : Option AccessToken} {now : Instant} {t : AccessToken} :
    acceptedToken? cached now = some t ↔ cached = some t ∧ t.hasExpired now = false := by
  simp [acceptedToken?, Option.filter_eq_some_iff]

lemma acceptedToken?_eq_none_iff {cached : Option AccessToken} {now : Instant} :
    acceptedToken? cached now = none ↔ tokenMissing cached now = true := by
  cases cached <;> simp [acceptedToken?, tokenMissing, Option.filter_eq_none_iff]

namespace TokenCache

/-- A caller that has come so far has the lock. -/
def Stage.hasLock : Stage → Bool
  | .locked    => true
  | .fetching  => true
  | .fetched _ => true
  | _          => false

namespace State

/-- Nobody has called yet. -/
def holding (token : Option AccessToken) : State := ⟨token, [], [], none, 0⟩

/-- How far a caller has come. -/
def stage? (s : State) (i : Nat) : Option Stage :=
  (s.caller? i).map (·.stage)

/-- A caller has asked for a new token and has no answer yet. -/
def IsFetching (s : State) (i : Nat) : Prop :=
  s.stage? i = some .fetching

/-! ### Moves -/

/-- A move leads from a state to another. A move that is not possible leads nowhere. -/
inductive Step (s : State) : Move → State → Prop
  | calls (w : Wish) : Step s (.call w) { s with callers := s.callers ++ [⟨w, .called⟩] }
  | finds {i : Nat} {now : Instant} {t : AccessToken} (caller : s.caller? i = some ⟨.current, .called⟩)
    (found : acceptedToken? s.token now = some t) :
    Step s (.advance i now) (s.setStage i (.finished (.ok (some t))))
  | misses {i : Nat} {now : Instant} {w : Wish} (caller : s.caller? i = some ⟨w, .called⟩)
    (looks : w ≠ .refresh) (missing : tokenMissing s.token now = true) :
    Step s (.advance i now) (s.setStage i .missed)
  | declines {i : Nat} {now : Instant} (caller : s.caller? i = some ⟨.renewal, .called⟩)
    (found : tokenMissing s.token now = false) :
    Step s (.advance i now) (s.setStage i (.finished (.ok none)))
  | enqueues {i : Nat} {now : Instant} {w : Wish} {o : Stage} (caller : s.caller? i = some ⟨w, o⟩)
    (wants : o = .missed ∨ w = .refresh ∧ o = .called) : Step s (.advance i now) (s.enqueue i)
  | findsLate {i : Nat} {now : Instant} {t : AccessToken}
    (caller : s.caller? i = some ⟨.current, .locked⟩)
    (found : acceptedToken? s.token now = some t) :
    Step s (.advance i now) (s.conclude i (.ok (some t)))
  | asks {i : Nat} {now : Instant} {w : Wish} (caller : s.caller? i = some ⟨w, .locked⟩)
    (missing : w = .current → tokenMissing s.token now = true) : Step s (.advance i now) (s.ask i)
  | keeps {i : Nat} {now : Instant} {w : Wish} {t : AccessToken}
    (caller : s.caller? i = some ⟨w, .fetched t⟩) :
    Step s (.advance i now) ({ s with token := some t }.conclude i (.ok (some t)))
  | receives {i : Nat} {w : Wish} (t : AccessToken) (caller : s.caller? i = some ⟨w, .fetching⟩) :
    Step s (.provide i (.ok t)) (s.setStage i (.fetched t))
  | fails {i : Nat} {w : Wish} (e : TokenError) (caller : s.caller? i = some ⟨w, .fetching⟩) :
    Step s (.provide i (.error e)) (s.conclude i (.error e))
  | stores (t : AccessToken) : Step s (.store t) { s with token := some t }
  | drops {i : Nat} {o : Stage} (stage : s.stage? i = some o) (open' : ∀ a, o ≠ .finished a) :
    Step s (.drop i) (s.drop i)
  | stays {i : Nat} {now : Instant} (h : s.canAdvance i = false) : Step s (.advance i now) s
  | ignores {i : Nat} {r : Except TokenError AccessToken} (h : ¬s.IsFetching i) :
    Step s (.provide i r) s
  | remains (i : Nat) : Step s (.drop i) s

lemma step_advance (s : State) (i : Nat) (now : Instant) :
    s.Step (.advance i now) (s.advance i now) := by
  cases hc : s.caller? i with
  | none =>
    simp only [advance, hc]
    exact .stays (by simp [canAdvance, hc])
  | some c =>
    obtain ⟨w, o⟩ := c
    cases o with
    | called =>
      cases w with
      | current =>
        cases found : acceptedToken? s.token now with
        | some t => simpa only [advance, hc, found] using .finds hc found
        | none =>
          simpa only [advance, hc, found] using
            .misses hc (by simp) (acceptedToken?_eq_none_iff.1 found)
      | refresh => simpa only [advance, hc] using .enqueues hc (.inr ⟨rfl, rfl⟩)
      | renewal =>
        simp only [advance, hc]
        split
        · next missing => exact .misses hc (by simp) missing
        · next found => exact .declines hc (by simpa using found)
    | missed => cases w <;> simpa only [advance, hc] using .enqueues hc (.inl rfl)
    | locked =>
      cases w with
      | current =>
        cases found : acceptedToken? s.token now with
        | some t => simpa only [advance, hc, found] using .findsLate hc found
        | none =>
          simpa only [advance, hc, found] using
            .asks hc fun _ => acceptedToken?_eq_none_iff.1 found
      | refresh => simpa only [advance, hc] using .asks hc (by simp)
      | renewal => simpa only [advance, hc] using .asks hc (by simp)
    | fetched t => cases w <;> simpa only [advance, hc] using .keeps hc
    | queued => cases w <;> simpa only [advance, hc] using .stays (by simp [canAdvance, hc])
    | fetching => cases w <;> simpa only [advance, hc] using .stays (by simp [canAdvance, hc])
    | finished => cases w <;> simpa only [advance, hc] using .stays (by simp [canAdvance, hc])
    | dropped => cases w <;> simpa only [advance, hc] using .stays (by simp [canAdvance, hc])

lemma step_provide (s : State) (i : Nat) (r : Except TokenError AccessToken) :
    s.Step (.provide i r) (s.provide i r) := by
  cases hc : s.caller? i with
  | none =>
    simp only [provide, hc]
    exact .ignores (by simp [IsFetching, stage?, hc])
  | some c =>
    obtain ⟨w, o⟩ := c
    cases o with
    | fetching =>
      cases r with
      | ok t => simpa only [provide, hc] using .receives t hc
      | error e => simpa only [provide, hc] using .fails e hc
    | _ =>
      simp only [provide, hc]
      exact .ignores (by simp [IsFetching, stage?, hc])

lemma step_drop (s : State) (i : Nat) : s.Step (.drop i) (s.drop i) := by
  cases hc : s.caller? i with
  | none =>
    simp only [drop, hc]
    exact .remains i
  | some c =>
    obtain ⟨w, o⟩ := c
    have stage : s.stage? i = some o := by simp [stage?, hc]
    cases o with
    | finished a =>
      simp only [drop, hc]
      exact .remains i
    | _ => exact .drops stage (by simp)

/-- What a move does. -/
theorem step_cases (s : State) (m : Move) : s.Step m (s.step m) := by
  cases m with
  | call w => exact .calls w
  | advance i now => exact s.step_advance i now
  | provide i r => exact s.step_provide i r
  | store t => exact .stores t
  | drop i => exact s.step_drop i

/-! ### Stages after a move -/

variable {s : State} {i j : Nat} {o st : Stage}

lemma stage?_eq_some {w : Wish} (h : s.caller? i = some ⟨w, o⟩) : s.stage? i = some o := by
  rw [stage?, h]
  rfl

lemma caller?_of_stage? (h : s.stage? i = some o) : ∃ w, s.caller? i = some ⟨w, o⟩ := by
  obtain ⟨⟨w, o⟩, hc, rfl⟩ := Option.map_eq_some_iff.1 h
  exact ⟨w, hc⟩

lemma caller?_of_answer? {a : Answer} (h : s.answer? i = some a) :
    ∃ w, s.caller? i = some ⟨w, .finished a⟩ := by
  rw [answer?] at h
  split at h
  · next w a caller =>
    cases h
    exact ⟨w, caller⟩
  · cases h

lemma caller?_setStage (s : State) (i j : Nat) (st : Stage) :
    (s.setStage i st).caller? j =
      if i = j then (s.caller? j).map fun c => { c with stage := st } else s.caller? j := by
  simp only [caller?, setStage, List.getElem?_modify]
  split <;> cases s.callers[j]? <;> rfl

lemma caller?_setStage_self {w : Wish} (h : s.caller? i = some ⟨w, o⟩) (st : Stage) :
    (s.setStage i st).caller? i = some ⟨w, st⟩ := by
  rw [caller?_setStage, if_pos rfl, h]
  rfl

lemma caller?_setStage_of_ne (h : i ≠ j) (st : Stage) :
    (s.setStage i st).caller? j = s.caller? j := by
  rw [caller?_setStage, if_neg h]

lemma stage?_setStage (s : State) (i j : Nat) (st : Stage) :
    (s.setStage i st).stage? j = if i = j then (s.stage? j).map fun _ => st else s.stage? j := by
  rw [stage?, stage?, caller?_setStage]
  split <;> cases s.caller? j <;> rfl

lemma stage?_setStage_of (stage : s.stage? i = some o) (st : Stage) (j : Nat) :
    (s.setStage i st).stage? j = if i = j then some st else s.stage? j := by
  rw [stage?_setStage]
  split
  · next same =>
    rw [← same, stage]
    rfl
  · rfl

lemma drop_eq (stage : s.stage? i = some o) (open' : ∀ a, o ≠ .finished a) :
    s.drop i =
      if s.holder = some i then
        (({ s with queue := s.queue.filter (· ≠ i) } : State).setStage i .dropped).handOver
      else ({ s with queue := s.queue.filter (· ≠ i) } : State).setStage i .dropped := by
  obtain ⟨w, caller⟩ := caller?_of_stage? stage
  cases o with
  | finished a => exact absurd rfl (open' a)
  | _ =>
    simp only [drop, caller]
    rfl

/-! ### The lock -/

/-- The lock is with the caller that has come so far, and the queue holds those that wait for it. -/
structure Orderly (s : State) : Prop where
  holder : ∀ i, s.holder = some i ↔ ∃ o, s.stage? i = some o ∧ o.hasLock = true
  queue  : ∀ i, i ∈ s.queue ↔ s.stage? i = some .queued
  nodup  : s.queue.Nodup
  free   : s.holder = none → s.queue = []

namespace Orderly

lemma holding (token : Option AccessToken) : Orderly (holding token) := by
  constructor <;> simp [State.holding, stage?, caller?]

lemma not_mem_queue (h : Orderly s) (stage : s.stage? i = some o) (ho : o ≠ .queued) :
    i ∉ s.queue := by
  rw [h.queue, stage]
  simpa using ho

/-- The lock is with nobody else. -/
lemma eq_of_hasLock (h : Orderly s) {o' : Stage} (hi : s.stage? i = some o)
    (hj : s.stage? j = some o') (ho : o.hasLock = true) (ho' : o'.hasLock = true) : i = j := by
  have holder := (h.holder i).2 ⟨o, hi, ho⟩
  rw [(h.holder j).2 ⟨o', hj, ho'⟩] at holder
  exact (Option.some.inj holder).symm

/-- One caller comes to a stage, the lock and the queue say so, and the others stay where they are. -/
lemma of_stages (h : Orderly s) {t : State}
    (stages : ∀ j, t.stage? j = if i = j then some st else s.stage? j)
    (holder : ∀ j, t.holder = some j ↔ if i = j then st.hasLock = true else s.holder = some j)
    (queue : ∀ j, j ∈ t.queue ↔ if i = j then st = .queued else j ∈ s.queue)
    (nodup : t.queue.Nodup) (free : t.holder = none → t.queue = []) : Orderly t := by
  refine ⟨fun j => ?_, fun j => ?_, nodup, free⟩
  · rw [holder, stages]
    split
    · simp
    · exact h.holder j
  · rw [queue, stages]
    split
    · simp
    · exact h.queue j

/-- A caller goes on without the lock passing on. -/
lemma setStage (h : Orderly s) (stage : s.stage? i = some o) (lock : st.hasLock = o.hasLock)
    (ho : o ≠ .queued) (hst : st ≠ .queued) : Orderly (s.setStage i st) := by
  refine h.of_stages (stage?_setStage_of stage st) (fun j => ?_) (fun j => ?_) h.nodup h.free
  · change s.holder = some j ↔ _
    split
    · next same => simp [← same, h.holder, stage, lock]
    · exact Iff.rfl
  · change j ∈ s.queue ↔ _
    split
    · next same => simp [← same, h.queue, stage, ho, hst]
    · exact Iff.rfl

/-- The caller that has the lock gives it back and wants nothing more. -/
lemma release (h : Orderly s) (holder : s.holder = some i) (lock : st.hasLock = false)
    (hst : st ≠ .queued) : Orderly (s.setStage i st).handOver := by
  obtain ⟨o, stage, ho⟩ := (h.holder i).1 holder
  have out : i ∉ s.queue := by
    refine h.not_mem_queue stage ?_
    rintro rfl
    cases ho
  have queued (j : Nat) : j ∈ s.queue ↔ if i = j then st = .queued else j ∈ s.queue := by
    split
    · next same => simp [← same, out, hst]
    · exact Iff.rfl
  cases hq : s.queue with
  | nil =>
    have free : (s.setStage i st).handOver = { s.setStage i st with holder := none } := by
      simp [handOver, State.setStage, hq]
    rw [free]
    refine h.of_stages (stage?_setStage_of stage st) (fun j => ?_) queued h.nodup fun _ => hq
    change none = some j ↔ _
    split
    · simp [lock]
    · next other => simp [holder, other]
  | cons k q =>
    -- The first in the queue is locked now; nobody else has changed since the lock came back.
    have apart : i ≠ k := fun same => out (by simp [hq, same])
    have passed : (s.setStage i st).handOver =
        ({ s.setStage i st with holder := some k, queue := q } : State).setStage k .locked := by
      simp [handOver, State.setStage, hq]
    have next : (s.setStage i st).stage? k = some .queued := by
      rw [stage?_setStage_of stage, if_neg apart, ← h.queue, hq]
      exact List.mem_cons_self
    have stages (j : Nat) : (s.setStage i st).handOver.stage? j =
        if k = j then some .locked else if i = j then some st else s.stage? j := by
      rw [passed, ← stage?_setStage_of stage]
      exact stage?_setStage_of (s := { s.setStage i st with holder := some k, queue := q }) next _ j
    have nodup := h.nodup
    rw [hq, List.nodup_cons] at nodup
    refine ⟨fun j => ?_, fun j => ?_, by rw [passed]; exact nodup.2, fun none' => ?_⟩
    · rw [stages, passed]
      change some k = some j ↔ _
      split
      · next same => simp [same, Stage.hasLock]
      · next other =>
        refine iff_of_false (by simpa using other) ?_
        split
        · simp [lock]
        · next other' =>
          rw [← h.holder, holder]
          simpa using other'
    · rw [stages, passed]
      change j ∈ q ↔ _
      split
      · next same => simp [← same, nodup.1]
      · next other =>
        have mem : j ∈ s.queue ↔ j ∈ q := by
          rw [hq, List.mem_cons, or_iff_right (Ne.symm other)]
        rw [← mem, queued j]
        split
        · simp
        · exact h.queue j
    · rw [passed] at none'
      cases none'

/-- A caller that wants the lock gets it or stands in the queue for it. -/
lemma enqueue (h : Orderly s) (stage : s.stage? i = some o) (lock : o.hasLock = false)
    (ho : o ≠ .queued) : Orderly (s.enqueue i) := by
  have out := h.not_mem_queue stage ho
  rw [State.enqueue]
  cases hh : s.holder with
  | none =>
    rw [if_pos (by rfl)]
    refine h.of_stages (stage?_setStage_of stage .locked) (fun j => ?_) (fun j => ?_) h.nodup
      (by rintro ⟨⟩)
    · change some i = some j ↔ _
      split
      · next same => simp [same, Stage.hasLock]
      · next other => simp [hh, other]
    · change j ∈ s.queue ↔ _
      split
      · next same => simp [← same, out]
      · exact Iff.rfl
  | some k =>
    rw [if_neg (by simp)]
    refine h.of_stages (stage?_setStage_of stage .queued) (fun j => ?_) (fun j => ?_) ?_
      (by rintro ⟨⟩)
    · change some k = some j ↔ _
      rw [← hh]
      split
      · next same =>
        have waits : Stage.queued.hasLock = false := rfl
        simp [← same, h.holder, stage, lock, waits]
      · exact Iff.rfl
    · change j ∈ s.queue ++ [i] ↔ _
      split
      · next same => simp [same]
      · next other => simp [Ne.symm other]
    · change (s.queue ++ [i]).Nodup
      simpa [List.nodup_append, h.nodup] using fun a mem (same : a = i) => out (same ▸ mem)

/-- A caller that is given up leaves the queue or gives the lock back. -/
lemma drop (h : Orderly s) (stage : s.stage? i = some o) (open' : ∀ a, o ≠ .finished a) :
    Orderly (s.drop i) := by
  rw [drop_eq stage open']
  -- Only who is queued has a place in the queue to lose, and only who is not can have the lock.
  by_cases queued : o = .queued
  · subst queued
    have other : s.holder ≠ some i := by
      rw [Ne, h.holder, stage]
      simp [Stage.hasLock]
    rw [if_neg other]
    refine h.of_stages (stage?_setStage_of stage .dropped) (fun j => ?_) (fun j => ?_)
      (h.nodup.filter _) fun none' => ?_
    · change s.holder = some j ↔ _
      split
      · next same => simp [← same, other, Stage.hasLock]
      · exact Iff.rfl
    · change j ∈ s.queue.filter (· ≠ i) ↔ _
      split
      · next same => simp [same]
      · next other => simp [Ne.symm other]
    · change s.queue.filter (· ≠ i) = []
      rw [h.free none']
      rfl
  · have same : ({ s with queue := s.queue.filter (· ≠ i) } : State) = s := by
      have all : s.queue.filter (· ≠ i) = s.queue := by
        rw [List.filter_eq_self]
        intro j hj
        have : j ≠ i := by
          rintro rfl
          exact h.not_mem_queue stage queued hj
        simpa using this
      rw [all]
    rw [same]
    by_cases holder : s.holder = some i
    · rw [if_pos holder]
      exact h.release holder rfl (by simp)
    · rw [if_neg holder]
      refine h.setStage stage ?_ queued (by simp)
      cases hl : o.hasLock with
      | false => rfl
      | true => exact absurd ((h.holder i).2 ⟨o, stage, hl⟩) holder

lemma step {m : Move} (h : Orderly s) : Orderly (s.step m) := by
  have step := s.step_cases m
  generalize s.step m = t at step
  cases step with
  | calls w =>
    have stages (j : Nat) : ({ s with callers := s.callers ++ [⟨w, .called⟩] } : State).stage? j =
        if s.callers.length = j then some .called else s.stage? j := by
      simp only [stage?, caller?]
      split
      · next new =>
        subst new
        simp
      · next old =>
        by_cases hj : j < s.callers.length
        · rw [List.getElem?_append_left hj]
        · rw [List.getElem?_eq_none (by simp; omega), List.getElem?_eq_none (by omega)]
    -- The new caller had no stage before, so neither the lock nor the queue can be about it.
    have none' : s.stage? s.callers.length = none := by simp [stage?, caller?]
    refine h.of_stages stages (fun j => ?_) (fun j => ?_) h.nodup h.free
    · change s.holder = some j ↔ _
      split
      · next new => simp [← new, h.holder, none', Stage.hasLock]
      · exact Iff.rfl
    · change j ∈ s.queue ↔ _
      split
      · next new => simp [← new, h.queue, none']
      · exact Iff.rfl
  | finds caller _ => exact h.setStage (stage?_eq_some caller) rfl (by simp) (by simp)
  | misses caller _ _ => exact h.setStage (stage?_eq_some caller) rfl (by simp) (by simp)
  | declines caller _ => exact h.setStage (stage?_eq_some caller) rfl (by simp) (by simp)
  | enqueues caller wants =>
    rcases wants with rfl | ⟨-, rfl⟩
    · exact h.enqueue (stage?_eq_some caller) rfl (by simp)
    · exact h.enqueue (stage?_eq_some caller) rfl (by simp)
  | findsLate caller _ =>
    exact h.release ((h.holder _).2 ⟨_, stage?_eq_some caller, rfl⟩) rfl (by simp)
  | asks caller _ =>
    exact setStage (s := { s with fetches := s.fetches + 1 }) ⟨h.holder, h.queue, h.nodup, h.free⟩
      (stage?_eq_some caller) rfl (by simp) (by simp)
  | keeps caller =>
    exact release (s := { s with token := _ }) ⟨h.holder, h.queue, h.nodup, h.free⟩
      ((h.holder _).2 ⟨_, stage?_eq_some caller, rfl⟩) rfl (by simp)
  | receives t caller => exact h.setStage (stage?_eq_some caller) rfl (by simp) (by simp)
  | fails e caller =>
    exact h.release ((h.holder _).2 ⟨_, stage?_eq_some caller, rfl⟩) rfl (by simp)
  | stores t => exact ⟨h.holder, h.queue, h.nodup, h.free⟩
  | drops stage open' => exact h.drop stage open'
  | stays _ => exact h
  | ignores _ => exact h
  | remains i => exact h

lemma steps (h : Orderly s) (moves : List Move) : Orderly (s.steps moves) := by
  induction moves generalizing s with
  | nil => exact h
  | cons m moves ih => exact ih h.step

end Orderly

end State

end TokenCache

end StagedTransfer
