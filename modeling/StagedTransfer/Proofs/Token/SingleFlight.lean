import Mathlib.Tactic.Lemma
import StagedTransfer.Proofs.Token.Turn

/-!
# One question at a time

However the moves of its callers are mixed, a token cache has at most one question for a new token
on the way, a caller that finds an accepted token asks for none, and of many callers who find none
one asks and all take what it gets. The main statement is `current_singleFlight`.
-/

namespace StagedTransfer.TokenCache

/-- A move of callers that want an accepted token, none of whom is given up. -/
def Move.ofReaders : Move → Bool
  | .call w     => w = .current
  | .advance .. => true
  | .provide .. => true
  | _           => false

namespace State

/-- The answer of the provider that a move brings to a caller that has asked for it. -/
def received? (s : State) : Move → Option (Except TokenError AccessToken)
  | .provide i r => if s.IsFetching i then some r else none
  | _            => none

/-- The answers of the provider in the course of several moves, the first to come first. -/
def received (s : State) : List Move → List (Except TokenError AccessToken)
  | []         => []
  | m :: moves => (s.received? m).toList ++ (s.step m).received moves

/-- A caller that wants an accepted token looks at the cache, at first or with the lock, and the
token there is accepted. -/
structure Finds (s : State) (i : Nat) (now : Instant) (t : AccessToken) : Prop where
  looks : s.caller? i = some ⟨.current, .called⟩ ∨ s.caller? i = some ⟨.current, .locked⟩
  token : s.token = some t
  live  : t.hasExpired now = false

/-- In the course of the moves a caller finds a token. -/
def HasRead (s : State) (moves : List Move) (i : Nat) (t : AccessToken) : Prop :=
  ∃ before now after, moves = before ++ .advance i now :: after ∧ (s.steps before).Finds i now t

/-- In the course of the moves a caller that has asked for a new token gets it. -/
def HasFetched (s : State) (moves : List Move) (i : Nat) (t : AccessToken) : Prop :=
  ∃ before after, moves = before ++ .provide i (.ok t) :: after ∧ (s.steps before).IsFetching i

variable {s : State} {i j : Nat} {m : Move} {moves : List Move} {cached : Option AccessToken}
  {t : AccessToken}

/-! ### Where a token comes from -/

lemma HasRead.concat (h : s.HasRead moves i t) (m : Move) : s.HasRead (moves ++ [m]) i t := by
  obtain ⟨before, now, after, rfl, read⟩ := h
  exact ⟨before, now, after ++ [m], by simp, read⟩

lemma HasFetched.concat (h : s.HasFetched moves i t) (m : Move) :
    s.HasFetched (moves ++ [m]) i t := by
  obtain ⟨before, after, rfl, asked⟩ := h
  exact ⟨before, after ++ [m], by simp, asked⟩

/-- A caller got its token by its own question or, if it wanted an accepted one, by a look. -/
structure Sourced (s : State) (moves : List Move) (i : Nat) (c : Caller) : Prop where
  fetched  : ∀ t, c.stage = .fetched t → s.HasFetched moves i t
  finished : c.wish = .current → ∀ a, c.stage = .finished (.ok a) →
    ∃ t, a = some t ∧ (s.HasRead moves i t ∨ s.HasFetched moves i t)

lemma Sourced.concat {c : Caller} (h : Sourced s moves i c) (m : Move) :
    Sourced s (moves ++ [m]) i c := by
  refine ⟨fun t stage => (h.fetched t stage).concat m, fun wish a stage => ?_⟩
  obtain ⟨t, rfl, source⟩ := h.finished wish a stage
  exact ⟨t, rfl, source.imp (·.concat m) (·.concat m)⟩

lemma sourced (orderly : Orderly s) (new : s.callers = []) (moves : List Move) {c : Caller}
    (caller : (s.steps moves).caller? i = some c) : Sourced s moves i c := by
  -- On the last move. A caller answers with a token that it finds, or with one that it keeps and
  -- has fetched before.
  induction moves using List.reverseRecOn generalizing c with
  | nil =>
    change s.caller? i = some c at caller
    simp [caller?, new] at caller
  | append_singleton moves m ih =>
    rw [steps_concat] at caller
    rcases (orderly.steps moves).caller?_step caller with
      ⟨⟨w, o⟩, before, wish, turn⟩ | ⟨-, called, -⟩
    · obtain ⟨w', o'⟩ := c
      obtain rfl : w = w' := wish
      have earlier := (ih before).concat m
      change Turn _ i m ⟨w, o⟩ o' at turn
      cases turn with
      | rests => exact earlier
      | @finds now _ t looks found =>
        obtain ⟨token, live⟩ := acceptedToken?_eq_some_iff.1 found
        have looks : (s.steps moves).caller? i = some ⟨.current, .called⟩ ∨
            (s.steps moves).caller? i = some ⟨.current, .locked⟩ := by
          rcases looks with rfl | rfl
          · exact .inl before
          · exact .inr before
        refine ⟨by simp, fun _ a stage => ?_⟩
        simp only [Stage.finished.injEq, Except.ok.injEq] at stage
        exact ⟨t, stage.symm, .inl ⟨moves, now, [], rfl, looks, token, live⟩⟩
      | @keeps _ _ t =>
        refine ⟨by simp, fun _ a stage => ?_⟩
        simp only [Stage.finished.injEq, Except.ok.injEq] at stage
        exact ⟨t, stage.symm, .inr (earlier.fetched t rfl)⟩
      | @receives _ t =>
        refine ⟨fun t' stage => ?_, by simp⟩
        obtain rfl := Stage.fetched.inj stage
        exact ⟨moves, [], rfl, stage?_eq_some before⟩
      | declines => exact ⟨by simp, by simp⟩
      | enters _ enters => rcases enters with rfl | rfl <;> exact ⟨by simp, by simp⟩
      | _ => exact ⟨by simp, by simp⟩
    · exact ⟨by simp [called], by simp [called]⟩

/-! ### Who finds an accepted token -/

lemma Finds.caller?_step {now : Instant} (h : s.Finds i now t) (orderly : Orderly s) :
    (s.step (.advance i now)).caller? i = some ⟨.current, .finished (.ok (some t))⟩ := by
  have found := acceptedToken?_eq_some_iff.2 ⟨h.token, h.live⟩
  rcases h.looks with caller | caller
  · simp only [step, advance, caller, found]
    exact caller?_setStage_self caller _
  · simp only [step, advance, caller, found]
    exact orderly.caller?_conclude_self caller (by simp) _

/-- A caller that finds a token has not asked for one before and does not ask for one after. -/
lemma Finds.not_mem_askers {before after : List Move} {now : Instant}
    (h : (s.steps before).Finds i now t) (orderly : Orderly s) :
    i ∉ s.askers (before ++ .advance i now :: after) := by
  have orderly' := orderly.steps before
  have found := h.caller?_step orderly'
  rw [askers_append, askers, List.mem_append, List.mem_append]
  rintro (earlier | now' | later)
  · obtain ⟨c, caller, past⟩ := orderly.ahead_of_mem_askers earlier
    rcases h.looks with looks | looks <;> cases looks.symm.trans caller <;>
      simp [Stage.ahead] at past
  · obtain ⟨_, w, same, caller, missing⟩ := asker?_eq_some_iff.1 (Option.mem_toList.1 now')
    obtain ⟨-, rfl⟩ := Move.advance.inj same
    obtain rfl : w = .current := by
      rcases h.looks with looks | looks <;> cases looks.symm.trans caller
      rfl
    simp [h.token, tokenMissing, h.live] at missing
  · exact orderly'.step.not_mem_askers found (by simp [Stage.ahead]) after later

/-! ### One question for all -/

/-- How far callers have come that want an accepted token and find the same one missing. -/
inductive Sharing (cached : Option AccessToken) (t : AccessToken) (s : State) : Bool → Prop
  | unasked (token : s.token = cached) (fetches : s.fetches = 0)
    (early : ∀ j c, s.caller? j = some c → c.wish = .current ∧ Stage.locked.ahead ≤ c.stage.ahead) :
    Sharing cached t s false
  | asked {b : Bool} (i : Nat) (token : s.token = cached) (fetches : s.fetches = 1)
    (asker : s.stage? i = some (if b then .fetched t else .fetching))
    (early : ∀ j c, s.caller? j = some c →
      c.wish = .current ∧ (j ≠ i → Stage.locked.ahead ≤ c.stage.ahead)) :
    Sharing cached t s b
  | shared (token : s.token = some t) (fetches : s.fetches = 1)
    (early : ∀ j c, s.caller? j = some c → c.wish = .current ∧
      (Stage.locked.ahead ≤ c.stage.ahead ∨ c.stage = .finished (.ok (some t)))) :
    Sharing cached t s true

/-- A caller that has not asked yet finds a token, asks for one or goes on waiting. -/
lemma Turn.of_early {o o' : Stage} (turn : Turn s j m ⟨.current, o⟩ o')
    (early : Stage.locked.ahead ≤ o.ahead) (readers : m.ofReaders = true) :
    Stage.locked.ahead ≤ o'.ahead ∨
      (∃ now t, m = .advance j now ∧ acceptedToken? s.token now = some t ∧
        o' = .finished (.ok (some t))) ∨
      ∃ now, m = .advance j now ∧ o = .locked ∧ tokenMissing s.token now = true := by
  cases turn with
  | rests => exact .inl early
  | finds _ found => exact .inr (.inl ⟨_, _, rfl, found, rfl⟩)
  | asks missing => exact .inr (.inr ⟨_, rfl, rfl, missing rfl⟩)
  | enters _ enters => rcases enters with rfl | rfl <;> exact .inl (by simp [Stage.ahead])
  | drops => cases readers
  | keeps => simp [Stage.ahead] at early
  | receives => simp [Stage.ahead] at early
  | fails => simp [Stage.ahead] at early
  | _ => exact .inl (by simp [Stage.ahead])

/-- A caller that finds no token and does not ask for one goes on waiting. -/
lemma early_step {c : Caller} (orderly : Orderly s) (readers : m.ofReaders = true)
    (before : ∀ c, s.caller? j = some c → c.wish = .current ∧ Stage.locked.ahead ≤ c.stage.ahead)
    (missing : ∀ now, m = .advance j now → tokenMissing s.token now = true)
    (silent : s.asker? m = none) (after : (s.step m).caller? j = some c) :
    c.wish = .current ∧ Stage.locked.ahead ≤ c.stage.ahead := by
  rcases orderly.caller?_step after with ⟨⟨w, o⟩, caller, wish, turn⟩ | ⟨-, called, rfl⟩
  · obtain ⟨current, early⟩ := before _ caller
    obtain rfl : w = .current := current
    refine ⟨wish.symm, ?_⟩
    rcases turn.of_early early readers with early | ⟨now, t, rfl, found, -⟩ | ⟨now, rfl, rfl, asks⟩
    · exact early
    · rw [acceptedToken?_eq_none_iff.2 (missing now rfl)] at found
      cases found
    · rw [asker?_eq_some_iff.2 ⟨now, .current, rfl, caller, fun _ => asks⟩] at silent
      cases silent
  · exact ⟨by simpa [Move.ofReaders] using readers, by simp [called, Stage.ahead]⟩

lemma token_step (readers : m.ofReaders = true)
    (unfetched : ∀ i now w t, m = .advance i now → s.caller? i ≠ some ⟨w, .fetched t⟩) :
    (s.step m).token = s.token := by
  refine (s.effect m).token (fun t => ?_) unfetched
  rintro rfl
  cases readers

lemma token_of_fetched {now : Instant} {w : Wish} (caller : s.caller? i = some ⟨w, .fetched t⟩) :
    (s.step (.advance i now)).token = some t := by
  simp only [step, advance, caller]
  exact congrArg (·.1) (account_conclude { s with token := some t } i (.ok (some t)))

lemma fetches_step_of_silent (silent : s.asker? m = none) : (s.step m).fetches = s.fetches := by
  simp [fetches_step, silent]

lemma received?_eq_some_iff {r : Except TokenError AccessToken} :
    s.received? m = some r ↔ ∃ i, m = .provide i r ∧ s.IsFetching i := by
  cases m with
  | provide i r' =>
    simp only [received?, Option.ite_none_right_eq_some, Option.some.injEq, Move.provide.injEq]
    constructor
    · rintro ⟨asked, rfl⟩
      exact ⟨i, ⟨rfl, rfl⟩, asked⟩
    · rintro ⟨i, ⟨rfl, rfl⟩, asked⟩
      exact ⟨asked, rfl⟩
  | _ => simp [received?]

/-- Nobody asks while the lock is with a caller that has asked. -/
lemma Orderly.asker?_eq_none (h : Orderly s) {o : Stage} (stage : s.stage? i = some o)
    (lock : o.hasLock = true) (past : o ≠ .locked) : s.asker? m = none := by
  rw [Option.eq_none_iff_forall_ne_some]
  intro k asks
  obtain ⟨_, _, -, caller, -⟩ := asker?_eq_some_iff.1 asks
  obtain rfl := h.eq_of_hasLock (stage?_eq_some caller) stage rfl lock
  cases stage.symm.trans (stage?_eq_some caller)
  exact past rfl

section Steps

variable (orderly : Orderly s) (readers : m.ofReaders = true)
  (looks : ∀ i now, m = .advance i now → tokenMissing cached now = true ∧ t.hasExpired now = false)

include orderly readers looks

lemma Sharing.step_unasked (token : s.token = cached) (fetches : s.fetches = 0)
    (early : ∀ j c, s.caller? j = some c →
      c.wish = .current ∧ Stage.locked.ahead ≤ c.stage.ahead) :
    Sharing cached t (s.step m) false := by
  have token' : (s.step m).token = cached := by
    rw [token_step readers, token]
    intro k _ w t' _ caller
    simpa [Stage.ahead] using (early k _ caller).2
  cases silent : s.asker? m with
  | none =>
    refine .unasked token' ((fetches_step_of_silent silent).trans fetches) fun j c after => ?_
    refine early_step orderly readers (early j) (fun now here => ?_) silent after
    rw [token]
    exact (looks j now here).1
  | some i =>
    have fetches' : (s.step m).fetches = 1 := by simp [fetches_step, fetches, silent]
    obtain ⟨now, w, rfl, caller, missing⟩ := asker?_eq_some_iff.1 silent
    obtain rfl : w = .current := (early i _ caller).1
    have self := caller?_setStage_self (s := { s with fetches := s.fetches + 1 }) caller .fetching
    rw [step_of_locked caller missing] at token' fetches' ⊢
    refine .asked i token' fetches' (stage?_eq_some self) fun j c after => ?_
    rcases eq_or_ne i j with rfl | other
    · cases self.symm.trans after
      exact ⟨rfl, fun other => absurd rfl other⟩
    · rw [ask, caller?_setStage_of_ne other] at after
      exact ⟨(early j c after).1, fun _ => (early j c after).2⟩

/-- Whoever has not asked has not after a move in which nobody asks. -/
lemma early_step_of_asked {o : Stage} (token : s.token = cached) (silent : s.asker? m = none)
    (early : ∀ j c, s.caller? j = some c →
      c.wish = .current ∧ (j ≠ i → Stage.locked.ahead ≤ c.stage.ahead))
    (asker : (s.step m).caller? i = some ⟨.current, o⟩) {c : Caller}
    (after : (s.step m).caller? j = some c) :
    c.wish = .current ∧ (j ≠ i → Stage.locked.ahead ≤ c.stage.ahead) := by
  rcases eq_or_ne j i with rfl | other
  · cases asker.symm.trans after
    exact ⟨rfl, fun other => absurd rfl other⟩
  · have step := early_step orderly readers
      (fun c before => ⟨(early j c before).1, (early j c before).2 other⟩)
      (fun now here => token.symm ▸ (looks j now here).1) silent after
    exact ⟨step.1, fun _ => step.2⟩

lemma Sharing.step_fetching (first : ∀ r, s.received? m = some r → r = .ok t)
    (token : s.token = cached) (fetches : s.fetches = 1)
    (asker : s.caller? i = some ⟨.current, .fetching⟩)
    (early : ∀ j c, s.caller? j = some c →
      c.wish = .current ∧ (j ≠ i → Stage.locked.ahead ≤ c.stage.ahead)) :
    Sharing cached t (s.step m) (s.received? m).isSome := by
  have stage := stage?_eq_some asker
  have silent : s.asker? m = none := orderly.asker?_eq_none stage rfl (by simp)
  have fetches' := (fetches_step_of_silent silent).trans fetches
  have token' : (s.step m).token = cached := by
    rw [token_step readers, token]
    intro k _ w t' _ caller
    obtain rfl := orderly.eq_of_hasLock (stage?_eq_some caller) stage rfl rfl
    cases asker.symm.trans caller
  obtain ⟨o, after, turn⟩ := orderly.turn asker m
  have early' (j : Nat) (c : Caller) := early_step_of_asked (c := c) (j := j) orderly readers looks
    token silent early after
  -- The caller with the lock is the only one that can be answered, so the first answer is its own.
  cases turn with
  | rests still =>
    have unanswered : s.received? m = none := by
      rw [Option.eq_none_iff_forall_ne_some]
      intro r received
      obtain ⟨k, rfl, asked⟩ := received?_eq_some_iff.1 received
      obtain rfl := orderly.eq_of_hasLock asked stage rfl rfl
      exact still (by simpa [State.stirs] using asked) rfl
    rw [unanswered]
    exact .asked i token' fetches' (stage?_eq_some after) early'
  | @receives _ t' =>
    have received : s.received? (.provide i (.ok t')) = some (.ok t') :=
      received?_eq_some_iff.2 ⟨i, rfl, stage⟩
    cases first _ received
    rw [received]
    exact .asked i token' fetches' (stage?_eq_some after) early'
  | fails => cases first _ (received?_eq_some_iff.2 ⟨i, rfl, stage⟩)
  | enters wants _ => simp at wants
  | finds looks _ => simp at looks
  | drops => cases readers

lemma Sharing.step_fetched (token : s.token = cached) (fetches : s.fetches = 1)
    (asker : s.caller? i = some ⟨.current, .fetched t⟩)
    (early : ∀ j c, s.caller? j = some c →
      c.wish = .current ∧ (j ≠ i → Stage.locked.ahead ≤ c.stage.ahead)) :
    Sharing cached t (s.step m) true := by
  have stage := stage?_eq_some asker
  have silent : s.asker? m = none := orderly.asker?_eq_none stage rfl (by simp)
  have fetches' := (fetches_step_of_silent silent).trans fetches
  obtain ⟨o, after, turn⟩ := orderly.turn asker m
  have early' (j : Nat) (c : Caller) := early_step_of_asked (c := c) (j := j) orderly readers looks
    token silent early after
  cases turn with
  | rests still =>
    have token' : (s.step m).token = cached := by
      rw [token_step readers, token]
      rintro k now w t' rfl caller
      obtain rfl := orderly.eq_of_hasLock (stage?_eq_some caller) stage rfl rfl
      exact still (by simp [State.stirs, canAdvance, asker]) rfl
    exact .asked i token' fetches' (stage?_eq_some after) early'
  | keeps =>
    refine .shared (token_of_fetched asker) fetches' fun j c after' => ?_
    rcases eq_or_ne j i with rfl | other
    · cases after.symm.trans after'
      exact ⟨rfl, .inr rfl⟩
    · exact (early' j c after').imp id fun waits => .inl (waits other)
  | enters wants _ => simp at wants
  | finds looks _ => simp at looks
  | drops => cases readers

lemma Sharing.step_shared (token : s.token = some t) (fetches : s.fetches = 1)
    (early : ∀ j c, s.caller? j = some c → c.wish = .current ∧
      (Stage.locked.ahead ≤ c.stage.ahead ∨ c.stage = .finished (.ok (some t)))) :
    Sharing cached t (s.step m) true := by
  have found {i : Nat} {now : Instant} (here : m = .advance i now) :
      acceptedToken? s.token now = some t :=
    acceptedToken?_eq_some_iff.2 ⟨token, (looks i now here).2⟩
  -- Whoever gets the lock from now on finds the token, so nobody asks again.
  have silent : s.asker? m = none := by
    rw [Option.eq_none_iff_forall_ne_some]
    intro k asks
    obtain ⟨now, w, here, caller, missing⟩ := asker?_eq_some_iff.1 asks
    cases (found here).symm.trans (acceptedToken?_eq_none_iff.2 (missing (early k _ caller).1))
  refine .shared ?_ ((fetches_step_of_silent silent).trans fetches) fun j c after => ?_
  · rw [token_step readers, token]
    intro k _ w t' _ caller
    simpa [Stage.ahead] using (early k _ caller).2
  · rcases orderly.caller?_step after with ⟨⟨w, o⟩, caller, wish, turn⟩ | ⟨-, called, rfl⟩
    · obtain ⟨current, early | finished⟩ := early j _ caller
      · obtain rfl : w = .current := current
        refine ⟨wish.symm, ?_⟩
        rcases turn.of_early early readers with
          early | ⟨now, t', here, found', finished⟩ | ⟨now, here, -, missing⟩
        · exact .inl early
        · cases (found here).symm.trans found'
          exact .inr finished
        · cases (found here).symm.trans (acceptedToken?_eq_none_iff.2 missing)
      · obtain rfl : o = .finished (.ok (some t)) := finished
        exact ⟨wish.symm.trans current, .inr turn.eq_of_finished⟩
    · exact ⟨by simpa [Move.ofReaders] using readers, .inl (by simp [called, Stage.ahead])⟩

end Steps

lemma Sharing.step {b : Bool} (sharing : Sharing cached t s b) (orderly : Orderly s)
    (readers : m.ofReaders = true)
    (looks : ∀ i now, m = .advance i now → tokenMissing cached now = true ∧ t.hasExpired now = false)
    (first : b = false → ∀ r, s.received? m = some r → r = .ok t) :
    Sharing cached t (s.step m) (b || (s.received? m).isSome) := by
  cases sharing with
  | unasked token fetches early =>
    have unanswered : s.received? m = none := by
      rw [Option.eq_none_iff_forall_ne_some]
      intro r received
      obtain ⟨k, -, asked⟩ := received?_eq_some_iff.1 received
      obtain ⟨w, caller⟩ := caller?_of_stage? asked
      simpa [Stage.ahead] using (early k _ caller).2
    rw [unanswered]
    exact step_unasked orderly readers looks token fetches early
  | asked i token fetches asker early =>
    obtain ⟨w, caller⟩ := caller?_of_stage? asker
    obtain rfl : w = .current := (early i _ caller).1
    cases b with
    | true => exact step_fetched orderly readers looks token fetches caller early
    | false => exact step_fetching orderly readers looks (first rfl) token fetches caller early
  | shared token fetches early => exact step_shared orderly readers looks token fetches early

lemma Sharing.steps {b : Bool} (sharing : Sharing cached t s b) (orderly : Orderly s)
    (readers : ∀ m ∈ moves, m.ofReaders = true)
    (looks : ∀ i now, .advance i now ∈ moves →
      tokenMissing cached now = true ∧ t.hasExpired now = false)
    (first : b = false → ∀ r, (s.received moves).head? = some r → r = .ok t) :
    ∃ b, Sharing cached t (s.steps moves) b := by
  -- On the moves: how far the sharing has come, and whether the first answer has come in.
  induction moves generalizing s b with
  | nil => exact ⟨b, sharing⟩
  | cons m moves ih =>
    have step := sharing.step orderly (readers m (by simp))
      (fun i now here => looks i now (by simp [here])) fun hb r received =>
        first hb r (by simp [State.received, received])
    refine ih step orderly.step (fun m' mem => readers m' (by simp [mem]))
      (fun i now mem => looks i now (by simp [mem])) fun hb r received => ?_
    obtain ⟨hb, unanswered⟩ : b = false ∧ s.received? m = none := by simpa using hb
    exact first hb r (by simpa [State.received, unanswered] using received)

lemma Sharing.fetches_le {b : Bool} (sharing : Sharing cached t s b) : s.fetches ≤ 1 := by
  cases sharing with
  | unasked _ fetches _ => omega
  | asked _ _ fetches _ _ => omega
  | shared _ fetches _ => omega

lemma Sharing.answer {b : Bool} {a : Answer} (sharing : Sharing cached t s b)
    (answer : s.answer? i = some a) : a = .ok (some t) := by
  obtain ⟨w, caller⟩ := caller?_of_answer? answer
  cases sharing with
  | unasked _ _ early => simpa [Stage.ahead] using (early i _ caller).2
  | asked k _ _ asker early =>
    rcases eq_or_ne i k with rfl | other
    · cases b <;> cases asker.symm.trans (stage?_eq_some caller)
    · simpa [Stage.ahead] using (early i _ caller).2 other
  | shared _ _ early => simpa [Stage.ahead] using (early i _ caller).2

lemma Sharing.at_rest {b : Bool} (sharing : Sharing cached t s b) (orderly : Orderly s)
    (still : ∀ m, s.stirs m = false) (hi : i < s.callers.length) :
    s.fetches = 1 ∧ s.answer? i = some (.ok (some t)) := by
  obtain ⟨c, caller⟩ : ∃ c, s.caller? i = some c := ⟨_, List.getElem?_eq_getElem hi⟩
  have done {k : Nat} {c : Caller} (caller : s.caller? k = some c) : c.stage.ahead = 0 := by
    rcases orderly.at_rest still caller with ⟨a, finished⟩ | dropped
    · rw [finished]; rfl
    · rw [dropped]; rfl
  cases sharing with
  | unasked _ _ early =>
    have waits := (early i c caller).2
    rw [done caller] at waits
    simp [Stage.ahead] at waits
  | asked k _ _ asker _ =>
    obtain ⟨w, asker⟩ := caller?_of_stage? asker
    cases b <;> simpa [Stage.ahead] using done asker
  | shared _ fetches early =>
    refine ⟨fetches, ?_⟩
    obtain ⟨w, o⟩ := c
    rcases (early i _ caller).2 with early | rfl
    · rw [done caller] at early
      simp [Stage.ahead] at early
    · simp [answer?, caller]

/-! ### Single flight -/

/-- What holds of a cache with the token `cached` after several moves. -/
structure SingleFlight (cached : Option AccessToken) (moves : List Move) : Prop where
  /-- Only one question is on the way. -/
  one : ∀ i j, ((holding cached).steps moves).IsFetching i →
    ((holding cached).steps moves).IsFetching j → i = j
  /-- Every question is that of a caller. -/
  counted : ((holding cached).steps moves).fetches = ((holding cached).askers moves).length
  /-- A caller that finds an accepted token, at first or with the lock, takes it and never asks. -/
  spares : ∀ before i now after t, moves = before ++ .advance i now :: after →
    ((holding cached).steps before).Finds i now t →
    i ∉ (holding cached).askers moves ∧
      ((holding cached).steps moves).answer? i = some (.ok (some t))
  /-- Callers that find the same token missing share what the first question gets, if that stays
  accepted: there is one question and, when nothing goes on any more, everyone has that token. -/
  shares : ∀ t, (∀ m ∈ moves, m.ofReaders = true) →
    (∀ i now, .advance i now ∈ moves → tokenMissing cached now = true ∧ t.hasExpired now = false) →
    (∀ r, ((holding cached).received moves).head? = some r → r = .ok t) →
    ((holding cached).steps moves).fetches ≤ 1 ∧
      (∀ i a, ((holding cached).steps moves).answer? i = some a → a = .ok (some t)) ∧
      ((∀ m, ((holding cached).steps moves).stirs m = false) →
        ∀ i < ((holding cached).steps moves).callers.length,
          ((holding cached).steps moves).fetches = 1 ∧
            ((holding cached).steps moves).answer? i = some (.ok (some t)))
  /-- A token that a caller gets that wants an accepted one was accepted when the caller looked at
  it, or is the caller's own. -/
  source : ∀ i a, ((holding cached).steps moves).caller? i = some ⟨.current, .finished (.ok a)⟩ →
    ∃ t, a = some t ∧ ((holding cached).HasRead moves i t ∨ (holding cached).HasFetched moves i t)
  /-- Nobody waits in vain: a caller goes on six times at most, and when nothing goes on any more,
  everyone has an answer or has been given up. -/
  ends : (holding cached).stirred moves ≤ 6 * ((holding cached).steps moves).callers.length ∧
    ((∀ m, ((holding cached).steps moves).stirs m = false) →
      ∀ i c, ((holding cached).steps moves).caller? i = some c →
        (∃ a, c.stage = .finished a) ∨ c.stage = .dropped)

/-- Whatever the moves are, a token is asked for once at a time, only by callers who found none, and
once for all who found the same one missing. -/
theorem current_singleFlight (cached : Option AccessToken) (moves : List Move) :
    SingleFlight cached moves := by
  have start := Orderly.holding cached
  have orderly := start.steps moves
  have nobody (j : Nat) (c : Caller) : (holding cached).caller? j ≠ some c := by
    simp [holding, caller?]
  constructor
  case one =>
    intro i j hi hj
    exact orderly.eq_of_hasLock hi hj rfl rfl
  case counted => simpa [holding] using fetches_steps (holding cached) moves
  case spares =>
    rintro before i now after t rfl found
    refine ⟨found.not_mem_askers start, ?_⟩
    have finished := found.caller?_step (start.steps before)
    rw [steps_append]
    exact ((start.steps before).step (m := .advance i now)).answer?_steps finished after
  case shares =>
    intro t readers looks first
    obtain ⟨b, sharing⟩ := Sharing.steps
      (.unasked rfl rfl fun j c caller => absurd caller (nobody j c)) start readers looks
      fun _ => first
    refine ⟨sharing.fetches_le, fun i a => sharing.answer, fun still i hi => ?_⟩
    exact sharing.at_rest orderly still hi
  case source =>
    intro i a caller
    exact (sourced start rfl moves caller).finished rfl a rfl
  case ends =>
    refine ⟨?_, fun still i c => orderly.at_rest still⟩
    have bound := start.stirred_add_ahead_le moves
    have none' : (holding cached).ahead = 0 := rfl
    have length : (holding cached).callers.length = 0 := rfl
    omega

/-- Three callers find the same token stale. The first asks and the second queues behind it; the
third asks for the lock only when the new token is there. -/
def lateReader : List Move :=
  [.call .current, .call .current, .call .current, .advance 0 ⟨20⟩, .advance 1 ⟨20⟩,
    .advance 2 ⟨20⟩, .advance 0 ⟨21⟩, .advance 0 ⟨21⟩, .advance 1 ⟨22⟩,
    .provide 0 (.ok ⟨"fresh", ⟨90⟩⟩), .advance 0 ⟨30⟩, .advance 1 ⟨31⟩, .advance 2 ⟨32⟩,
    .advance 2 ⟨33⟩]

theorem current_singleFlight_lateReader :
    ((holding (some ⟨"stale", ⟨10⟩⟩)).steps lateReader).fetches = 1 ∧
      (∀ i < 3, ((holding (some ⟨"stale", ⟨10⟩⟩)).steps lateReader).answer? i =
        some (.ok (some ⟨"fresh", ⟨90⟩⟩))) ∧
      2 ∉ (holding (some ⟨"stale", ⟨10⟩⟩)).askers lateReader ∧
      (holding (some ⟨"stale", ⟨10⟩⟩)).stirred lateReader ≤ 18 := by
  have flight := current_singleFlight (some ⟨"stale", ⟨10⟩⟩) lateReader
  have readers : ∀ m ∈ lateReader, m.ofReaders = true := by decide
  have looks : ∀ i now, .advance i now ∈ lateReader →
      tokenMissing (some ⟨"stale", ⟨10⟩⟩) now = true ∧
        AccessToken.hasExpired ⟨"fresh", ⟨90⟩⟩ now = false := by
    intro i now mem
    simp only [lateReader, List.mem_cons, Move.advance.injEq, reduceCtorEq, List.not_mem_nil,
      false_or, or_false] at mem
    rcases mem with h | h | h | h | h | h | h | h | h | h <;> rw [h.2] <;> decide
  have first : ∀ r, ((holding (some ⟨"stale", ⟨10⟩⟩)).received lateReader).head? = some r →
      r = .ok ⟨"fresh", ⟨90⟩⟩ := by
    intro r head
    exact (Option.some.inj head).symm
  have still : ∀ m, ((holding (some ⟨"stale", ⟨10⟩⟩)).steps lateReader).stirs m = false := by
    rintro (_ | ⟨_ | _ | _ | i, now⟩ | ⟨_ | _ | _ | i, r⟩ | _ | _) <;> rfl
  have done := (flight.shares ⟨"fresh", ⟨90⟩⟩ readers looks first).2.2 still
  have found : ((holding (some ⟨"stale", ⟨10⟩⟩)).steps (lateReader.take 13)).Finds 2 ⟨33⟩
      ⟨"fresh", ⟨90⟩⟩ := ⟨.inr rfl, rfl, rfl⟩
  have last : lateReader = lateReader.take 13 ++ .advance 2 ⟨33⟩ :: [] := rfl
  exact ⟨(done 0 (by decide)).1, fun i hi => (done i hi).2,
    (flight.spares _ 2 ⟨33⟩ [] _ last found).1, flight.ends.1⟩

end State

end StagedTransfer.TokenCache
