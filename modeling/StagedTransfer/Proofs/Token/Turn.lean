import Mathlib.Algebra.Order.BigOperators.Group.Finset
import Mathlib.Tactic.Lemma
import StagedTransfer.Proofs.Token.Step

/-!
# One caller among the others

What the moves of an orderly token cache mean for one of its callers: a caller goes on by moves of
its own, and the moves of the others can only bring it the lock it stands in the queue for. From
this come the course of a caller, which never goes back, and the callers that ask for a new token.
-/

namespace StagedTransfer.TokenCache

/-- The caller that a move is of. -/
def Move.actor? : Move → Option Nat
  | .advance i _ => some i
  | .provide i _ => some i
  | .drop i      => some i
  | _            => none

namespace State

instance (s : State) (i : Nat) : Decidable (s.IsFetching i) :=
  decidable_of_iff ((s.stage? i).any fun | .fetching => true | _ => false) <| by
    rw [IsFetching]
    cases s.stage? i with
    | none => simp
    | some o => cases o <;> simp

/-- The move takes its caller further. -/
def stirs (s : State) : Move → Bool
  | .advance i _ => s.canAdvance i
  | .provide i _ => s.IsFetching i
  | _            => false

variable {s : State} {i j : Nat} {c : Caller} {o st : Stage} {m : Move} {w : Wish}

/-! ### Moves of one caller -/

/-- A move takes a caller to a stage. -/
inductive Turn (s : State) (j : Nat) : Move → Caller → Stage → Prop
  | rests {m : Move} {c : Caller} (still : s.stirs m = true → m.actor? ≠ some j) :
    Turn s j m c c.stage
  | obtains {m : Move} {w : Wish} (other : m.actor? ≠ some j) : Turn s j m ⟨w, .queued⟩ .locked
  | finds {now : Instant} {o : Stage} {t : AccessToken} (looks : o = .called ∨ o = .locked)
    (found : acceptedToken? s.token now = some t) :
    Turn s j (.advance j now) ⟨.current, o⟩ (.finished (.ok (some t)))
  | misses {now : Instant} {w : Wish} (missing : tokenMissing s.token now = true) :
    Turn s j (.advance j now) ⟨w, .called⟩ .missed
  | declines {now : Instant} : Turn s j (.advance j now) ⟨.renewal, .called⟩ (.finished (.ok none))
  | enters {now : Instant} {w : Wish} {o o' : Stage} (wants : o = .missed ∨ w = .refresh ∧ o = .called)
    (enters : o' = .locked ∨ o' = .queued) : Turn s j (.advance j now) ⟨w, o⟩ o'
  | asks {now : Instant} {w : Wish} (missing : w = .current → tokenMissing s.token now = true) :
    Turn s j (.advance j now) ⟨w, .locked⟩ .fetching
  | keeps {now : Instant} {w : Wish} {t : AccessToken} :
    Turn s j (.advance j now) ⟨w, .fetched t⟩ (.finished (.ok (some t)))
  | receives {w : Wish} {t : AccessToken} : Turn s j (.provide j (.ok t)) ⟨w, .fetching⟩ (.fetched t)
  | fails {w : Wish} {e : TokenError} :
    Turn s j (.provide j (.error e)) ⟨w, .fetching⟩ (.finished (.error e))
  | drops {c : Caller} (open' : ∀ a, c.stage ≠ .finished a) : Turn s j (.drop j) c .dropped

/-- The caller at the place is where it was, or has got the lock it has waited for. -/
def Waits (s s' : State) (j : Nat) : Prop :=
  s'.caller? j = s.caller? j ∨
    ∃ w, s.caller? j = some ⟨w, .queued⟩ ∧ s'.caller? j = some ⟨w, .locked⟩

lemma waits_handOver (queue : ∀ k ∈ s.queue, s.stage? k = some .queued) (j : Nat) :
    Waits s s.handOver j := by
  rw [handOver]
  cases hq : s.queue with
  | nil => exact .inl rfl
  | cons i q =>
    obtain ⟨w, caller⟩ := caller?_of_stage? (queue i (by simp [hq]))
    rcases eq_or_ne i j with rfl | other
    · exact .inr ⟨w, caller, caller?_setStage_self (s := { s with holder := _, queue := q }) caller _⟩
    · exact .inl (caller?_setStage_of_ne (s := { s with holder := _, queue := q }) other _)

section Leaving

variable (queue : ∀ k ∈ s.queue, s.stage? k = some .queued) (out : i ∉ s.queue)

include queue out

lemma queue_setStage (st : Stage) :
    ∀ k ∈ (s.setStage i st).queue, (s.setStage i st).stage? k = some .queued := by
  intro k hk
  have other : i ≠ k := by
    rintro rfl
    exact out hk
  rw [stage?_setStage, if_neg other]
  exact queue k hk

/-- A caller that leaves is not given the lock once more. -/
lemma caller?_leave (caller : s.caller? i = some ⟨w, o⟩) (hst : st ≠ .queued) :
    (s.setStage i st).handOver.caller? i = some ⟨w, st⟩ := by
  have self := caller?_setStage_self caller st
  rcases waits_handOver (queue_setStage queue out st) i with same | ⟨w', queued, -⟩
  · exact same.trans self
  · cases self.symm.trans queued
    exact absurd rfl hst

lemma waits_leave (other : i ≠ j) (st : Stage) : Waits s (s.setStage i st).handOver j := by
  have before := caller?_setStage_of_ne (s := s) other st
  rcases waits_handOver (queue_setStage queue out st) j with same | ⟨w, queued, locked⟩
  · exact .inl (same.trans before)
  · exact .inr ⟨w, before.symm.trans queued, locked⟩

end Leaving

namespace Orderly

lemma caller?_conclude_self (h : Orderly s) (caller : s.caller? i = some ⟨w, o⟩)
    (ho : o ≠ .queued) (a : Answer) : (s.conclude i a).caller? i = some ⟨w, .finished a⟩ :=
  caller?_leave (fun k => (h.queue k).1) (h.not_mem_queue (stage?_eq_some caller) ho) caller
    (by simp)

lemma waits_conclude (h : Orderly s) (caller : s.caller? i = some ⟨w, o⟩) (ho : o ≠ .queued)
    (other : i ≠ j) (a : Answer) : Waits s (s.conclude i a) j :=
  waits_leave (fun k => (h.queue k).1) (h.not_mem_queue (stage?_eq_some caller) ho) other _

lemma queue_filter (h : Orderly s) (i : Nat) :
    ∀ k ∈ s.queue.filter (· ≠ i), s.stage? k = some .queued :=
  fun k hk => (h.queue k).1 (List.mem_filter.1 hk).1

lemma caller?_drop_self (h : Orderly s) (caller : s.caller? i = some ⟨w, o⟩)
    (open' : ∀ a, o ≠ .finished a) : (s.drop i).caller? i = some ⟨w, .dropped⟩ := by
  rw [drop_eq (stage?_eq_some caller) open']
  split
  · exact caller?_leave (s := { s with queue := s.queue.filter (· ≠ i) }) (h.queue_filter i)
      (by simp) caller (by simp)
  · exact caller?_setStage_self (s := { s with queue := _ }) caller _

lemma waits_drop (h : Orderly s) (stage : s.stage? i = some o) (open' : ∀ a, o ≠ .finished a)
    (other : i ≠ j) : Waits s (s.drop i) j := by
  rw [drop_eq stage open']
  split
  · exact waits_leave (s := { s with queue := s.queue.filter (· ≠ i) }) (h.queue_filter i)
      (by simp) other _
  · exact .inl (caller?_setStage_of_ne (s := { s with queue := _ }) other _)

end Orderly

lemma caller?_enqueue_self (caller : s.caller? i = some ⟨w, o⟩) :
    ∃ o', (o' = .locked ∨ o' = .queued) ∧ (s.enqueue i).caller? i = some ⟨w, o'⟩ := by
  rw [enqueue]
  split
  · exact ⟨.locked, .inl rfl, caller?_setStage_self (s := { s with holder := _ }) caller _⟩
  · exact ⟨.queued, .inr rfl, caller?_setStage_self (s := { s with queue := _ }) caller _⟩

lemma waits_enqueue (other : i ≠ j) : Waits s (s.enqueue i) j := by
  rw [enqueue]
  split
  · exact .inl (caller?_setStage_of_ne (s := { s with holder := _ }) other _)
  · exact .inl (caller?_setStage_of_ne (s := { s with queue := _ }) other _)

lemma caller?_call (s : State) (w : Wish) (j : Nat) :
    (s.step (.call w)).caller? j =
      if j = s.callers.length then some ⟨w, .called⟩ else s.caller? j := by
  simp only [step, caller?]
  split
  · next new => simp [new]
  · next old =>
    by_cases hj : j < s.callers.length
    · rw [List.getElem?_append_left hj]
    · rw [List.getElem?_eq_none (by simp; omega), List.getElem?_eq_none (by omega)]

lemma length_call (s : State) (w : Wish) :
    (s.step (.call w)).callers.length = s.callers.length + 1 :=
  List.length_append

lemma lt_of_caller? (caller : s.caller? j = some c) : j < s.callers.length :=
  (List.getElem?_eq_some_iff.1 caller).1

/-- What a move does to a caller, be it its own or that of another. -/
theorem Orderly.turn (h : Orderly s) (caller : s.caller? j = some c) (m : Move) :
    ∃ o, (s.step m).caller? j = some ⟨c.wish, o⟩ ∧ Turn s j m c o := by
  have stays {s' : State} (same : s'.caller? j = s.caller? j)
      (still : s.stirs m = true → m.actor? ≠ some j) :
      ∃ o, s'.caller? j = some ⟨c.wish, o⟩ ∧ Turn s j m c o :=
    ⟨c.stage, same.trans caller, .rests still⟩
  -- The caller that moves is either this one, and its move tells what becomes of it, or another.
  have acts {s' : State} {i : Nat} {c' : Caller} {o : Stage} (actor : m.actor? = some i)
      (caller' : s.caller? i = some c')
      (self : s'.caller? i = some ⟨c'.wish, o⟩ ∧ Turn s i m c' o)
      (others : i ≠ j → Waits s s' j) : ∃ o, s'.caller? j = some ⟨c.wish, o⟩ ∧ Turn s j m c o := by
    rcases eq_or_ne i j with rfl | other
    · obtain rfl := Option.some.inj (caller'.symm.trans caller)
      exact ⟨o, self⟩
    · have other' : m.actor? ≠ some j := by simpa [actor] using other
      rcases others other with same | ⟨w, queued, locked⟩
      · exact stays same fun _ => other'
      · obtain rfl := Option.some.inj (caller.symm.trans queued)
        exact ⟨.locked, locked, .obtains other'⟩
  have step := s.step_cases m
  generalize hs' : s.step m = s' at step ⊢
  cases step with
  | calls w =>
    refine stays ?_ (by simp [Move.actor?])
    have old : j ≠ s.callers.length := Nat.ne_of_lt (lt_of_caller? caller)
    rw [← hs', caller?_call, if_neg old]
  | finds caller' found =>
    exact acts rfl caller' ⟨caller?_setStage_self caller' _, .finds (.inl rfl) found⟩
      fun other => .inl (caller?_setStage_of_ne other _)
  | misses caller' _ missing =>
    exact acts rfl caller' ⟨caller?_setStage_self caller' _, .misses missing⟩
      fun other => .inl (caller?_setStage_of_ne other _)
  | declines caller' _ =>
    exact acts rfl caller' ⟨caller?_setStage_self caller' _, .declines⟩
      fun other => .inl (caller?_setStage_of_ne other _)
  | enqueues caller' wants =>
    obtain ⟨o', enters, self⟩ := caller?_enqueue_self caller'
    exact acts rfl caller' ⟨self, .enters wants enters⟩ waits_enqueue
  | findsLate caller' found =>
    exact acts rfl caller' ⟨h.caller?_conclude_self caller' (by simp) _, .finds (.inr rfl) found⟩
      fun other => h.waits_conclude caller' (by simp) other _
  | asks caller' missing =>
    exact acts rfl caller'
      ⟨caller?_setStage_self (s := { s with fetches := _ }) caller' _, .asks missing⟩
      fun other => .inl (caller?_setStage_of_ne (s := { s with fetches := _ }) other _)
  | @keeps _ _ _ t caller' =>
    have kept : Orderly { s with token := some t } := ⟨h.holder, h.queue, h.nodup, h.free⟩
    exact acts rfl caller' ⟨kept.caller?_conclude_self caller' (by simp) _, .keeps⟩
      fun other => kept.waits_conclude caller' (by simp) other _
  | receives t caller' =>
    exact acts rfl caller' ⟨caller?_setStage_self caller' _, .receives⟩
      fun other => .inl (caller?_setStage_of_ne other _)
  | fails e caller' =>
    exact acts rfl caller' ⟨h.caller?_conclude_self caller' (by simp) _, .fails⟩
      fun other => h.waits_conclude caller' (by simp) other _
  | stores t => exact stays rfl (by simp [Move.actor?])
  | drops stage open' =>
    obtain ⟨w, caller'⟩ := caller?_of_stage? stage
    exact acts rfl caller' ⟨h.caller?_drop_self caller' open', .drops open'⟩
      fun other => h.waits_drop stage open' other
  | stays still => exact stays rfl (by simp [stirs, still])
  | ignores idle => exact stays rfl (by simp [stirs, idle])
  | remains i => exact stays rfl (by simp [stirs])

/-! ### The token and the callers after a move -/

/-- What the passing on of the lock leaves as it is. -/
def account (s : State) : Option AccessToken × Nat × Nat :=
  (s.token, s.fetches, s.callers.length)

@[simp] lemma account_setStage (s : State) (i : Nat) (st : Stage) :
    (s.setStage i st).account = s.account := by
  simp [account, setStage]

@[simp] lemma account_handOver (s : State) : s.handOver.account = s.account := by
  rw [handOver]
  split
  · rfl
  · exact account_setStage ..

@[simp] lemma account_conclude (s : State) (i : Nat) (a : Answer) :
    (s.conclude i a).account = s.account := by
  simp [conclude]

@[simp] lemma account_enqueue (s : State) (i : Nat) : (s.enqueue i).account = s.account := by
  rw [enqueue]
  split <;> exact account_setStage ..

@[simp] lemma account_ask (s : State) (i : Nat) :
    (s.ask i).account = (s.token, s.fetches + 1, s.callers.length) :=
  account_setStage ..

@[simp] lemma account_drop (s : State) (i : Nat) : (s.drop i).account = s.account := by
  cases caller : s.caller? i with
  | none => simp only [drop, caller]
  | some c =>
    by_cases open' : ∀ a, c.stage ≠ .finished a
    · rw [drop_eq (stage?_eq_some caller) open']
      split
      · rw [account_handOver]
        exact account_setStage ..
      · exact account_setStage ..
    · obtain ⟨w, o⟩ := c
      push Not at open'
      obtain ⟨a, rfl⟩ := open'
      simp only [drop, caller]

/-- The caller that asks for a new token by a move. -/
def asker? (s : State) (m : Move) : Option Nat :=
  if s.fetches < (s.step m).fetches then m.actor? else none

/-- What a move does to the account. -/
inductive Effect (s : State) : Move → State → Prop
  | asks {i : Nat} {now : Instant} {w : Wish} (caller : s.caller? i = some ⟨w, .locked⟩)
    (missing : w = .current → tokenMissing s.token now = true) : Effect s (.advance i now) (s.ask i)
  | keeps {i : Nat} {now : Instant} {w : Wish} {t : AccessToken} {s' : State}
    (caller : s.caller? i = some ⟨w, .fetched t⟩) (account : s'.account = (some t, s.account.2)) :
    Effect s (.advance i now) s'
  | stores {t : AccessToken} {s' : State} (account : s'.account = (some t, s.account.2)) :
    Effect s (.store t) s'
  | comes {w : Wish} {s' : State}
    (account : s'.account = (s.token, s.fetches, s.callers.length + 1)) : Effect s (.call w) s'
  | nothing {m : Move} {s' : State} (account : s'.account = s.account) : Effect s m s'

lemma effect (s : State) (m : Move) : Effect s m (s.step m) := by
  have step := s.step_cases m
  generalize s.step m = s' at step ⊢
  cases step with
  | calls w => exact .comes (by simp [account])
  | asks caller missing => exact .asks caller missing
  | keeps caller =>
    refine .keeps caller ?_
    rw [account_conclude]
    rfl
  | stores t => exact .stores rfl
  | _ => exact .nothing (by simp)

/-- The token stays as it is unless one is stored. -/
lemma Effect.token {s' : State} (effect : Effect s m s') (stored : ∀ t, m ≠ .store t)
    (unfetched : ∀ i now w t, m = .advance i now → s.caller? i ≠ some ⟨w, .fetched t⟩) :
    s'.token = s.token := by
  cases effect with
  | @asks i => exact congrArg (·.1) (s.account_ask i)
  | keeps caller => exact absurd caller (unfetched _ _ _ _ rfl)
  | stores => exact absurd rfl (stored _)
  | comes account => exact congrArg (·.1) account
  | nothing account => exact congrArg (·.1) account

lemma step_of_locked {now : Instant} (caller : s.caller? i = some ⟨w, .locked⟩)
    (missing : w = .current → tokenMissing s.token now = true) :
    s.step (.advance i now) = s.ask i := by
  cases w with
  | current =>
    have none' := acceptedToken?_eq_none_iff.2 (missing rfl)
    simp only [step, advance, caller, none']
  | refresh => simp only [step, advance, caller]
  | renewal => simp only [step, advance, caller]

lemma asker?_eq_some_iff :
    s.asker? m = some i ↔ ∃ now w, m = .advance i now ∧ s.caller? i = some ⟨w, .locked⟩ ∧
      (w = .current → tokenMissing s.token now = true) := by
  rw [asker?]
  constructor
  · intro asked
    split at asked
    · next more =>
      have effect := s.effect m
      generalize s.step m = s' at effect more
      cases effect with
      | asks caller missing =>
        obtain rfl := Option.some.inj asked
        exact ⟨_, _, rfl, caller, missing⟩
      | _ =>
        rename_i account
        simp only [State.account, Prod.mk.injEq] at account
        omega
    · cases asked
  · rintro ⟨now, w, rfl, caller, missing⟩
    rw [step_of_locked caller missing, if_pos (by simp [ask, setStage])]
    rfl

lemma length_step (s : State) (m : Move) :
    (s.step m).callers.length = s.callers.length ∨
      ∃ w, m = .call w ∧ (s.step m).callers.length = s.callers.length + 1 := by
  have effect := s.effect m
  generalize hs' : s.step m = s' at effect
  cases effect with
  | @asks i =>
    exact .inl (congrArg (·.2.2) (s.account_ask i))
  | comes account => exact .inr ⟨_, rfl, congrArg (·.2.2) account⟩
  | keeps _ account => exact .inl (congrArg (·.2.2) account)
  | stores account => exact .inl (congrArg (·.2.2) account)
  | nothing account => exact .inl (congrArg (·.2.2) account)

/-- A caller comes at its first move and stays a caller. -/
lemma Orderly.caller?_step (h : Orderly s) (after : (s.step m).caller? j = some c) :
    (∃ c₀, s.caller? j = some c₀ ∧ c₀.wish = c.wish ∧ Turn s j m c₀ c.stage) ∨
      s.caller? j = none ∧ c.stage = .called ∧ m = .call c.wish := by
  cases before : s.caller? j with
  | some c₀ =>
    obtain ⟨o, after', turn⟩ := h.turn before m
    obtain rfl := Option.some.inj (after'.symm.trans after)
    exact .inl ⟨c₀, rfl, rfl, turn⟩
  | none =>
    have new : s.callers.length ≤ j := List.getElem?_eq_none_iff.1 before
    have old := lt_of_caller? after
    rcases s.length_step m with length | ⟨w, rfl, -⟩
    · omega
    · rw [caller?_call, before] at after
      split at after
      · obtain rfl := Option.some.inj after
        exact .inr ⟨rfl, rfl, rfl⟩
      · cases after

/-! ### The course of a caller -/

end State

/-- How many moves of its own a caller has before it at most. -/
def Stage.ahead : Stage → Nat
  | .called     => 6
  | .missed     => 5
  | .queued     => 4
  | .locked     => 3
  | .fetching   => 2
  | .fetched _  => 1
  | .finished _ => 0
  | .dropped    => 0

namespace State

variable {s : State} {i j : Nat} {c : Caller} {o : Stage} {m : Move}

lemma Turn.ahead_le (h : Turn s j m c o) : o.ahead ≤ c.stage.ahead := by
  cases h with
  | rests => exact Nat.le_refl _
  | enters wants enters =>
    rcases wants with rfl | ⟨-, rfl⟩ <;> rcases enters with rfl | rfl <;> simp [Stage.ahead]
  | _ => simp [Stage.ahead]

lemma Turn.ahead_lt (h : Turn s j m c o) (stirs : s.stirs m = true) (actor : m.actor? = some j) :
    o.ahead < c.stage.ahead := by
  cases h with
  | rests still => exact absurd actor (still stirs)
  | obtains other => exact absurd actor other
  | finds looks _ => rcases looks with rfl | rfl <;> simp [Stage.ahead]
  | enters wants enters =>
    rcases wants with rfl | ⟨-, rfl⟩ <;> rcases enters with rfl | rfl <;> simp [Stage.ahead]
  | drops => simp [State.stirs] at stirs
  | _ => simp [Stage.ahead]

lemma Turn.eq_of_finished {w : Wish} {a : Answer} (h : Turn s j m ⟨w, .finished a⟩ o) :
    o = .finished a := by
  cases h with
  | rests => rfl
  | finds looks _ => simp at looks
  | enters wants _ => simp at wants
  | drops open' => exact absurd rfl (open' a)

/-! ### Runs -/

lemma steps_append (s : State) (before after : List Move) :
    s.steps (before ++ after) = (s.steps before).steps after :=
  List.foldl_append

lemma steps_concat (s : State) (moves : List Move) (m : Move) :
    s.steps (moves ++ [m]) = (s.steps moves).step m :=
  steps_append s moves [m]

/-- A caller never goes back. -/
lemma Orderly.ahead_steps (h : Orderly s) (caller : s.caller? j = some c) (moves : List Move) :
    ∃ o, (s.steps moves).caller? j = some ⟨c.wish, o⟩ ∧ o.ahead ≤ c.stage.ahead := by
  induction moves generalizing s c with
  | nil => exact ⟨c.stage, caller, Nat.le_refl _⟩
  | cons m moves ih =>
    obtain ⟨o, after, turn⟩ := h.turn caller m
    obtain ⟨o', last, le⟩ := ih h.step after
    exact ⟨o', last, le.trans turn.ahead_le⟩

/-- An answer is final. -/
lemma Orderly.answer?_steps (h : Orderly s) {w : Wish} {a : Answer}
    (caller : s.caller? j = some ⟨w, .finished a⟩) (moves : List Move) :
    (s.steps moves).answer? j = some a := by
  induction moves generalizing s with
  | nil =>
    change s.answer? j = some a
    simp [answer?, caller]
  | cons m moves ih =>
    obtain ⟨o, after, turn⟩ := h.turn caller m
    obtain rfl := turn.eq_of_finished
    exact ih h.step after

/-- The callers that ask for a new token in the course of several moves, the first to ask first. -/
def askers (s : State) : List Move → List Nat
  | []         => []
  | m :: moves => (s.asker? m).toList ++ (s.step m).askers moves

lemma askers_append (s : State) (before after : List Move) :
    s.askers (before ++ after) = s.askers before ++ (s.steps before).askers after := by
  induction before generalizing s with
  | nil => rfl
  | cons m before ih => simp [askers, ih, steps]

lemma fetches_step (s : State) (m : Move) :
    (s.step m).fetches = s.fetches + (s.asker? m).toList.length := by
  rw [asker?]
  have effect := s.effect m
  generalize s.step m = s' at effect ⊢
  cases effect with
  | @asks i =>
    have account := s.account_ask i
    simp only [State.account, Prod.mk.injEq] at account
    rw [if_pos (by omega), account.2.1]
    rfl
  | _ =>
    rename_i account
    simp only [State.account, Prod.mk.injEq] at account
    rw [if_neg (by omega)]
    exact account.2.1

lemma fetches_steps (s : State) (moves : List Move) :
    (s.steps moves).fetches = s.fetches + (s.askers moves).length := by
  induction moves generalizing s with
  | nil => rfl
  | cons m moves ih =>
    change ((s.step m).steps moves).fetches = _
    rw [ih, fetches_step, askers, List.length_append, Nat.add_assoc]

/-- A caller that has asked has come to its question. -/
lemma Orderly.ahead_of_mem_askers (h : Orderly s) {moves : List Move} (mem : j ∈ s.askers moves) :
    ∃ c, (s.steps moves).caller? j = some c ∧ c.stage.ahead ≤ Stage.fetching.ahead := by
  induction moves generalizing s with
  | nil => simp [askers] at mem
  | cons m moves ih =>
    rcases List.mem_append.1 mem with now' | later
    · obtain ⟨now, w, rfl, caller, missing⟩ := asker?_eq_some_iff.1 (Option.mem_toList.1 now')
      have asked : (s.step (.advance j now)).caller? j = some ⟨w, .fetching⟩ := by
        rw [step_of_locked caller missing]
        exact caller?_setStage_self (s := { s with fetches := _ }) caller _
      obtain ⟨o, last, le⟩ := h.step.ahead_steps asked moves
      exact ⟨⟨w, o⟩, last, le⟩
    · exact ih h.step later

/-- A caller that has come to its question or beyond does not ask any more. -/
lemma Orderly.not_mem_askers (h : Orderly s) (caller : s.caller? j = some c)
    (past : c.stage.ahead ≤ Stage.fetching.ahead) (moves : List Move) : j ∉ s.askers moves := by
  induction moves generalizing s c with
  | nil => simp [askers]
  | cons m moves ih =>
    rw [askers, List.mem_append, not_or]
    constructor
    · intro asks
      obtain ⟨_, w, -, locked, -⟩ := asker?_eq_some_iff.1 (Option.mem_toList.1 asks)
      obtain rfl := Option.some.inj (locked.symm.trans caller)
      simp [Stage.ahead] at past
    · obtain ⟨o, after, turn⟩ := h.turn caller m
      exact ih h.step after (turn.ahead_le.trans past)

/-- When no caller can go on, everyone has an answer or has been given up: nobody waits for a lock
that is not given back. -/
lemma Orderly.at_rest (h : Orderly s) (still : ∀ m, s.stirs m = false)
    (caller : s.caller? j = some c) : (∃ a, c.stage = .finished a) ∨ c.stage = .dropped := by
  have stuck (k : Nat) : s.canAdvance k = false := still (.advance k ⟨0⟩)
  have unlocked : s.holder = none := by
    cases holder : s.holder with
    | none => rfl
    | some k =>
      obtain ⟨o, stage, lock⟩ := (h.holder k).1 holder
      obtain ⟨w, caller'⟩ := caller?_of_stage? stage
      have stuck := stuck k
      have unanswered := still (.provide k (.error (.malformed "")))
      cases o with
      | locked => simp [canAdvance, caller'] at stuck
      | fetched t => simp [canAdvance, caller'] at stuck
      | fetching => simp [stirs, IsFetching, stage] at unanswered
      | _ => simp [Stage.hasLock] at lock
  have stuck := stuck j
  obtain ⟨w, o⟩ := c
  cases o with
  | finished a => exact .inl ⟨a, rfl⟩
  | dropped => exact .inr rfl
  | queued =>
    have waits := (h.queue j).2 (stage?_eq_some caller)
    simp [h.free unlocked] at waits
  | fetching =>
    have holder := (h.holder j).2 ⟨_, stage?_eq_some caller, rfl⟩
    cases unlocked.symm.trans holder
  | _ => simp [canAdvance, caller] at stuck

/-! ### The length of a run -/

/-- How many moves of their own the callers have before them at most. -/
def ahead (s : State) : Nat :=
  ∑ k ∈ Finset.range s.callers.length, ((s.stage? k).map Stage.ahead).getD 0

/-- How many of several moves take a caller further. -/
def stirred (s : State) : List Move → Nat
  | []         => 0
  | m :: moves => (s.stirs m).toNat + (s.step m).stirred moves

lemma ahead_call (s : State) (w : Wish) : (s.step (.call w)).ahead = s.ahead + 6 := by
  have stage (k : Nat) (hk : k < s.callers.length) :
      (s.step (.call w)).stage? k = s.stage? k := by
    rw [stage?, caller?_call, if_neg (Nat.ne_of_lt hk)]
    rfl
  have last : (s.step (.call w)).stage? s.callers.length = some .called := by
    rw [stage?, caller?_call, if_pos rfl]
    rfl
  rw [ahead, length_call, Finset.sum_range_succ, last]
  refine congrArg (· + 6) (Finset.sum_congr rfl fun k hk => ?_)
  rw [stage k (Finset.mem_range.1 hk)]

/-- A caller that a move takes further is there. -/
lemma caller?_of_stirs (stirs : s.stirs m = true) :
    ∃ i c, m.actor? = some i ∧ s.caller? i = some c := by
  cases m with
  | advance i now =>
    cases caller : s.caller? i with
    | some c => exact ⟨i, c, rfl, caller⟩
    | none => simp [State.stirs, canAdvance, caller] at stirs
  | provide i r =>
    cases caller : s.caller? i with
    | some c => exact ⟨i, c, rfl, caller⟩
    | none => simp [State.stirs, IsFetching, stage?, caller] at stirs
  | _ => cases stirs

lemma Orderly.ahead_le (h : Orderly s) (length : (s.step m).callers.length = s.callers.length) :
    (s.stirs m).toNat + (s.step m).ahead ≤ s.ahead := by
  rw [ahead, ahead, length]
  have lower (k : Nat) (hk : k ∈ Finset.range s.callers.length) :
      (((s.step m).stage? k).map Stage.ahead).getD 0 ≤ ((s.stage? k).map Stage.ahead).getD 0 := by
    have caller := List.getElem?_eq_getElem (Finset.mem_range.1 hk)
    change s.caller? k = some _ at caller
    obtain ⟨o, after, turn⟩ := h.turn caller m
    rw [stage?_eq_some caller, stage?_eq_some after]
    exact turn.ahead_le
  cases stirs : s.stirs m with
  | false => simpa using Finset.sum_le_sum lower
  | true =>
    obtain ⟨i, c, actor, caller⟩ := caller?_of_stirs stirs
    obtain ⟨o, after, turn⟩ := h.turn caller m
    rw [Bool.toNat_true, Nat.add_comm]
    refine Finset.sum_lt_sum lower ⟨i, Finset.mem_range.2 (lt_of_caller? caller), ?_⟩
    rw [stage?_eq_some caller, stage?_eq_some after]
    exact turn.ahead_lt stirs actor

lemma Orderly.stirs_add_ahead_le (h : Orderly s) (m : Move) :
    (s.stirs m).toNat + (s.step m).ahead + 6 * s.callers.length ≤
      s.ahead + 6 * (s.step m).callers.length := by
  rcases s.length_step m with length | ⟨w, rfl, length⟩
  · have := h.ahead_le length
    omega
  · rw [ahead_call, length]
    change 0 + _ + _ ≤ _
    omega

lemma Orderly.stirred_add_ahead_le (h : Orderly s) (moves : List Move) :
    s.stirred moves + (s.steps moves).ahead + 6 * s.callers.length ≤
      s.ahead + 6 * (s.steps moves).callers.length := by
  induction moves generalizing s with
  | nil =>
    change 0 + s.ahead + 6 * s.callers.length ≤ s.ahead + 6 * s.callers.length
    omega
  | cons m moves ih =>
    have first := h.stirs_add_ahead_le m
    have rest := ih (h.step (m := m))
    change (s.stirs m).toNat + (s.step m).stirred moves + ((s.step m).steps moves).ahead + _ ≤
      _ + 6 * ((s.step m).steps moves).callers.length
    omega

end State

end StagedTransfer.TokenCache
