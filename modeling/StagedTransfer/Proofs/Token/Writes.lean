import Mathlib.Tactic.Lemma
import StagedTransfer.Proofs.Token.SingleFlight

/-!
# Writes of the token

The cached token is the one that was written last. It is written from elsewhere, or by a caller that
has got a new one; a question that fails and a caller that is given up write nothing. An error comes
to nobody but the caller whose question failed: whoever has the lock next looks at the cache once
more, or asks. The main statement is `token_accounted`.
-/

namespace StagedTransfer.TokenCache

/-- A token that is written, by the caller that has got it or from elsewhere. -/
structure Write where
  writer : Option Nat
  token  : AccessToken

namespace State

/-- What a move writes to the cache. -/
def write? (s : State) : Move → Option Write
  | .store t     => some ⟨none, t⟩
  | .advance i _ =>
    match s.caller? i with
    | some ⟨_, .fetched t⟩ => some ⟨some i, t⟩
    | _                    => none
  | _            => none

/-- What several moves write, the first write first. -/
def writes (s : State) : List Move → List Write
  | []         => []
  | m :: moves => (s.write? m).toList ++ (s.step m).writes moves

/-- In the course of the moves the question of a caller fails. -/
def HasFailed (s : State) (moves : List Move) (i : Nat) (e : TokenError) : Prop :=
  ∃ before after, moves = before ++ .provide i (.error e) :: after ∧ (s.steps before).IsFetching i

variable {s : State} {i j : Nat} {m : Move} {moves : List Move} {w : Wish} {t : AccessToken}
  {e : TokenError}

/-! ### The token after several moves -/

lemma write?_eq_some_iff {writer : Option Nat} :
    s.write? m = some ⟨writer, t⟩ ↔ m = .store t ∧ writer = none ∨
      ∃ i now w, m = .advance i now ∧ writer = some i ∧ s.caller? i = some ⟨w, .fetched t⟩ := by
  cases m with
  | store t' =>
    simp [write?, eq_comm, and_comm]
  | advance i now =>
    rw [write?]
    split
    · next w t' caller =>
      simp only [Option.some.injEq, Write.mk.injEq, reduceCtorEq, false_and, false_or]
      constructor
      · rintro ⟨rfl, rfl⟩
        exact ⟨i, now, w, rfl, rfl, caller⟩
      · rintro ⟨_, _, _, same, rfl, caller'⟩
        cases same
        cases caller.symm.trans caller'
        exact ⟨rfl, rfl⟩
    · next other =>
      refine iff_of_false (by simp) ?_
      rintro (⟨same, -⟩ | ⟨_, _, w, same, -, caller⟩) <;> cases same
      exact other w t caller
  | _ => simp [write?]

lemma token_write (s : State) (m : Move) :
    (s.step m).token = ((s.write? m).map (·.token)).or s.token := by
  cases written : s.write? m with
  | none =>
    refine (s.effect m).token (fun t same => ?_) fun i now w t same caller => ?_
    · rw [write?_eq_some_iff.2 (.inl ⟨same, rfl⟩)] at written
      cases written
    · rw [write?_eq_some_iff.2 (.inr ⟨i, now, w, same, rfl, caller⟩)] at written
      cases written
  | some write =>
    obtain ⟨rfl, -⟩ | ⟨i, now, w, rfl, -, caller⟩ := write?_eq_some_iff.1 written
    · rfl
    · exact token_of_fetched caller

/-- The token is the one that was written last. -/
lemma token_writes (s : State) (moves : List Move) :
    (s.steps moves).token = ((s.writes moves).getLast?.map (·.token)).or s.token := by
  induction moves generalizing s with
  | nil => rfl
  | cons m moves ih =>
    change ((s.step m).steps moves).token = _
    rw [ih, token_write, writes, List.getLast?_append, Option.map_or, Option.or_assoc]
    cases s.write? m <;> rfl

lemma writes_append (s : State) (before after : List Move) :
    s.writes (before ++ after) = s.writes before ++ (s.steps before).writes after := by
  induction before generalizing s with
  | nil => rfl
  | cons m before ih => simp [writes, ih, steps]

lemma mem_writes_iff {write : Write} :
    write ∈ s.writes moves ↔
      ∃ before m after, moves = before ++ m :: after ∧ (s.steps before).write? m = some write := by
  induction moves generalizing s with
  | nil => simp [writes]
  | cons m moves ih =>
    rw [writes, List.mem_append, Option.mem_toList, ih]
    constructor
    · rintro (first | ⟨before, m', after, rfl, later⟩)
      · exact ⟨[], m, moves, rfl, first⟩
      · exact ⟨m :: before, m', after, rfl, later⟩
    · rintro ⟨_ | ⟨m', before⟩, m'', after, same, written⟩ <;> cases same
      · exact .inl written
      · exact .inr ⟨before, m'', after, rfl, written⟩

/-! ### Who writes -/

lemma HasFetched.append {before : List Move} (h : s.HasFetched before i t) (after : List Move) :
    s.HasFetched (before ++ after) i t := by
  obtain ⟨before, rest, rfl, asked⟩ := h
  exact ⟨before, rest ++ after, by simp, asked⟩

lemma mem_writes_stored_iff : ⟨none, t⟩ ∈ s.writes moves ↔ .store t ∈ moves := by
  rw [mem_writes_iff, List.mem_iff_append]
  constructor
  · rintro ⟨before, m, after, rfl, written⟩
    rcases write?_eq_some_iff.1 written with ⟨rfl, -⟩ | ⟨_, _, _, -, writer, -⟩
    · exact ⟨before, after, rfl⟩
    · cases writer
  · rintro ⟨before, after, rfl⟩
    exact ⟨before, .store t, after, rfl, rfl⟩

lemma Turn.eq_of_dropped {o : Stage} (h : Turn s j m ⟨w, .dropped⟩ o) : o = .dropped := by
  cases h with
  | rests => rfl
  | finds looks _ => simp at looks
  | enters wants _ => simp at wants
  | drops => rfl

/-- A caller that has been given up comes to nothing more. -/
lemma Orderly.caller?_of_dropped (h : Orderly s) (caller : s.caller? i = some ⟨w, .dropped⟩)
    (moves : List Move) : (s.steps moves).caller? i = some ⟨w, .dropped⟩ := by
  induction moves generalizing s with
  | nil => exact caller
  | cons m moves ih =>
    obtain ⟨o, after, turn⟩ := h.turn caller m
    obtain rfl := turn.eq_of_dropped
    exact ih h.step after

/-- A caller that has got a token and comes to an answer has written that token. -/
lemma Orderly.mem_writes_of_answer (h : Orderly s) (caller : s.caller? i = some ⟨w, .fetched t⟩)
    {a : Answer} (answer : (s.steps moves).answer? i = some a) : ⟨some i, t⟩ ∈ s.writes moves := by
  induction moves generalizing s with
  | nil =>
    change s.answer? i = some a at answer
    simp [answer?, caller] at answer
  | cons m moves ih =>
    change ((s.step m).steps moves).answer? i = some a at answer
    rw [writes, List.mem_append]
    obtain ⟨o, after, turn⟩ := h.turn caller m
    cases turn with
    | rests => exact .inr (ih h.step after answer)
    | keeps => exact .inl (by simp [write?, caller])
    | drops =>
      rw [answer?, h.step.caller?_of_dropped after moves] at answer
      cases answer
    | finds looks _ => simp at looks
    | enters wants _ => simp at wants

/-- A caller that has got a token and goes on has its answer. -/
lemma Orderly.caller?_keep (h : Orderly s) (caller : s.caller? i = some ⟨w, .fetched t⟩)
    (now : Instant) :
    (s.step (.advance i now)).caller? i = some ⟨w, .finished (.ok (some t))⟩ := by
  have kept : Orderly { s with token := some t } := ⟨h.holder, h.queue, h.nodup, h.free⟩
  simp only [State.step, advance, caller]
  exact kept.caller?_conclude_self caller (by simp) _

lemma caller?_receive (caller : s.caller? i = some ⟨w, .fetching⟩) (t : AccessToken) :
    (s.step (.provide i (.ok t))).caller? i = some ⟨w, .fetched t⟩ := by
  simp only [step, provide, caller]
  exact caller?_setStage_self caller _

lemma Orderly.caller?_fail (h : Orderly s) (caller : s.caller? i = some ⟨w, .fetching⟩)
    (e : TokenError) :
    (s.step (.provide i (.error e))).caller? i = some ⟨w, .finished (.error e)⟩ := by
  simp only [State.step, provide, caller]
  exact h.caller?_conclude_self caller (by simp) _

/-- A caller writes the token that it got, if it comes to an answer. -/
lemma Orderly.mem_writes_fetched_iff (h : Orderly s) (new : s.callers = []) :
    ⟨some i, t⟩ ∈ s.writes moves ↔
      s.HasFetched moves i t ∧ (s.steps moves).answer? i = some (.ok (some t)) := by
  constructor
  · intro mem
    obtain ⟨before, m, after, rfl, written⟩ := mem_writes_iff.1 mem
    obtain ⟨-, writer⟩ | ⟨k, now, w, rfl, writer, caller⟩ := write?_eq_some_iff.1 written
    · cases writer
    obtain rfl := Option.some.inj writer
    refine ⟨((sourced h new before caller).fetched t rfl).append _, ?_⟩
    rw [steps_append]
    have finished := (h.steps before).caller?_keep caller now
    exact (h.steps before).step.answer?_steps finished after
  · rintro ⟨⟨before, after, rfl, asked⟩, answer⟩
    obtain ⟨w, caller⟩ := caller?_of_stage? asked
    rw [steps_append] at answer
    rw [writes_append, writes, List.mem_append, List.mem_append]
    exact .inr (.inr ((h.steps before).step.mem_writes_of_answer (caller?_receive caller t) answer))

/-- Nobody has an error but the caller whose question failed. -/
lemma Orderly.answer?_eq_error_iff (h : Orderly s) (new : s.callers = []) :
    (s.steps moves).answer? i = some (.error e) ↔ s.HasFailed moves i e := by
  constructor
  · intro answer
    obtain ⟨w, caller⟩ := caller?_of_answer? answer
    induction moves using List.reverseRecOn with
    | nil =>
      change s.caller? i = _ at caller
      simp [caller?, new] at caller
    | append_singleton moves m ih =>
      rw [steps_concat] at caller
      rcases (h.steps moves).caller?_step caller with ⟨⟨w', o⟩, before, rfl, turn⟩ | ⟨-, called, -⟩
      · generalize last : Stage.finished (.error e) = o' at turn
        cases turn with
        | rests =>
          cases last
          obtain ⟨first, after, rfl, asked⟩ := ih (by simp [answer?, before]) before
          exact ⟨first, after ++ [m], by simp, asked⟩
        | fails =>
          cases last
          exact ⟨moves, [], rfl, stage?_eq_some before⟩
        | enters _ enters => rcases enters with rfl | rfl <;> cases last
        | _ => cases last
      · cases called
  · rintro ⟨before, after, rfl, asked⟩
    obtain ⟨w, caller⟩ := caller?_of_stage? asked
    rw [steps_append]
    exact (h.steps before).step.answer?_steps ((h.steps before).caller?_fail caller e) after

/-! ### Who comes next -/

@[simp] lemma holder_handOver (s : State) : s.handOver.holder = s.queue.head? := by
  rw [handOver]
  cases s.queue <;> rfl

@[simp] lemma queue_handOver (s : State) : s.handOver.queue = s.queue.tail := by
  rw [handOver]
  split
  · next none' => simp [none']
  · next some' => simp [some', setStage]

/-- A move passes the lock to the first caller that waits for it. -/
structure PassesOn (s : State) (m : Move) : Prop where
  holder : (s.step m).holder = s.queue.head?
  queue  : (s.step m).queue = s.queue.tail
  locked : ∀ j, s.queue.head? = some j → (s.step m).stage? j = some .locked

lemma Orderly.passesOn (h : Orderly s) (holder : (s.step m).holder = s.queue.head?)
    (queue : (s.step m).queue = s.queue.tail) : PassesOn s m := by
  refine ⟨holder, queue, fun j first => ?_⟩
  obtain ⟨w, queued⟩ := caller?_of_stage? ((h.queue j).1 (List.mem_of_head? first))
  obtain ⟨o, after, turn⟩ := h.turn queued m
  obtain ⟨o', stage, lock⟩ := (h.step.holder j).1 (holder.trans first)
  obtain rfl := Option.some.inj (stage.symm.trans (stage?_eq_some after))
  cases turn with
  | obtains => exact stage
  | rests => cases lock
  | drops => cases lock
  | finds looks _ => simp at looks
  | enters wants _ => simp at wants

/-- The lock stays with the caller that has it, or passes on. -/
lemma Orderly.holder_step (h : Orderly s) (holder : s.holder = some i) (m : Move) :
    (s.step m).holder = some i ∨ PassesOn s m := by
  have passes {s' : State} (same : s.step m = s'.handOver) (queue : s'.queue = s.queue) :
      PassesOn s m := by
    refine h.passesOn ?_ ?_ <;> rw [same]
    · rw [holder_handOver, queue]
    · rw [queue_handOver, queue]
  have step := s.step_cases m
  generalize hs' : s.step m = s' at step passes ⊢
  cases step with
  | enqueues =>
    rw [State.enqueue, holder, if_neg (by simp)]
    exact .inl rfl
  | findsLate => exact .inr (passes rfl rfl)
  | keeps => exact .inr (passes rfl rfl)
  | fails => exact .inr (passes rfl rfl)
  | @drops k o stage open' =>
    rw [drop_eq stage open'] at passes ⊢
    by_cases own : s.holder = some k
    · rw [if_pos own] at passes
      refine .inr (passes rfl ?_)
      obtain ⟨o', stage', lock⟩ := (h.holder k).1 own
      have out : k ∉ s.queue := by
        refine h.not_mem_queue stage' ?_
        rintro rfl
        cases lock
      exact List.filter_eq_self.2 fun j mem => by
        simpa using fun same : j = k => out (same ▸ mem)
    · rw [if_neg own]
      exact .inl holder
  | _ => exact .inl holder

/-- Whoever has an answer or is given up does not keep the lock. -/
lemma Orderly.passesOn_of_left (h : Orderly s) (holder : s.holder = some i)
    (left : (∃ e, m = .provide i (.error e) ∧ s.IsFetching i) ∨ m = .drop i ∨
      (s.step m).holder ≠ some i) : PassesOn s m := by
  refine (h.holder_step holder m).resolve_left fun kept => ?_
  obtain ⟨o, stage, lock⟩ := (h.step.holder i).1 kept
  rcases left with ⟨e, rfl, asked⟩ | rfl | lost
  · obtain ⟨w, caller⟩ := caller?_of_stage? asked
    cases stage.symm.trans (stage?_eq_some (h.caller?_fail caller e))
    cases lock
  · obtain ⟨o', before, lock'⟩ := (h.holder i).1 holder
    obtain ⟨w, caller⟩ := caller?_of_stage? before
    have open' (a : Answer) : o' ≠ .finished a := by
      rintro rfl
      cases lock'
    cases stage.symm.trans (stage?_eq_some (h.caller?_drop_self caller open'))
    cases lock
  · exact lost kept

/-- A caller that has the lock keeps it until it goes on itself. -/
lemma Orderly.caller?_of_locked (h : Orderly s) (caller : s.caller? j = some ⟨w, .locked⟩)
    (others : ∀ m ∈ moves, m.actor? ≠ some j) :
    (s.steps moves).caller? j = some ⟨w, .locked⟩ := by
  induction moves generalizing s with
  | nil => exact caller
  | cons m moves ih =>
    have other := others m (by simp)
    obtain ⟨o, after, turn⟩ := h.turn caller m
    have still : o = .locked := by
      cases turn with
      | rests => rfl
      | _ => exact absurd rfl other
    exact ih h.step (still ▸ after) fun m' mem => others m' (by simp [mem])

/-- What a caller does that has the lock and goes on. -/
structure Decides (s : State) (j : Nat) (w : Wish) (now : Instant) : Prop where
  /-- If it wants an accepted token and there is one by now, it takes that and does not ask. -/
  takes : ∀ t, w = .current → acceptedToken? s.token now = some t →
    (s.step (.advance j now)).answer? j = some (.ok (some t)) ∧
      (s.step (.advance j now)).fetches = s.fetches
  /-- If there is none, or it wants a new one in any case, it asks a question of its own. -/
  asks : (w = .current → tokenMissing s.token now = true) →
    (s.step (.advance j now)).IsFetching j ∧ (s.step (.advance j now)).fetches = s.fetches + 1

lemma Orderly.decides (h : Orderly s) (caller : s.caller? j = some ⟨w, .locked⟩) (now : Instant) :
    Decides s j w now := by
  constructor
  case takes =>
    rintro t rfl found
    obtain ⟨token, live⟩ := acceptedToken?_eq_some_iff.1 found
    have finds : s.Finds j now t := ⟨.inr caller, token, live⟩
    refine ⟨by simp [answer?, finds.caller?_step h], fetches_step_of_silent ?_⟩
    rw [Option.eq_none_iff_forall_ne_some]
    intro k asks
    obtain ⟨_, _, same, caller', missing⟩ := asker?_eq_some_iff.1 asks
    cases same
    cases caller.symm.trans caller'
    rw [acceptedToken?_eq_none_iff.2 (missing rfl)] at found
    cases found
  case asks =>
    intro missing
    rw [step_of_locked caller missing]
    exact ⟨stage?_eq_some (caller?_setStage_self (s := { s with fetches := _ }) caller _), rfl⟩

/-! ### The account -/

/-- What holds of the token of a cache with the token `cached` after several moves. -/
structure Accounted (cached : Option AccessToken) (moves : List Move) : Prop where
  /-- The token is the one that was written last, or the one from the beginning. -/
  token : ((holding cached).steps moves).token =
    (((holding cached).writes moves).getLast?.map (·.token)).or cached
  /-- What is stored from elsewhere is written. -/
  stored : ∀ t, ⟨none, t⟩ ∈ (holding cached).writes moves ↔ .store t ∈ moves
  /-- A caller writes what its question got, and has that as its answer. -/
  fetched : ∀ i t, ⟨some i, t⟩ ∈ (holding cached).writes moves ↔
    (holding cached).HasFetched moves i t ∧
      ((holding cached).steps moves).answer? i = some (.ok (some t))
  /-- A caller whose question failed, or that has been given up, has written nothing. -/
  unwritten : ∀ i t, (∃ e, (holding cached).HasFailed moves i e) ∨
    ((holding cached).steps moves).stage? i = some .dropped →
    ⟨some i, t⟩ ∉ (holding cached).writes moves
  /-- The answer to a question and the end of a caller that is given up leave the token as it is. -/
  leaves : ∀ before m after i, moves = before ++ m :: after →
    (∃ r, m = .provide i r) ∨ m = .drop i →
    (((holding cached).steps before).step m).token = ((holding cached).steps before).token
  /-- A caller has an error as its answer if its own question failed with it, and only then. -/
  errors : ∀ i e, ((holding cached).steps moves).answer? i = some (.error e) ↔
    (holding cached).HasFailed moves i e
  /-- Whoever leaves the lock, be it that its question fails, that it is given up or that it has a
  token, leaves it to the first that waits. -/
  passes : ∀ before m after i, moves = before ++ m :: after →
    ((holding cached).steps before).holder = some i →
    ((∃ e, m = .provide i (.error e) ∧ ((holding cached).steps before).IsFetching i) ∨
      m = .drop i ∨ (((holding cached).steps before).step m).holder ≠ some i) →
    PassesOn ((holding cached).steps before) m
  /-- That caller has the lock until it goes on. -/
  keeps : ∀ before after j w, moves = before ++ after →
    ((holding cached).steps before).caller? j = some ⟨w, .locked⟩ →
    (∀ m ∈ after, m.actor? ≠ some j) →
    ((holding cached).steps moves).caller? j = some ⟨w, .locked⟩
  /-- When it goes on, it looks at the cache once more if it wants an accepted token, and asks if
  that does not help. -/
  decides : ∀ j w now, ((holding cached).steps moves).caller? j = some ⟨w, .locked⟩ →
    Decides ((holding cached).steps moves) j w now

/-- Whatever the moves are, the cached token is the one that was written last, and an error stays
with the caller whose question failed. -/
theorem token_accounted (cached : Option AccessToken) (moves : List Move) :
    Accounted cached moves := by
  have start := Orderly.holding cached
  have orderly := start.steps moves
  constructor
  case token => exact token_writes (holding cached) moves
  case stored => exact fun t => mem_writes_stored_iff
  case fetched => exact fun i t => start.mem_writes_fetched_iff rfl
  case unwritten =>
    intro i t left written
    have answer := ((start.mem_writes_fetched_iff rfl).1 written).2
    rcases left with ⟨e, failed⟩ | dropped
    · cases answer.symm.trans ((start.answer?_eq_error_iff rfl).2 failed)
    · obtain ⟨w, caller⟩ := caller?_of_answer? answer
      cases dropped.symm.trans (stage?_eq_some caller)
  case leaves =>
    rintro before m after i - (⟨r, rfl⟩ | rfl) <;> rw [token_write] <;> rfl
  case errors => exact fun i e => start.answer?_eq_error_iff rfl
  case passes =>
    intro before m after i _ holder left
    exact (start.steps before).passesOn_of_left holder left
  case keeps =>
    rintro before after j w rfl caller others
    rw [steps_append]
    exact (start.steps before).caller?_of_locked caller others
  case decides => exact fun j w now caller => orderly.decides caller now

/-- Two callers find no token. The question of the first fails while the second waits for the lock;
then the second asks, and is given up after it has got a token. -/
def failedFirst : List Move :=
  [.call .current, .call .current, .advance 0 ⟨20⟩, .advance 1 ⟨20⟩, .advance 0 ⟨21⟩,
    .advance 0 ⟨21⟩, .advance 1 ⟨22⟩, .provide 0 (.error (.http "closed")), .advance 1 ⟨30⟩,
    .provide 1 (.ok ⟨"fresh", ⟨90⟩⟩), .drop 1]

example : ((holding none).steps failedFirst).answer? 0 = some (.error (.http "closed")) ∧
    ((holding none).steps failedFirst).fetches = 2 ∧
    ((holding none).steps failedFirst).token = none := by
  decide

end State

end StagedTransfer.TokenCache
