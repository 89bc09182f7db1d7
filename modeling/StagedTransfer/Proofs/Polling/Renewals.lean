import StagedTransfer.Proofs.Polling.Crowd
import StagedTransfer.Proofs.Token.Renewals

/-!
# New tokens for waits that go on together

A wait that has found no accepted token asks for one of its own, even if another wait has stored
one meanwhile: it does not look again. So of several waits that find the same token missing each may
ask, and each asks once at most if what it gets stays accepted.
-/

namespace StagedTransfer

open Activity TokenCache TokenCache.State Wire

namespace Incident

/-- The time at which something is looked at. -/
def now? : Incident → Option Instant
  | .look now _            => some now
  | .move (.advance _ now) => some now
  | _                      => none

/-- What the provider answers. -/
def answer? : Incident → Option (Except TokenError AccessToken)
  | .move (.provide _ r) => some r
  | _                    => none

/-- A wait finds no accepted token. -/
def isMiss : Incident → Bool
  | .look _ missing => missing
  | _               => false

def isGivenUp : Incident → Bool
  | .giveUp => true
  | _       => false

end Incident

/-- Whenever something is looked at, the first token is not accepted, and whatever the provider
answers is a token that is. -/
structure Favourable (cached : Option AccessToken) (es : List Incident) : Prop where
  stale : ∀ e ∈ es, ∀ now ∈ e.now?, tokenMissing cached now = true
  fresh : ∀ e ∈ es, ∀ r ∈ e.answer?, ∃ t, r = .ok t ∧
    ∀ e' ∈ es, ∀ now ∈ e'.now?, t.hasExpired now = false

namespace Member

/-- The wait asks for a new token next. -/
def wants : Member → Bool
  | .goes (.await .refresh _) => true
  | _                         => false

/-- The wait has found no accepted token and has no new one yet. -/
def isRenewing : Member → Bool
  | .renews _ _ => true
  | m           => m.wants

/-- The wait does not look at the token next. -/
def Rests (m : Member) : Prop :=
  ∀ a, m = .goes a → a.Ended ∨ ∃ next, a = .await .refresh next

end Member

/-- How many waits ask for a new token next. -/
def Crowd.wants (C : Crowd) : Nat :=
  C.members.countP Member.wants

/-- How many times a new token has been asked for or is about to be asked for. -/
def Crowd.due (C : Crowd) : Nat :=
  C.cache.fetches + C.cache.waiting.card + C.wants

/-! ### What holds of each wait -/

/-- A wait goes on with a new token, and ends without one. -/
structure Renewal (next : Except TransferError Unit → Activity SchedulerJob) : Prop where
  failed  : ∀ e, (next (.error e)).Ended
  renewed : Careful true (next (.ok ()))

/-- How far a wait has come if there is a token that lasts, or none yet. -/
inductive Behaves (s : State) (settled : Bool) : Member → Prop
  | goes {a : Activity SchedulerJob} (careful : Careful settled a) : Behaves s settled (.goes a)
  | wants {next : Except TransferError Unit → Activity SchedulerJob} (renewal : Renewal next) :
    Behaves s settled (.goes (.await .refresh next))
  | renews {i : Nat} {next : Except TransferError Unit → Activity SchedulerJob} {o : Stage}
    (caller : s.caller? i = some ⟨.refresh, o⟩) (renewal : Renewal next) :
    Behaves s settled (.renews i next)
  | asks {i : Nat} {jobId : Int64}
    {next : Except TransferError SchedulerJob → Activity SchedulerJob} (sure : settled = true)
    (rest : ∀ x, Careful true (next x)) : Behaves s settled (.asks i jobId next)

/-- What holds of a crowd, whose cache holds a token that lasts if `settled`. -/
structure Crowd.Sound (times : Instant → Prop) (cached : Option AccessToken) (settled : Bool)
    (C : Crowd) : Prop where
  settles : Settles times cached settled C.cache
  behaves : ∀ m ∈ C.members, Behaves C.cache settled m
  /-- Whoever wants a new token and has not asked yet is a wait. -/
  held    : ∀ i, C.cache.waits i = true → ∃ j : Nat, ∃ next, C.members[j]? = some (.renews i next)

/-- As many waits as looks have found no accepted token. As long as there is none that lasts, none
of them looks again. -/
def Crowd.Spares (settled : Bool) (misses : Nat) (C : Crowd) : Prop :=
  ∃ spent ⊆ Finset.range C.members.length, spent.card = misses ∧
    (settled = false → ∀ j ∈ spent, ∀ m, C.members[j]? = some m → m.Rests)

/-- What the looks have led to that found no accepted token: each is a question for a new one, made
or to come, unless a wait has been given up. -/
structure Crowd.Tally (settled : Bool) (misses left : Nat) (C : Crowd) : Prop where
  low    : C.due ≤ misses
  high   : misses ≤ C.due + left
  spares : C.Spares settled misses

section

variable {times : Instant → Prop} {cached : Option AccessToken} {settled settled' : Bool}
  {misses left j : Nat} {C : Crowd} {m m' : Member} {s s' : State} {a : Activity SchedulerJob}

lemma Activity.Careful.wants (h : Careful settled a) : (Member.goes a).wants = false := by
  cases h <;> rfl

lemma Activity.Careful.grows (h : Careful settled a) (grows : settled = true → settled' = true) :
    Careful settled' a := by
  cases settled with
  | false => exact h.mono
  | true => exact (grows rfl).symm ▸ h

/-- A wait that makes no step has come as far after a move of the cache. -/
lemma Behaves.moved (h : Behaves s settled m) (orderly : s.Orderly)
    (grows : settled = true → settled' = true) (move : Move) :
    Behaves (s.step move) settled' m := by
  cases h with
  | goes careful => exact .goes (careful.grows grows)
  | wants renewal => exact .wants renewal
  | renews caller renewal =>
    obtain ⟨o, after, -⟩ := orderly.turn caller move
    exact .renews after renewal
  | asks sure rest => exact .asks (grows sure) rest

lemma Crowd.mem_of_member (member : C.members[j]? = some m) : m ∈ C.members :=
  List.mem_of_getElem? member

lemma Crowd.wants_set (member : C.members[j]? = some m) (m' : Member) :
    (C.set j m').wants + m.wants.toNat = C.wants + m'.wants.toNat := by
  obtain ⟨lt, same⟩ := List.getElem?_eq_some_iff.1 member
  have least : m.wants.toNat ≤ C.members.countP Member.wants := by
    cases wanted : m.wants with
    | false => exact Nat.zero_le _
    | true => exact List.countP_pos_iff.2 ⟨m, mem_of_member member, wanted⟩
  change (C.members.set j m').countP Member.wants + _ = C.members.countP Member.wants + _
  rw [List.countP_set lt, same]
  generalize m.wants = before at least ⊢
  generalize m'.wants = after
  cases before <;> cases after <;> simp_all

lemma Crowd.due_set (member : C.members[j]? = some m) (m' : Member) :
    (C.set j m').due + m.wants.toNat = C.due + m'.wants.toNat := by
  rw [due, due, Nat.add_assoc, wants_set member m', ← Nat.add_assoc]
  rfl

/-- The members after one of them has come to another point. -/
lemma Crowd.getElem?_set (member : C.members[j]? = some m) (k : Nat) :
    (C.set j m').members[k]? = if j = k then some m' else C.members[k]? := by
  rw [Crowd.set, List.getElem?_set, if_pos (List.getElem?_eq_some_iff.1 member).1]

/-- A wait comes to another point by itself. -/
lemma Crowd.Sound.set (h : C.Sound times cached settled) (member : C.members[j]? = some m)
    (behaves : Behaves C.cache settled m')
    (free : ∀ i next, m = .renews i next → C.cache.waits i = false) :
    (C.set j m').Sound times cached settled where
  settles := h.settles
  behaves := by
    intro x mem
    rcases List.mem_or_eq_of_mem_set mem with mem | rfl
    · exact h.behaves x mem
    · exact behaves
  held := by
    intro i waits
    obtain ⟨k, next, renews⟩ := h.held i waits
    refine ⟨k, next, ?_⟩
    rw [getElem?_set member]
    split
    · next same =>
      subst same
      cases (free i next (Option.some.inj (member.symm.trans renews))).symm.trans waits
    · exact renews

/-- The cache makes a move. Nobody comes for a new token. -/
lemma Crowd.Sound.moved {move : Move} (h : C.Sound times cached settled)
    (permits : Permits times settled move) (old : move ≠ .call .refresh) :
    ∃ settled', (settled = true → settled' = true) ∧
      (C.moved move).Sound times cached settled' := by
  obtain ⟨settled', grows, settles⟩ := h.settles.step permits
  refine ⟨settled', grows, settles, fun x mem => ?_, fun i waits => ?_⟩
  · exact (h.behaves x mem).moved h.settles.orderly grows move
  · exact h.held i ((h.settles.orderly.waits_of_step waits).resolve_right fun new => old new.1)

namespace Crowd.Spares

/-- A wait that does not look at the token before does not do so next. -/
lemma set (h : C.Spares settled misses) (member : C.members[j]? = some m)
    (rests : settled = false → m.Rests → m'.Rests) : (C.set j m').Spares settled misses := by
  obtain ⟨spent, sub, card, spare⟩ := h
  refine ⟨spent, ?_, card, fun unsettled k mem x at' => ?_⟩
  · rwa [Crowd.set, List.length_set]
  · rw [getElem?_set member] at at'
    split at at'
    · next here =>
      subst here
      obtain rfl := Option.some.inj at'
      exact rests unsettled (spare unsettled j mem m member)
    · exact spare unsettled k mem x at'

/-- A wait looks at the token that has not done so before. -/
lemma miss (h : C.Spares false misses) (member : C.members[j]? = some m) (looks : ¬m.Rests)
    (rests : m'.Rests) : (C.set j m').Spares false (misses + 1) := by
  obtain ⟨spent, sub, card, spare⟩ := h
  -- It looks next, and none of those who have looked in vain does.
  have new : j ∉ spent := fun mem => looks (spare rfl j mem m member)
  have lt := (List.getElem?_eq_some_iff.1 member).1
  refine ⟨insert j spent, ?_, by rw [Finset.card_insert_of_notMem new, card], ?_⟩
  · rw [Crowd.set, List.length_set, Finset.insert_subset_iff]
    exact ⟨Finset.mem_range.2 lt, sub⟩
  · intro _ k mem x at'
    rw [getElem?_set member] at at'
    split at at'
    · obtain rfl := Option.some.inj at'
      exact rests
    · next other =>
      rcases Finset.mem_insert.1 mem with rfl | mem
      · exact absurd rfl other
      · exact spare rfl k mem x at'

lemma moved (h : C.Spares settled misses) (grows : settled = true → settled' = true)
    (move : Move) : (C.moved move).Spares settled' misses := by
  obtain ⟨spent, sub, card, spare⟩ := h
  refine ⟨spent, sub, card, fun unsettled => spare ?_⟩
  cases settled with
  | false => rfl
  | true => exact unsettled ▸ (grows rfl).symm

lemma le (h : C.Spares settled misses) : misses ≤ C.members.length := by
  obtain ⟨spent, sub, rfl, -⟩ := h
  simpa using Finset.card_le_card sub

end Crowd.Spares

/-! ### Steps of a crowd -/

/-- What happens does so in time, and the provider answers with tokens that last. -/
structure Incident.Allowed (times : Instant → Prop) (e : Incident) : Prop where
  now    : ∀ now ∈ e.now?, times now
  answer : ∀ r ∈ e.answer?, ∃ t, r = .ok t ∧ Lasts times t

/-- The times at which something is looked at. -/
def Incident.Times (es : List Incident) (now : Instant) : Prop :=
  ∃ e ∈ es, now ∈ e.now?

lemma Favourable.missing {es : List Incident} (h : Favourable cached es) (now : Instant)
    (time : Incident.Times es now) : tokenMissing cached now = true := by
  obtain ⟨e, mem, looks⟩ := time
  exact h.stale e mem now looks

lemma Favourable.allowed {es : List Incident} (h : Favourable cached es) (e : Incident)
    (mem : e ∈ es) : e.Allowed (Incident.Times es) := by
  refine ⟨fun now looks => ⟨e, mem, looks⟩, fun r answer => ?_⟩
  obtain ⟨t, rfl, lasts⟩ := h.fresh e mem r answer
  refine ⟨t, rfl, fun now time => ?_⟩
  obtain ⟨e', mem', looks⟩ := time
  exact lasts e' mem' now looks

lemma Member.rests_of_ended (h : a.Ended) : (Member.goes a).Rests := by
  rintro _ ⟨rfl⟩
  exact .inl h

lemma Member.not_rests_await {w : Await}
    {next : Except TransferError w.Answer → Activity SchedulerJob} (other : w ≠ .refresh) :
    ¬(Member.goes (.await w next)).Rests := by
  intro rests
  rcases rests _ rfl with ⟨_, ⟨⟩⟩ | ⟨_, same⟩
  cases same
  exact other rfl

lemma Member.not_rests_act {b : Act} {next : b.Answer → Activity SchedulerJob} :
    ¬(Member.goes (.act b next)).Rests := by
  intro rests
  rcases rests _ rfl with ⟨_, ⟨⟩⟩ | ⟨_, ⟨⟩⟩

namespace Crowd

/-- A wait goes on without another question for a new token. -/
lemma Tally.set (h : C.Tally settled misses left) (member : C.members[j]? = some m)
    (wants : m'.wants = m.wants) (rests : settled = false → m.Rests → m'.Rests) :
    (C.set j m').Tally settled misses left := by
  have due := due_set member m'
  have low := h.low
  have high := h.high
  rw [wants] at due
  exact ⟨by omega, by omega, h.spares.set member rests⟩

/-- A look that finds no accepted token leads to a question for a new one. -/
lemma Tally.miss (h : C.Tally false misses left) (member : C.members[j]? = some m)
    (unwanted : m.wants = false) (wanted : m'.wants = true) (looks : ¬m.Rests) (rests : m'.Rests) :
    (C.set j m').Tally false (misses + 1) left := by
  have due := due_set member m'
  have low := h.low
  have high := h.high
  rw [unwanted, wanted, Bool.toNat_false, Bool.toNat_true] at due
  exact ⟨by omega, by omega, h.spares.miss member looks rests⟩

/-- A wait is given up. -/
lemma Tally.giveUp (h : C.Tally settled misses left) (member : C.members[j]? = some m)
    (wants : m'.wants = false) (rests : settled = false → m.Rests → m'.Rests) :
    (C.set j m').Tally settled misses (left + 1) := by
  have due := due_set member m'
  have once : m.wants.toNat ≤ 1 := Bool.toNat_le _
  have low := h.low
  have high := h.high
  rw [wants, Bool.toNat_false] at due
  exact ⟨by omega, by omega, h.spares.set member rests⟩

/-- The cache makes a move, and nobody comes or is given up who wants a new token. -/
lemma Tally.moved {move : Move} (h : C.Tally settled misses left)
    (settles : Settles times cached settled C.cache) (grows : settled = true → settled' = true)
    (kept : ∀ i, move ≠ .drop i) (old : move ≠ .call .refresh) :
    (C.moved move).Tally settled' misses left := by
  have due : (C.moved move).due = C.due := congrArg (· + C.wants) (settles.tally_step kept old)
  exact ⟨due ▸ h.low, due ▸ h.high, h.spares.moved grows move⟩

/-- A caller of the cache is given up. -/
lemma Tally.dropped (h : C.Tally settled misses left)
    (settles : Settles times cached settled C.cache) (grows : settled = true → settled' = true)
    (i : Nat) : (C.moved (.drop i)).Tally settled' misses (left + 1) := by
  obtain ⟨less, more⟩ := settles.orderly.tally_drop i
  have less : (C.moved (.drop i)).due ≤ C.due := Nat.add_le_add_right less C.wants
  have more : C.due ≤ (C.moved (.drop i)).due + 1 :=
    (Nat.add_le_add_right more C.wants).trans_eq (Nat.add_right_comm ..)
  have low := h.low
  have high := h.high
  exact ⟨by omega, by omega, h.spares.moved grows _⟩

/-- The question that a wait is about to make is that of a caller of the cache now. -/
lemma Tally.comes {next : Except TransferError Unit → Activity SchedulerJob}
    (h : C.Tally settled misses left) (orderly : C.cache.Orderly)
    (grows : settled = true → settled' = true)
    (member : C.members[j]? = some (.goes (.await .refresh next))) :
    ((C.moved (.call .refresh)).set j (.renews C.cache.callers.length next)).Tally settled' misses
      left := by
  have member' : (C.moved (.call .refresh)).members[j]? = _ := member
  have due : _ + 1 = (C.moved (.call .refresh)).due + 0 :=
    due_set member' (.renews C.cache.callers.length next)
  have called : (C.moved (.call .refresh)).due = C.due + 1 :=
    (congrArg (· + C.wants) orderly.tally_call).trans (Nat.add_right_comm ..)
  have low := h.low
  have high := h.high
  exact ⟨by omega, by omega, (h.spares.moved grows _).set member' fun _ _ => nofun⟩

/-- What holds of a crowd after some looks that found no accepted token. -/
def Holds (times : Instant → Prop) (cached : Option AccessToken) (misses left : Nat) (C : Crowd) :
    Prop :=
  ∃ settled, C.Sound times cached settled ∧ C.Tally settled misses left

/-- A wait goes on by itself. -/
lemma Sound.goesOn (sound : C.Sound times cached settled) (tally : C.Tally settled misses left)
    (member : C.members[j]? = some m) (unwanted : m.wants = false)
    (free : ∀ i next, m = .renews i next → C.cache.waits i = false)
    (careful : Careful settled a) (rests : settled = false → m.Rests → (Member.goes a).Rests) :
    (C.set j (.goes a)).Holds times cached misses left :=
  ⟨settled, sound.set member (.goes careful) free,
    tally.set member (careful.wants.trans unwanted.symm) rests⟩

/-- A wait that is going on has an activity that is careful, unless it asks for a new token next. -/
lemma Sound.careful (sound : C.Sound times cached settled)
    (member : C.members[j]? = some (.goes a)) (unwanted : (Member.goes a).wants = false) :
    Careful settled a := by
  have behaves := sound.behaves _ (mem_of_member member)
  cases behaves with
  | goes careful => exact careful
  | wants => cases unwanted

lemma Sound.renewal {i : Nat} {next : Except TransferError Unit → Activity SchedulerJob}
    (sound : C.Sound times cached settled) (member : C.members[j]? = some (.renews i next)) :
    Renewal next ∧ ∃ o, C.cache.caller? i = some ⟨.refresh, o⟩ := by
  have behaves := sound.behaves _ (mem_of_member member)
  cases behaves with
  | renews caller renewal => exact ⟨renewal, _, caller⟩

lemma Sound.question {i : Nat} {jobId : Int64}
    {next : Except TransferError SchedulerJob → Activity SchedulerJob}
    (sound : C.Sound times cached settled) (member : C.members[j]? = some (.asks i jobId next)) :
    settled = true ∧ ∀ x, Careful true (next x) := by
  have behaves := sound.behaves _ (mem_of_member member)
  cases behaves with
  | asks sure rest => exact ⟨sure, rest⟩

/-- A wait becomes a caller of the cache that wants a new token. -/
lemma Sound.comes {next : Except TransferError Unit → Activity SchedulerJob}
    (sound : C.Sound times cached settled)
    (member : C.members[j]? = some (.goes (.await .refresh next))) :
    ∃ settled', (settled = true → settled' = true) ∧
      ((C.moved (.call .refresh)).set j (.renews C.cache.callers.length next)).Sound times cached
        settled' := by
  have renewal : Renewal next := by
    have behaves := sound.behaves _ (mem_of_member member)
    cases behaves with
    | goes careful => cases careful
    | wants renewal => exact renewal
  have orderly := sound.settles.orderly
  have permits : Permits times settled (.call .refresh) := trivial
  obtain ⟨settled', grows, settles⟩ := sound.settles.step permits
  have member' : (C.moved (.call .refresh)).members[j]? = _ := member
  have caller : (C.cache.step (.call .refresh)).caller? C.cache.callers.length =
      some ⟨.refresh, .called⟩ := by
    rw [caller?_call, if_pos rfl]
  refine ⟨settled', grows, settles, fun x mem => ?_, fun i waits => ?_⟩
  · rcases List.mem_or_eq_of_mem_set mem with mem | rfl
    · exact (sound.behaves x mem).moved orderly grows (.call .refresh)
    · exact .renews caller renewal
  · rcases orderly.waits_of_step waits with waits | ⟨-, rfl⟩
    · obtain ⟨k, next', renews⟩ := sound.held i waits
      refine ⟨k, next', ?_⟩
      rw [getElem?_set member', if_neg]
      · exact renews
      · rintro rfl
        cases member.symm.trans renews
    · exact ⟨j, next, by rw [getElem?_set member', if_pos rfl]⟩

/-- A wait that gives up what it waits for goes on carefully. -/
lemma Sound.careful_giveUp {w : Await}
    {next : Except TransferError w.Answer → Activity SchedulerJob}
    (sound : C.Sound times cached settled) (member : C.members[j]? = some (.goes (.await w next))) :
    Careful settled (next (.error .cancelled)) ∧
      ((Member.goes (.await w next)).Rests → (Member.goes (next (.error .cancelled))).Rests) := by
  have behaves := sound.behaves _ (mem_of_member member)
  cases behaves with
  | goes careful =>
    cases careful with
    | look failed => exact ⟨.of_ended (failed _), fun _ => Member.rests_of_ended (failed _)⟩
    | call rest => exact ⟨rest _, fun rests => absurd rests (Member.not_rests_await nofun)⟩
    | pause rest => exact ⟨rest _, fun rests => absurd rests (Member.not_rests_await nofun)⟩
  | wants renewal =>
    have ended := renewal.failed .cancelled
    exact ⟨.of_ended ended, fun _ => Member.rests_of_ended ended⟩

section Steps

variable (sound : C.Sound times cached settled) (tally : C.Tally settled misses left)

include sound tally

lemma holds_look {next : Except TransferError Bool → Activity SchedulerJob} {now : Instant}
    (stale : tokenMissing cached now = true) (time : times now)
    (member : C.members[j]? = some (.goes (.await .tokenExpired next))) :
    (C.set j (.goes (next (.ok (tokenMissing C.cache.token now))))).Holds times cached
      (misses + (tokenMissing C.cache.token now).toNat) left := by
  have looks : ¬(Member.goes (.await .tokenExpired next)).Rests := Member.not_rests_await nofun
  have careful := sound.careful member rfl
  cases careful with
  | look failed found missing failed' rest =>
    cases settled with
    | false =>
      rw [sound.settles.first rfl, stale, missing]
      exact ⟨false, sound.set member (.wants ⟨failed', rest⟩) nofun,
        tally.miss member rfl rfl looks fun _ here => .inr ⟨_, (Member.goes.inj here).symm⟩⟩
    | true =>
      obtain ⟨t, lasts, token⟩ := sound.settles.later rfl
      have live : tokenMissing (some t) now = false := lasts now time
      rw [token, live]
      exact sound.goesOn tally member rfl nofun found nofun

lemma holds_refresh {next : Except TransferError Unit → Activity SchedulerJob}
    (member : C.members[j]? = some (.goes (.await .refresh next))) :
    ((C.moved (.call .refresh)).set j (.renews C.cache.callers.length next)).Holds times cached
      misses left := by
  obtain ⟨settled', grows, sound'⟩ := sound.comes member
  exact ⟨settled', sound', tally.comes sound.settles.orderly grows member⟩

lemma holds_ask {jobId : Int64} {next : Except TransferError SchedulerJob → Activity SchedulerJob}
    (member : C.members[j]? = some (.goes (.await (.call (.job jobId)) next))) :
    ((C.moved (.call .current)).set j (.asks C.cache.callers.length jobId next)).Holds times cached
      misses left := by
  have careful := sound.careful member rfl
  generalize sure : settled = sure at careful
  cases careful with
  | call rest =>
    have permits : Permits times settled (.call .current) := sure
    obtain ⟨settled', grows, sound'⟩ := sound.moved permits (by simp)
    have tally' : (C.moved (.call .current)).Tally settled' misses left :=
      tally.moved sound.settles grows (by simp) (by simp)
    have member' : (C.moved (.call .current)).members[j]? = _ := member
    refine ⟨settled', sound'.set member' (.asks (grows sure) rest) nofun, tally'.set member' rfl ?_⟩
    exact fun unsettled => absurd (grows sure) (by simp [unsettled])

lemma holds_moved {move : Move} (permits : Permits times settled move) (kept : ∀ i, move ≠ .drop i)
    (old : move ≠ .call .refresh) : (C.moved move).Holds times cached misses left := by
  obtain ⟨settled', grows, sound'⟩ := sound.moved permits old
  exact ⟨settled', sound', tally.moved sound.settles grows kept old⟩

lemma holds_renewed {i : Nat} {next : Except TransferError Unit → Activity SchedulerJob}
    {a : Answer} (member : C.members[j]? = some (.renews i next))
    (answer : C.cache.answer? i = some a) :
    (C.set j (.goes (next ((a.map fun _ => ()).mapError .auth)))).Holds times cached misses
      left := by
  obtain ⟨renewal, o, caller⟩ := sound.renewal member
  obtain ⟨w, finished⟩ := caller?_of_answer? answer
  cases caller.symm.trans finished
  have fares := sound.settles.callers i _ caller
  have done : C.cache.waits i = false := by
    rw [waits, caller]
    rfl
  have free (i' : Nat) (next' : Except TransferError Unit → Activity SchedulerJob)
      (same : Member.renews i next = .renews i' next') : C.cache.waits i' = false := by
    cases same
    exact done
  cases a with
  | error e =>
    have ended := renewal.failed (.auth e)
    exact sound.goesOn tally member rfl free (.of_ended ended) fun _ _ =>
      Member.rests_of_ended ended
  | ok t =>
    -- Its token has been stored before it has had its answer.
    have sure : settled = true := by
      cases fares with
      | refresh _ finished => exact finished t rfl
    have careful : Careful settled (next (.ok ())) := sure ▸ renewal.renewed
    exact sound.goesOn tally member rfl free careful fun unsettled => by simp [unsettled] at sure

lemma holds_giveUp {w : Await} {next : Except TransferError w.Answer → Activity SchedulerJob}
    (member : C.members[j]? = some (.goes (.await w next))) :
    (C.set j (.goes (next (.error .cancelled)))).Holds times cached misses (left + 1) := by
  obtain ⟨careful, rests⟩ := sound.careful_giveUp member
  exact ⟨settled, sound.set member (.goes careful) nofun,
    tally.giveUp member careful.wants fun _ => rests⟩

lemma holds_giveUpRenewal {i : Nat} {next : Except TransferError Unit → Activity SchedulerJob}
    (member : C.members[j]? = some (.renews i next)) :
    ((C.moved (.drop i)).set j (.goes (next (.error .cancelled)))).Holds times cached misses
      (left + 1) := by
  obtain ⟨renewal, -⟩ := sound.renewal member
  have permits : Permits times settled (.drop i) := trivial
  obtain ⟨settled', grows, sound'⟩ := sound.moved permits (by simp)
  have member' : (C.moved (.drop i)).members[j]? = _ := member
  have ended := renewal.failed .cancelled
  refine sound'.goesOn (tally.dropped sound.settles grows i) member' rfl ?_ (.of_ended ended) ?_
  · rintro _ _ ⟨rfl, rfl⟩
    exact sound.settles.orderly.not_waits_drop i
  · exact fun _ _ => Member.rests_of_ended ended

lemma holds_giveUpQuestion {i : Nat} {jobId : Int64}
    {next : Except TransferError SchedulerJob → Activity SchedulerJob}
    (member : C.members[j]? = some (.asks i jobId next)) :
    ((C.moved (.drop i)).set j (.goes (next (.error .cancelled)))).Holds times cached misses
      (left + 1) := by
  obtain ⟨sure, rest⟩ := sound.question member
  have permits : Permits times settled (.drop i) := trivial
  obtain ⟨settled', grows, sound'⟩ := sound.moved permits (by simp)
  have member' : (C.moved (.drop i)).members[j]? = _ := member
  have careful : Careful settled' (next (.error .cancelled)) := (grows sure).symm ▸ rest _
  refine sound'.goesOn (tally.dropped sound.settles grows i) member' rfl nofun careful ?_
  exact fun unsettled => absurd (grows sure) (by simp [unsettled])

end Steps

lemma length_set (C : Crowd) (j : Nat) (m : Member) :
    (C.set j m).members.length = C.members.length :=
  List.length_set

lemma Step.length_members {e : Incident} {C' : Crowd} (step : C.Step e C') :
    C'.members.length = C.members.length := by
  cases step with
  | advance => rfl
  | provide => rfl
  | _ => exact length_set ..

/-- What holds of a crowd holds after a step. -/
theorem Holds.step {e : Incident} {C' : Crowd} (h : C.Holds times cached misses left)
    (stale : ∀ now, times now → tokenMissing cached now = true) (allowed : e.Allowed times)
    (step : C.Step e C') :
    C'.Holds times cached (misses + e.isMiss.toNat) (left + e.isGivenUp.toNat) := by
  obtain ⟨settled, sound, tally⟩ := h
  -- Most steps only move their member on. Looks, renewals and what is given up are counted.
  cases step with
  | act member x =>
    have careful := sound.careful member rfl
    cases careful with
    | act rest =>
      exact sound.goesOn tally member rfl nofun (rest x) fun _ rests =>
        absurd rests Member.not_rests_act
  | look member now =>
    have time := allowed.now now rfl
    exact holds_look sound tally (stale now time) time member
  | refresh member => exact holds_refresh sound tally member
  | renewed member answer => exact holds_renewed sound tally member answer
  | ask member => exact holds_ask sound tally member
  | answered member answer x =>
    obtain ⟨rfl, rest⟩ := sound.question member
    exact sound.goesOn tally member rfl nofun (rest _) nofun
  | denied member answer =>
    obtain ⟨rfl, rest⟩ := sound.question member
    exact sound.goesOn tally member rfl nofun (rest _) nofun
  | pause member x =>
    have careful := sound.careful member rfl
    cases careful with
    | pause rest =>
      exact sound.goesOn tally member rfl nofun (rest x) fun _ rests =>
        absurd rests (Member.not_rests_await nofun)
  | advance i now =>
    have permits : Permits times settled (.advance i now) := allowed.now now rfl
    exact holds_moved sound tally permits (by simp) (by simp)
  | provide i r =>
    obtain ⟨t, rfl, lasts⟩ := allowed.answer r rfl
    have permits : Permits times settled (.provide i (.ok t)) := lasts
    exact holds_moved sound tally permits (by simp) (by simp)
  | giveUp member => exact holds_giveUp sound tally member
  | giveUpRenewal member => exact holds_giveUpRenewal sound tally member
  | giveUpQuestion member => exact holds_giveUpQuestion sound tally member

/-- What holds of a crowd holds after all that happens. -/
theorem Holds.runs {es : List Incident} {C' : Crowd} (h : C.Holds times cached misses left)
    (stale : ∀ now, times now → tokenMissing cached now = true)
    (allowed : ∀ e ∈ es, e.Allowed times) (runs : C.Runs es C') :
    C'.Holds times cached (misses + es.countP Incident.isMiss)
      (left + es.countP Incident.isGivenUp) ∧ C'.members.length = C.members.length := by
  induction runs generalizing misses left with
  | nil => exact ⟨h, rfl⟩
  | @cons C C' C'' e es step _ ih =>
    have first := h.step stale (allowed e List.mem_cons_self) step
    obtain ⟨last, length⟩ := ih first fun e mem => allowed e (List.mem_cons_of_mem _ mem)
    rw [List.countP_cons, List.countP_cons]
    have add (n m : Nat) (b : Bool) : n + b.toNat + m = n + (m + if b = true then 1 else 0) := by
      cases b
      · rfl
      · exact Nat.add_right_comm n 1 m
    rw [add, add] at last
    exact ⟨last, length.trans step.length_members⟩

/-- Before the waits begin. -/
lemma holds_start (times : Instant → Prop) (cached : Option AccessToken)
    {as : List (Activity SchedulerJob)} (careful : ∀ a ∈ as, Careful false a) :
    (start cached as).Holds times cached 0 0 := by
  have nobody (i : Nat) : (State.holding cached).waits i = false := rfl
  have wants : (start cached as).wants = 0 := by
    rw [Crowd.wants, List.countP_eq_zero]
    intro m mem
    obtain ⟨a, within, rfl⟩ := List.mem_map.1 mem
    simp [(careful a within).wants]
  have due : (start cached as).due = 0 := (Nat.zero_add _).trans wants
  refine ⟨false, ⟨.holding, fun m mem => ?_, fun i waits => ?_⟩, due.le, Nat.zero_le _, ?_⟩
  · obtain ⟨a, within, rfl⟩ := List.mem_map.1 mem
    exact .goes (careful a within)
  · cases (nobody i).symm.trans waits
  · exact ⟨∅, by simp, rfl, by simp⟩

/-- Once no wait is about to get a new token, everyone who wants one has asked. -/
lemma Sound.due_of_idle (sound : C.Sound times cached settled)
    (idle : ∀ m ∈ C.members, m.isRenewing = false) : C.due = C.cache.fetches := by
  have waiting : C.cache.waiting.card = 0 := by
    rw [Finset.card_eq_zero, Finset.eq_empty_iff_forall_notMem]
    intro i mem
    obtain ⟨j, next, member⟩ := sound.held i (mem_waiting_iff.1 mem)
    cases idle _ (mem_of_member member)
  have wants : C.wants = 0 := by
    rw [Crowd.wants, List.countP_eq_zero]
    intro m mem
    have idle := idle m mem
    cases m with
    | goes => exact Bool.eq_false_iff.1 idle
    | renews => cases idle
    | asks => nofun
  rw [due, waiting, wants]
  rfl

/-- The waits for jobs, of at most `rounds` questions each. -/
def ofWaits (cached : Option AccessToken) (rounds : Nat) (waits : List (WaitPlan × Int64)) :
    Crowd :=
  start cached (waits.map fun (w, jobId) => waitForJob w rounds jobId)

/-- A new token is asked for once for each look that has found none accepted, and each wait looks so
once at most. -/
theorem fetches_of_runs {rounds : Nat} {waits : List (WaitPlan × Int64)} {es : List Incident}
    (runs : (ofWaits cached rounds waits).Runs es C) (favourable : Favourable cached es) :
    C.cache.fetches ≤ es.countP Incident.isMiss ∧ es.countP Incident.isMiss ≤ waits.length ∧
      ((∀ m ∈ C.members, m.isRenewing = false) →
        es.countP Incident.isMiss ≤ C.cache.fetches + es.countP Incident.isGivenUp) := by
  have careful : ∀ a ∈ waits.map fun (w, jobId) => waitForJob w rounds jobId, Careful false a := by
    rintro a mem
    obtain ⟨⟨w, jobId⟩, -, rfl⟩ := List.mem_map.1 mem
    exact .waitFrom w jobId rounds _ _
  obtain ⟨⟨settled, sound, tally⟩, length⟩ :=
    (holds_start _ cached careful).runs favourable.missing favourable.allowed runs
  have low := tally.low
  have high := tally.high
  have few := tally.spares.le
  have least : C.cache.fetches ≤ C.due := (Nat.le_add_right ..).trans (Nat.le_add_right ..)
  rw [Nat.zero_add] at low high few
  rw [Nat.zero_add] at high
  have members : C.members.length = waits.length := by simpa [start] using length
  refine ⟨least.trans low, few.trans_eq members, fun idle => ?_⟩
  rwa [sound.due_of_idle idle] at high

end Crowd

end

end StagedTransfer
