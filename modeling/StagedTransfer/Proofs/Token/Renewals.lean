import Mathlib.Data.Finset.Card
import StagedTransfer.Proofs.Token.SingleFlight

/-!
# Callers that want a new token

A caller that wants a new token asks for one as soon as it has the lock, whatever has been stored
while it has waited. Each such caller is therefore a question of its own. A caller that wants an
accepted token asks for none if there is one that stays accepted.
-/

namespace StagedTransfer.TokenCache.State

variable {s : State} {i j : Nat} {c : Caller} {o : Stage} {m : Move}

/-! ### Callers that have not asked yet -/

/-- The caller wants a new token and has not asked for it yet. -/
def waits (s : State) (i : Nat) : Bool :=
  match s.caller? i with
  | some ⟨.refresh, o⟩ => Stage.locked.ahead ≤ o.ahead
  | _                  => false

/-- All callers that want a new token and have not asked for it yet. -/
def waiting (s : State) : Finset Nat :=
  (Finset.range s.callers.length).filter (s.waits ·)

lemma waits_eq_true_iff :
    s.waits i = true ↔ ∃ o, s.caller? i = some ⟨.refresh, o⟩ ∧ Stage.locked.ahead ≤ o.ahead := by
  rw [waits]
  split
  · next o caller => simp [caller]
  · next other => simpa using fun o caller => absurd caller (other o)

lemma mem_waiting_iff : i ∈ s.waiting ↔ s.waits i = true := by
  rw [waiting, Finset.mem_filter, Finset.mem_range, and_iff_right_iff_imp, waits_eq_true_iff]
  rintro ⟨o, caller, -⟩
  exact lt_of_caller? caller

/-- A caller that has not asked after a move has not asked before it. -/
lemma Orderly.waits_of_step (h : Orderly s) (waits : (s.step m).waits i = true) :
    s.waits i = true ∨ m = .call .refresh ∧ i = s.callers.length := by
  obtain ⟨o, after, early⟩ := waits_eq_true_iff.1 waits
  rcases h.caller?_step after with ⟨⟨w, o'⟩, before, wish, turn⟩ | ⟨before, -, rfl⟩
  · obtain rfl : w = .refresh := wish
    exact .inl (waits_eq_true_iff.2 ⟨o', before, early.trans turn.ahead_le⟩)
  · refine .inr ⟨rfl, ?_⟩
    rw [caller?_call, before] at after
    split at after
    · next new => exact new
    · cases after

/-- A caller that has not asked before a move has not asked after it, unless the move is its
question or gives it up. -/
lemma Orderly.waits_step (h : Orderly s) (waits : s.waits i = true) (silent : s.asker? m ≠ some i)
    (kept : m ≠ .drop i) : (s.step m).waits i = true := by
  obtain ⟨o, caller, early⟩ := waits_eq_true_iff.1 waits
  obtain ⟨o', after, turn⟩ := h.turn caller m
  refine waits_eq_true_iff.2 ⟨o', after, ?_⟩
  cases turn with
  | rests => exact early
  | asks => exact absurd (asker?_eq_some_iff.2 ⟨_, _, rfl, caller, by simp⟩) silent
  | enters _ enters => rcases enters with rfl | rfl <;> simp [Stage.ahead]
  | drops => exact absurd rfl kept
  | keeps => simp [Stage.ahead] at early
  | receives => simp [Stage.ahead] at early
  | fails => simp [Stage.ahead] at early
  | _ => simp [Stage.ahead]

/-- A caller that is given up does not ask any more. -/
lemma Orderly.not_waits_drop (h : Orderly s) (i : Nat) : (s.step (.drop i)).waits i = false := by
  rw [Bool.eq_false_iff]
  intro waits
  obtain ⟨o, before, early⟩ :=
    waits_eq_true_iff.1 ((h.waits_of_step waits).resolve_right (by simp))
  have open' (a : Answer) : o ≠ .finished a := by
    rintro rfl
    simp [Stage.ahead] at early
  have after : (s.step (.drop i)).caller? i = some ⟨.refresh, .dropped⟩ :=
    h.caller?_drop_self before open'
  obtain ⟨o', caller, early'⟩ := waits_eq_true_iff.1 waits
  cases after.symm.trans caller
  simp [Stage.ahead] at early'

/-- A question takes the caller that asks out of those that have not asked. -/
lemma Orderly.waiting_ask (h : Orderly s) (asks : s.asker? m = some i) :
    (s.step m).waiting = s.waiting.erase i := by
  obtain ⟨now, w, rfl, caller, missing⟩ := asker?_eq_some_iff.1 asks
  have asked : (s.step (.advance i now)).waits i = false := by
    have self := caller?_setStage_self (s := { s with fetches := s.fetches + 1 }) caller .fetching
    rw [step_of_locked caller missing, waits, ask, self]
    cases w <;> rfl
  ext j
  rw [Finset.mem_erase, mem_waiting_iff, mem_waiting_iff]
  constructor
  · intro waits
    refine ⟨?_, (h.waits_of_step waits).resolve_right (by simp)⟩
    rintro rfl
    cases asked.symm.trans waits
  · rintro ⟨other, waits⟩
    exact h.waits_step waits (by simpa [asks] using other.symm) (by simp)

/-- Nobody else is taken out or comes to them, but for those who are given up. -/
lemma Orderly.waiting_of_silent (h : Orderly s) (silent : s.asker? m = none)
    (kept : ∀ i, m ≠ .drop i) (old : m ≠ .call .refresh) : (s.step m).waiting = s.waiting := by
  ext j
  rw [mem_waiting_iff, mem_waiting_iff]
  constructor
  · exact fun waits => (h.waits_of_step waits).resolve_right fun new => old new.1
  · exact fun waits => h.waits_step waits (by simp [silent]) (kept j)

lemma Orderly.waiting_call (h : Orderly s) :
    (s.step (.call .refresh)).waiting = insert s.callers.length s.waiting := by
  have new : (s.step (.call .refresh)).waits s.callers.length = true := by
    rw [waits, caller?_call, if_pos rfl]
    rfl
  ext j
  rw [Finset.mem_insert, mem_waiting_iff, mem_waiting_iff]
  constructor
  · intro waits
    rcases h.waits_of_step waits with waits | ⟨-, rfl⟩
    · exact .inr waits
    · exact .inl rfl
  · rintro (rfl | waits)
    · exact new
    · exact h.waits_step waits (by simp [asker?, Move.actor?]) (by simp)

lemma not_mem_waiting_length (s : State) : s.callers.length ∉ s.waiting := by
  simp [waiting]

/-! ### Tokens that last -/

section

variable {times : Instant → Prop} {cached : Option AccessToken} {settled settled' : Bool}

/-- The token is accepted at all times. -/
def Lasts (times : Instant → Prop) (t : AccessToken) : Prop :=
  ∀ now, times now → t.hasExpired now = false

/-- A move is made in time, brings a token that lasts if it brings one, and no caller wants an
accepted token before there is one. -/
def Permits (times : Instant → Prop) (settled : Bool) : Move → Prop
  | .call .refresh      => True
  | .call .current      => settled = true
  | .call .renewal      => False
  | .advance _ now      => times now
  | .provide _ (.ok t)  => Lasts times t
  | .provide _ (.error _) => True
  | .store _            => False
  | .drop _             => True

/-- How far a caller has come if there is a token that lasts, or none yet. -/
inductive Fares (times : Instant → Prop) (settled : Bool) : Caller → Prop
  | refresh {o : Stage} (fetched : ∀ t, o = .fetched t → Lasts times t)
    (finished : ∀ a, o = .finished (.ok a) → settled = true) : Fares times settled ⟨.refresh, o⟩
  | current {o : Stage} (sure : settled = true)
    (stage : o = .called ∨ (∃ a, o = .finished a) ∨ o = .dropped) :
    Fares times settled ⟨.current, o⟩

/-- The token that is cached is the first one, or one that lasts if `settled`. -/
structure Settles (times : Instant → Prop) (cached : Option AccessToken) (settled : Bool)
    (s : State) : Prop where
  orderly : s.Orderly
  first   : settled = false → s.token = cached
  later   : settled = true → ∃ t, Lasts times t ∧ s.token = some t
  callers : ∀ i c, s.caller? i = some c → Fares times settled c

lemma Settles.holding : Settles times cached false (holding cached) where
  orderly := .holding cached
  first _ := rfl
  later   := by simp
  callers := by simp [State.holding, caller?]

lemma Fares.turn {w : Wish} {o' : Stage} (h : Fares times settled ⟨w, o⟩)
    (turn : Turn s j m ⟨w, o⟩ o') (permits : Permits times settled m)
    (later : settled = true → ∃ t, Lasts times t ∧ s.token = some t)
    (grows : settled = true → settled' = true)
    (keeps : ∀ now t, m = .advance j now → o = .fetched t → settled' = true) :
    Fares times settled' ⟨w, o'⟩ := by
  cases h with
  | refresh fetched finished =>
    cases turn with
    | rests => exact .refresh fetched fun a here => grows (finished a here)
    | @receives _ t =>
      refine .refresh (fun t' here => ?_) (by simp)
      obtain rfl := Stage.fetched.inj here
      exact permits
    | keeps => exact .refresh (by simp) fun _ _ => keeps _ _ rfl rfl
    | enters _ enters => rcases enters with rfl | rfl <;> exact .refresh (by simp) (by simp)
    | _ => exact .refresh (by simp) (by simp)
  | current sure stage =>
    cases turn with
    | rests => exact .current (grows sure) stage
    | finds => exact .current (grows sure) (.inr (.inl ⟨_, rfl⟩))
    | misses missing =>
      -- There is a token that lasts.
      obtain ⟨t, lasts, token⟩ := later sure
      have live := lasts _ permits
      simp [token, tokenMissing, live] at missing
    | drops => exact .current (grows sure) (.inr (.inr rfl))
    | enters wants _ =>
      rcases wants with rfl | ⟨⟨⟩, -⟩
      simp at stage
    | _ => simp at stage

lemma Fares.lasts {w : Wish} {t : AccessToken} (h : Fares times settled ⟨w, .fetched t⟩) :
    Lasts times t := by
  cases h with
  | refresh fetched => exact fetched t rfl
  | current _ stage => simp at stage

/-- Every caller fares well after a move, if a token that is stored by it settles the cache. -/
lemma Settles.fares_step (h : Settles times cached settled s) (permits : Permits times settled m)
    (grows : settled = true → settled' = true)
    (keeps : ∀ i now w t, m = .advance i now → s.caller? i = some ⟨w, .fetched t⟩ →
      settled' = true) (after : (s.step m).caller? j = some c) : Fares times settled' c := by
  obtain ⟨w, o⟩ := c
  rcases h.orderly.caller?_step after with ⟨⟨w', o'⟩, before, wish, turn⟩ | ⟨-, called, rfl⟩
  · obtain rfl : w' = w := wish
    exact (h.callers j _ before).turn turn permits h.later grows
      fun now t here stage => keeps j now w' t here (stage ▸ before)
  · obtain rfl : o = .called := called
    cases w with
    | current => exact .current (grows permits) (.inl rfl)
    | refresh => exact .refresh (by simp) (by simp)
    | renewal => exact permits.elim

/-- A cache stays settled once a token is stored. -/
theorem Settles.step (h : Settles times cached settled s) (permits : Permits times settled m) :
    ∃ settled', (settled = true → settled' = true) ∧ Settles times cached settled' (s.step m) := by
  by_cases keeps : ∃ i now w t, m = .advance i now ∧ s.caller? i = some ⟨w, .fetched t⟩
  · obtain ⟨i, now, w, t, rfl, caller⟩ := keeps
    have lasts : Lasts times t := (h.callers i _ caller).lasts
    have grows : settled = true → true = true := fun _ => rfl
    refine ⟨true, grows, h.orderly.step, by simp, fun _ => ⟨t, lasts, token_of_fetched caller⟩, ?_⟩
    exact fun j c => h.fares_step permits grows fun _ _ _ _ _ _ => rfl
  · push Not at keeps
    have stored (t : AccessToken) : m ≠ .store t := by
      rintro rfl
      exact permits
    have token := (s.effect m).token stored keeps
    refine ⟨settled, id, h.orderly.step, ?_, ?_, ?_⟩
    · rw [token]
      exact h.first
    · rw [token]
      exact h.later
    · exact fun j c => h.fares_step permits id fun i now w t here caller =>
        absurd caller (keeps i now w t here)

/-! ### What the questions add up to -/

/-- A caller that asks is one that wants a new token: the others find one that lasts. -/
lemma Settles.mem_waiting_of_asks (h : Settles times cached settled s)
    (asks : s.asker? m = some i) : i ∈ s.waiting := by
  obtain ⟨now, w, -, caller, -⟩ := asker?_eq_some_iff.1 asks
  rw [mem_waiting_iff, waits_eq_true_iff]
  have fares := h.callers i _ caller
  cases fares with
  | refresh => exact ⟨.locked, caller, Nat.le_refl _⟩
  | current _ stage => simp at stage

/-- The questions so far and those to come stay as many as they are. -/
lemma Settles.tally_step (h : Settles times cached settled s) (kept : ∀ i, m ≠ .drop i)
    (old : m ≠ .call .refresh) :
    (s.step m).fetches + (s.step m).waiting.card = s.fetches + s.waiting.card := by
  rw [fetches_step]
  cases asks : s.asker? m with
  | none => rw [h.orderly.waiting_of_silent asks kept old, Option.toList_none, List.length_nil,
      Nat.add_zero]
  | some i =>
    have mem := h.mem_waiting_of_asks asks
    have positive := Finset.card_pos.2 ⟨i, mem⟩
    rw [h.orderly.waiting_ask asks, Finset.card_erase_of_mem mem]
    change s.fetches + 1 + _ = _
    omega

/-- A caller that comes for a new token is one question more. -/
lemma Orderly.tally_call (h : Orderly s) :
    (s.step (.call .refresh)).fetches + (s.step (.call .refresh)).waiting.card =
      s.fetches + s.waiting.card + 1 := by
  rw [h.waiting_call, Finset.card_insert_of_notMem s.not_mem_waiting_length, Nat.add_assoc]
  rfl

/-- A caller that is given up is one question less at most. -/
lemma Orderly.tally_drop (h : Orderly s) (i : Nat) :
    (s.step (.drop i)).fetches + (s.step (.drop i)).waiting.card ≤ s.fetches + s.waiting.card ∧
      s.fetches + s.waiting.card ≤
        (s.step (.drop i)).fetches + (s.step (.drop i)).waiting.card + 1 := by
  have silent : s.asker? (.drop i) = none := by
    rw [Option.eq_none_iff_forall_ne_some]
    intro j asks
    obtain ⟨_, _, ⟨⟩, -⟩ := asker?_eq_some_iff.1 asks
  have fetches : (s.step (.drop i)).fetches = s.fetches := fetches_step_of_silent silent
  have fewer : (s.step (.drop i)).waiting ⊆ s.waiting := by
    intro j mem
    rw [mem_waiting_iff] at mem ⊢
    exact (h.waits_of_step mem).resolve_right (by simp)
  have others : s.waiting ⊆ insert i (s.step (.drop i)).waiting := by
    intro j mem
    rw [Finset.mem_insert, mem_waiting_iff]
    rcases eq_or_ne j i with rfl | other
    · exact .inl rfl
    · refine .inr (h.waits_step (mem_waiting_iff.1 mem) (by simp [silent]) ?_)
      simpa using other.symm
  have card := Finset.card_le_card fewer
  have card' := (Finset.card_le_card others).trans (Finset.card_insert_le _ _)
  omega

end

end StagedTransfer.TokenCache.State
