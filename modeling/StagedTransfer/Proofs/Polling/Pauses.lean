import StagedTransfer.Proofs.Number.Rounding
import StagedTransfer.Proofs.Polling.Rhythm
import StagedTransfer.Settings

/-!
# Pauses under the settings of a user

The settings accept every factor, also one that is no number. No pause is above the bound for all
that, but the bound is looked at too late: the product is formed first, and if it is no span there
is no next pause and the wait ends. One computation with the longest pause tells whether that can
happen, and it cannot for a factor that is not above 999, however long the pauses are.
-/

namespace StagedTransfer

open Activity Binary64

/-! ### Spans that are scaled -/

namespace Span

variable {d : Span} {b y : Binary64} {whole : Nat}

lemma secondsLimit_eq : (secondsLimit : ℚ) = 2 ^ 64 := by
  rw [secondsLimit, Nat.pow_eq, Nat.cast_pow, Nat.cast_ofNat]

/-- Below the limit a number of seconds is a span. -/
lemma ofSeconds?_finite (m : Nat) (e : Int) :
    ofSeconds? (.finite false m e) = none ↔ 2 ^ 64 ≤ scaled m e := by
  rcases m.eq_zero_or_pos with rfl | hm
  · simp [ofSeconds?, scaled]
  rw [ofSeconds?, if_neg hm.ne', if_neg Bool.false_ne_true, ← secondsLimit_eq]
  generalize secondsLimit = limit
  by_cases he : 0 ≤ e
  · rw [if_pos he, scaled, ← pow_toNat he]
    simp only [Nat.mul_one, ite_eq_right_iff, reduceCtorEq, imp_false, not_lt]
    exact_mod_cast Iff.rfl
  · have opposite : 0 ≤ -e := by omega
    have positive : (0 : ℚ) < 2 ^ (-e) := by positivity
    rw [if_neg he, scaled, ← neg_neg e, zpow_neg, ← div_eq_mul_inv, le_div_iff₀ positive,
      ← pow_toNat opposite, neg_neg]
    simp only [ite_eq_right_iff, reduceCtorEq, imp_false, not_lt]
    exact_mod_cast Iff.rfl

lemma rounds_one : Rounds .one 1 := by
  have eq : Binary64.one = Binary64.ofNat 1 := by decide +kernel
  rw [eq, ← Nat.cast_one]
  exact rounds_ofNat 1

lemma nanosPerSecond_eq :
    Binary64.ofNat nanosPerSecond = .finite false 8388608000000000 (-23) := by
  decide +kernel

/-- The fraction of a second that a span has is not above one. -/
lemma fraction_atMost (d : Span) :
    ((Binary64.ofNat (d.nanos % nanosPerSecond)).div (Binary64.ofNat nanosPerSecond)).AtMost
      (scaled (Nat.pow 2 52) (-52)) := by
  have second := rounds_ofNat nanosPerSecond
  have rest := (Nat.mod_lt d.nanos (show 0 < nanosPerSecond by decide)).le
  rw [nanosPerSecond_eq] at second ⊢
  obtain ⟨m, e, eq, le⟩ := (rounds_ofNat _).atMost second (Nat.cast_le.2 rest)
  rw [eq]
  refine (rounds_div m (by decide) e (-23)).atMost rounds_one ?_
  exact div_le_one_of_le₀ le (scaled_nonneg _ _)

/-- A span is at most as many seconds as it has whole ones and one more. -/
lemma toSeconds_atMost {m : Nat} {e : Int} (few : d.nanos / nanosPerSecond ≤ whole)
    (more : (Binary64.ofNat whole).add .one = .finite false m e) :
    d.toSeconds.AtMost (scaled m e) := by
  have sum := rounds_ofNat whole
  rcases sum.unsigned with infinite | ⟨m', e', eq⟩
  · rw [infinite] at more
    cases more
  rw [eq] at sum more
  obtain ⟨n, f, seconds, le⟩ := (rounds_ofNat _).atMost sum (Nat.cast_le.2 few)
  obtain ⟨n', f', fraction, le'⟩ := d.fraction_atMost
  rw [toSeconds, seconds, fraction]
  refine (rounds_add n n' f f').atMost (more ▸ rounds_add m' _ e' (-52)) ?_
  exact add_le_add le le'

lemma toSeconds_unsigned (d : Span) : d.toSeconds.Unsigned := by
  obtain ⟨m, e, fraction, -⟩ := d.fraction_atMost
  exact (rounds_ofNat _).unsigned.add (.inr ⟨m, e, fraction⟩)

/-- One second more than a number of whole ones. -/
lemma longest_unsigned (whole : Nat) : ((Binary64.ofNat whole).add .one).Unsigned :=
  (rounds_ofNat whole).unsigned.add (.inr ⟨_, _, rfl⟩)

lemma ofSeconds?_mul_infinite (s : Bool) (m : Nat) (e : Int) :
    ofSeconds? ((Binary64.finite s m e).mul (.infinite false)) = none := by
  rw [Binary64.mul]
  split <;> rfl

/-- If a longer span can be scaled by a greater factor, a span can be scaled. -/
lemma scale?_ne_none {m m' : Nat} {e e' : Int} (few : d.nanos / nanosPerSecond ≤ whole)
    (le : scaled m e ≤ scaled m' e')
    (fits : ofSeconds? ((Binary64.finite false m' e').mul ((Binary64.ofNat whole).add .one)) ≠
      none) : d.scale? (.finite false m e) ≠ none := by
  rcases longest_unsigned whole with infinite | ⟨n', f', more⟩
  · rw [infinite] at fits
    exact absurd (ofSeconds?_mul_infinite false m' e') fits
  obtain ⟨n, f, seconds, le'⟩ := toSeconds_atMost few more
  have product := rounds_mul m' n' e' f'
  rw [more] at fits
  rcases product.unsigned with infinite | ⟨k, g, eq⟩
  · rw [infinite] at fits
    exact absurd rfl fits
  rw [eq] at product fits
  have exact' : scaled m e * scaled n f ≤ scaled m' e' * scaled n' f' :=
    mul_le_mul le le' (scaled_nonneg n f) (scaled_nonneg m' e')
  obtain ⟨k', g', eq', below⟩ := (rounds_mul m n e f).atMost product exact'
  rw [scale?, seconds, eq', ne_eq, ofSeconds?_finite, not_le]
  rw [ne_eq, ofSeconds?_finite, not_le] at fits
  exact below.trans_lt fits

/-- A factor that is no number or is above one scales seconds only to less than the limit. -/
lemma ofSeconds?_mul_eq_none_iff (grows : b.le .one = false) (hy : y.Unsigned) :
    ofSeconds? (b.mul y) = none ↔ ∀ m e, b.mul y = .finite false m e → 2 ^ 64 ≤ scaled m e := by
  have product : (∃ s, b.mul y = .nan s) ∨ (b.mul y).Unsigned := by
    rcases unsigned_of_not_le_one grows with ⟨s, rfl⟩ | unsigned
    · exact .inl ⟨s, rfl⟩
    · exact unsigned.mul hy
  rcases product with ⟨s, eq⟩ | eq | ⟨m, e, eq⟩ <;> rw [eq]
  · simp [ofSeconds?]
  · simp [ofSeconds?]
  · rw [ofSeconds?_finite]
    constructor
    · intro limit m' e' same
      cases same
      exact limit
    · intro all
      exact all m e rfl

end Span

/-! ### Pauses of a plan -/

namespace WaitPlan

variable {w : WaitPlan} {d : Span}

lemma nextDelay?_eq_none_iff : w.nextDelay? d = none ↔ w.backoff.le .one = false ∧
    ∀ m e, w.backoff.mul d.toSeconds = .finite false m e → 2 ^ 64 ≤ scaled m e := by
  cases growth : w.backoff.le .one with
  | true => simp [nextDelay?_of_le growth]
  | false =>
    rw [nextDelay?_of_not_le growth, Option.map_eq_none_iff, Span.scale?,
      Span.ofSeconds?_mul_eq_none_iff growth d.toSeconds_unsigned]
    exact ⟨fun all => ⟨rfl, all⟩, And.right⟩

/-- If every pause up to the bound has a next one, so has every pause that is reached. -/
lemma delayAfter?_ne_none (next : ∀ d, d ≤ w.cap → w.nextDelay? d ≠ none) (k : Nat) :
    w.delayAfter? k ≠ none := by
  induction k with
  | zero => exact Option.some_ne_none _
  | succ k ih =>
    obtain ⟨d, hd⟩ := Option.ne_none_iff_exists'.1 ih
    rw [delayAfter?, hd]
    exact next d (le_cap_of_delayAfter? hd)

/-- A factor scales every pause if it is not above one that scales the longest pause and a second
more. -/
lemma delayAfter?_ne_none_of_le {m : Nat} {e : Int} {whole : Nat}
    (factor : w.backoff.le (.finite false m e) = true)
    (few : w.cap.nanos / Span.nanosPerSecond ≤ whole)
    (fits : Span.ofSeconds? ((Binary64.finite false m e).mul ((Binary64.ofNat whole).add .one)) ≠
      none) (k : Nat) : w.delayAfter? k ≠ none := by
  refine delayAfter?_ne_none (fun d le => ?_) k
  cases growth : w.backoff.le .one with
  | true =>
    rw [nextDelay?_of_le growth]
    exact Option.some_ne_none _
  | false =>
    rw [nextDelay?_of_not_le growth, ne_eq, Option.map_eq_none_iff]
    have few' := (Nat.div_le_div_right le).trans few
    rcases unsigned_of_not_le_one growth with ⟨s, eq⟩ | eq | ⟨m', e', eq⟩ <;>
      rw [eq] at factor ⊢
    · cases factor
    · cases factor
    · exact Span.scale?_ne_none few' (finite_le_finite.1 factor) fits

end WaitPlan

/-! ### Pauses of a wait -/

namespace Polling

variable {w : WaitPlan} {jobId : Int64} {rounds left : Nat} {delay : Span} {log : Log}

/-- What is waited for leaves its range only if the answer says so. -/
lemma mem_of_waits_overrun {a : Await} {o : Overrun} (h : Waits a log (.error (.overrun o))) :
    .awaited a (.overrun o) ∈ log := by
  cases h
  exact List.mem_cons_of_mem _ List.mem_cons_self

lemma mem_of_ensureToken_overrun {o : Overrun}
    (h : ensureToken.Course log (.error (.overrun o))) :
    ∃ a, .awaited a (.overrun o) ∈ log := by
  rcases ensureToken_cases h with ⟨s, waits, hs⟩ | ⟨-, hr⟩ | ⟨first, rest, -, refresh, rfl⟩
  · obtain rfl := Except.error.inj hs
    exact ⟨_, mem_of_waits_overrun waits⟩
  · cases hr
  · exact ⟨_, List.mem_append_right _ (mem_of_waits_overrun refresh)⟩

/-- A round that ends in an overrun has been answered with one or has left no next pause. -/
lemma nextDelay?_of_round_overrun {o : Overrun}
    (h : Round w jobId left delay log (.ends (.error (.overrun o)))) :
    (∃ a, .awaited a (.overrun o) ∈ log) ∨ o = .pause ∧ w.nextDelay? delay = none := by
  generalize hn : Next.ends (.error (.overrun o)) = next at h
  cases h with
  | untokened h =>
    cases hn
    exact .inl (mem_of_ensureToken_overrun h)
  | unanswered h unasked =>
    cases hn
    rcases unasked with ⟨failed, -⟩ | ⟨o', same, rfl⟩
    · cases failed
    · cases same
      exact .inl ⟨_, List.mem_append_right _ (List.mem_cons_of_mem _ List.mem_cons_self)⟩
  | @ended token job state h hs terminal =>
    have result := Next.ends.inj hn
    cases hc : concluded jobId state job <;> rw [hc] at result <;> cases result
  | @pending token last job state x h hs terminal pause =>
    cases x with
    | ok => cases hn
    | error s =>
      cases hn
      exact .inl ⟨_, List.mem_append_right _ (List.mem_cons_of_mem _ (mem_of_waits_overrun pause))⟩
  | @missing token last what x h more pause =>
    cases x with
    | ok =>
      rw [Next.after, Next.missing] at hn
      cases hd : w.nextDelay? delay with
      | none =>
        rw [hd] at hn
        cases hn
        exact .inr ⟨rfl, rfl⟩
      | some d =>
        rw [hd] at hn
        cases hn
    | error s =>
      cases hn
      exact .inl ⟨_, List.mem_append_right _ (List.mem_cons_of_mem _ (mem_of_waits_overrun pause))⟩
  | _ => cases hn

/-- A round leads from one of the pauses that follow the usual one to another. -/
lemma delayAfter?_of_round {left' : Nat} {delay' : Span}
    (h : Round w jobId left delay log (.goesOn left' delay'))
    (before : ∃ k, w.delayAfter? k = some delay) : ∃ k, w.delayAfter? k = some delay' := by
  obtain ⟨k, hk⟩ := before
  generalize hn : Next.goesOn left' delay' = next at h
  cases h with
  | @pending token last job state x =>
    cases x with
    | error s => cases hn
    | ok =>
      cases hn
      exact ⟨0, rfl⟩
  | @missing token last what x =>
    cases x with
    | error s => cases hn
    | ok =>
      rw [Next.after, Next.missing] at hn
      cases hd : w.nextDelay? delay with
      | none =>
        rw [hd] at hn
        cases hn
      | some d =>
        rw [hd] at hn
        cases hn
        exact ⟨k + 1, by rw [WaitPlan.delayAfter?, hk]; exact hd⟩
  | _ => cases hn

/-- A wait ends in an overrun only if it has been answered with it, or there is no next pause. -/
lemma overrun_of_waitFrom {o : Overrun} (before : ∃ k, w.delayAfter? k = some delay)
    (course : (waitFrom w jobId rounds left delay).Course log (.error (.overrun o))) :
    (∃ a, .awaited a (.overrun o) ∈ log) ∨ o = .pause ∧ ∃ k, w.delayAfter? k = none := by
  induction rounds generalizing left delay log with
  | zero => cases course
  | succ rounds ih =>
    rcases TakesRound.of_course course with round | ⟨first, rest, left', delay', round, next, rfl⟩
    · rcases nextDelay?_of_round_overrun round with answered | ⟨pause, none'⟩
      · exact .inl answered
      · obtain ⟨k, hk⟩ := before
        exact .inr ⟨pause, k + 1, by rw [WaitPlan.delayAfter?, hk]; exact none'⟩
    · rcases ih (delayAfter?_of_round round before) next with ⟨a, answered⟩ | none'
      · exact .inl ⟨a, List.mem_append_right first answered⟩
      · exact .inr none'

/-- A wait that ends in an overrun with which it has not been answered has no next pause. -/
theorem waitFrom_overrun {o : Overrun} (before : ∃ k, w.delayAfter? k = some delay)
    (course : (waitFrom w jobId rounds left delay).Course log (.error (.overrun o))) :
    (∃ a, .awaited a (.overrun o) ∈ log) ∨ ∃ k, w.delayAfter? k = none :=
  (overrun_of_waitFrom before course).imp_right And.right

end Polling

/-! ### Settings -/

namespace Settings

/-- Pauses of waits under some settings. -/
structure Pauses (s : Settings) : Prop where
  /-- No pause is above the bound. -/
  bounded : ∀ k d, s.waitPlan.delayAfter? k = some d → d ≤ s.waitPlan.cap
  /-- A pause has a next one unless the pauses grow and the product is not below 2⁶⁴ seconds. -/
  next : ∀ d, s.waitPlan.nextDelay? d = none ↔ s.backoff.le .one = false ∧
    ∀ m e, s.backoff.mul d.toSeconds = .finite false m e → 2 ^ 64 ≤ scaled m e
  /-- With a factor that is no number or infinite no pause has a next one. -/
  odd : s.backoff.le .one = false → (∀ m e, s.backoff ≠ .finite false m e) →
    ∀ d, s.waitPlan.nextDelay? d = none
  /-- If the factor scales the longest pause and a second more, every pause has a next one. -/
  enough : Span.ofSeconds? (s.backoff.mul
      ((Binary64.ofNat (s.waitPlan.cap.nanos / Span.nanosPerSecond)).add .one)) ≠ none →
    ∀ k, s.waitPlan.delayAfter? k ≠ none
  /-- With a factor of up to 999 every pause has a next one, however long the pauses are. -/
  moderate : s.backoff.le (.ofNat 999) = true → ∀ k, s.waitPlan.delayAfter? k ≠ none
  /-- A wait makes no other pauses, and it ends in an overrun that it has not been answered with
  only if there is a pause without a next one. -/
  waits : ∀ (rounds : Nat) (jobId : Int64) {σ : Type} (env : Environment (StateM σ)) (st : σ),
    (∀ d, .paused d ∈ ((waitForJob s.waitPlan rounds jobId).log env st).beats →
      ∃ k, s.waitPlan.delayAfter? k = some d) ∧
    ∀ o, ((waitForJob s.waitPlan rounds jobId).run env st).1 = .error (.overrun o) →
      (∃ a, .awaited a (.overrun o) ∈ (waitForJob s.waitPlan rounds jobId).log env st) ∨
        ∃ k, s.waitPlan.delayAfter? k = none

variable (s : Settings)

/-- The longest pause of all is below 2⁶⁴ milliseconds. -/
lemma seconds_cap_le : s.waitPlan.cap.nanos / Span.nanosPerSecond ≤ 18446744073709551 := by
  have interval := s.pollInterval.toNat_lt
  have bound := s.maxPollInterval.toNat_lt
  have cap : s.waitPlan.cap.nanos =
      max (s.maxPollInterval.toNat * 1000000) (s.pollInterval.toNat * 1000000) := rfl
  rw [cap, show Span.nanosPerSecond = 1000000000 from rfl]
  omega

/-- How long the pauses of a wait are, and which settings leave it without a next one. -/
theorem waitPlan_pauses : s.Pauses where
  bounded _ _ after := WaitPlan.le_cap_of_delayAfter? after
  next _ := WaitPlan.nextDelay?_eq_none_iff
  odd grows odd d := by
    refine WaitPlan.nextDelay?_eq_none_iff.2 ⟨grows, fun m e product => ?_⟩
    exact absurd product (mul_ne_finite grows odd d.toSeconds_unsigned m e)
  enough fits k := by
    cases growth : s.backoff.le .one with
    | true =>
      rw [WaitPlan.delayAfter?_of_le growth]
      exact Option.some_ne_none _
    | false =>
      -- A factor that grows and is not finite leaves no next pause, against what is assumed.
      by_cases finite : ∃ m e, s.backoff = .finite false m e
      · obtain ⟨m, e, eq⟩ := finite
        have factor : s.waitPlan.backoff.le (.finite false m e) = true := by
          change s.backoff.le _ = true
          rw [eq]
          exact finite_le_finite.2 le_rfl
        rw [eq] at fits
        exact WaitPlan.delayAfter?_ne_none_of_le factor le_rfl fits k
      · have odd (m : Nat) (e : Int) : s.backoff ≠ .finite false m e := fun eq => finite ⟨m, e, eq⟩
        have longest := Span.longest_unsigned (s.waitPlan.cap.nanos / Span.nanosPerSecond)
        have none' := (Span.ofSeconds?_mul_eq_none_iff growth longest).2 fun m e product =>
          absurd product (mul_ne_finite growth odd longest m e)
        exact absurd none' fits
  moderate factor k := by
    have eq : Binary64.ofNat 999 = .finite false 8787296929185792 (-43) := by decide +kernel
    rw [eq] at factor
    exact WaitPlan.delayAfter?_ne_none_of_le factor s.seconds_cap_le (by decide +kernel) k
  waits rounds jobId σ env st := by
    have course := course_log env (waitForJob s.waitPlan rounds jobId) st
    refine ⟨fun d mem => ?_, fun o result => ?_⟩
    · exact ((Polling.Waiting.start s.waitPlan jobId).rhythm course).eq_delayAfter? mem
    · rw [result] at course
      exact Polling.waitFrom_overrun ⟨0, rfl⟩ course

/-- The plan of the settings that a text is read as. -/
lemma exists_of_waitPlan {home text : String} {w : WaitPlan}
    (read : (ofText home text).toOption.map waitPlan = some w) :
    ∃ s, ofText home text = .ok s ∧ s.waitPlan = w := by
  generalize ofText home text = r at read
  cases r with
  | error e => cases read
  | ok s => exact ⟨s, rfl, Option.some.inj read⟩

/-- A text with a great factor leaves a wait without a next pause as soon as the job is not found
once; one with the factor 999 never does, with the longest pauses that a text can tell. -/
theorem waitPlan_pauses_great : ∃ s t : Settings,
    ofText "/home/user" "not_found_backoff = 1e300" = .ok s ∧ s.waitPlan.delayAfter? 1 = none ∧
      ofText "/home/user" "not_found_backoff = 999.0\npoll_interval_ms = 9223372036854775807" =
        .ok t ∧ ∀ k, t.waitPlan.delayAfter? k ≠ none := by
  obtain ⟨s, hs, plan⟩ := exists_of_waitPlan (w := ⟨.ofMillis 1000, 10, .ofDecimal false 1 300,
    .ofMillis 30000⟩) (show (ofText "/home/user" "not_found_backoff = 1e300").toOption.map _ = _ by
      decide +kernel)
  obtain ⟨t, ht, plan'⟩ := exists_of_waitPlan (w := ⟨.ofMillis 9223372036854775807, 10, .ofNat 999,
    .ofMillis 30000⟩) (show (ofText "/home/user"
      "not_found_backoff = 999.0\npoll_interval_ms = 9223372036854775807").toOption.map _ = _ by
      decide +kernel)
  refine ⟨s, t, hs, ?_, ht, ?_⟩
  · rw [plan]
    decide +kernel
  · have factor : t.backoff = .ofNat 999 := congrArg WaitPlan.backoff plan'
    exact (waitPlan_pauses t).moderate (by rw [factor]; decide +kernel)

end Settings

end StagedTransfer
