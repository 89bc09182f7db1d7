import StagedTransfer.Proofs.Polling.Renewals

/-!
# Waits that renew a token in turn

If all waits look at the token before one of them has renewed it, each of them asks for a new one:
the first gets one, and so does every other after it, although an accepted token is there by then.
-/

namespace StagedTransfer

open Activity TokenCache TokenCache.State Wire

namespace TokenCache.State

variable {token : Option AccessToken} {cs : List Caller} {o : Stage} {holder : Option Nat}
  {fetches : Nat} {now : Instant} {t : AccessToken}

/-- The last caller wants a new token, and nobody waits for the lock. -/
def lone (token : Option AccessToken) (cs : List Caller) (o : Stage) (holder : Option Nat)
    (fetches : Nat) : State :=
  ⟨token, cs ++ [⟨.refresh, o⟩], [], holder, fetches⟩

lemma caller?_lone : (lone token cs o holder fetches).caller? cs.length = some ⟨.refresh, o⟩ := by
  simp [lone, caller?]

lemma setStage_lone (st : Stage) :
    (lone token cs o holder fetches).setStage cs.length st = lone token cs st holder fetches := by
  simp [lone, setStage, List.modify_eq_take_drop]

lemma lone_called : (lone token cs .called none fetches).step (.advance cs.length now) =
    lone token cs .locked (some cs.length) fetches := by
  simp only [step, advance, caller?_lone]
  exact setStage_lone ..

lemma lone_locked :
    (lone token cs .locked (some cs.length) fetches).step (.advance cs.length now) =
      lone token cs .fetching (some cs.length) (fetches + 1) := by
  simp only [step, advance, caller?_lone]
  exact setStage_lone ..

lemma lone_fetching :
    (lone token cs .fetching (some cs.length) fetches).step (.provide cs.length (.ok t)) =
      lone token cs (.fetched t) (some cs.length) fetches := by
  simp only [step, provide, caller?_lone, setStage_lone]

lemma lone_fetched :
    (lone token cs (.fetched t) (some cs.length) fetches).step (.advance cs.length now) =
      lone (some t) cs (.finished (.ok (some t))) none fetches := by
  simp only [step, advance, caller?_lone, conclude]
  have stored : (lone (some t) cs (.fetched t) (some cs.length) fetches).setStage cs.length
      (.finished (.ok (some t))) = _ := setStage_lone ..
  exact congrArg handOver stored

lemma answer?_lone {a : Answer} :
    (lone token cs (.finished a) holder fetches).answer? cs.length = some a := by
  rw [answer?, caller?_lone]

/-- The cache after so many callers have got the new token, one after the other. -/
def served (cached : Option AccessToken) (t : AccessToken) (k : Nat) : State :=
  ⟨if k = 0 then cached else some t, List.replicate k ⟨.refresh, .finished (.ok (some t))⟩, [],
    none, k⟩

end TokenCache.State

namespace Crowd

variable {C C' C'' : Crowd} {es es' : List Incident} {s : State} {m m' : Member}
  {before after : List Member}

lemma Runs.append (first : C.Runs es C') (later : C'.Runs es' C'') : C.Runs (es ++ es') C'' := by
  induction first with
  | nil => exact later
  | cons step _ ih => exact .cons step (ih later)

lemma getElem?_between : (⟨s, before ++ m :: after⟩ : Crowd).members[before.length]? = some m := by
  simp

lemma set_between :
    (⟨s, before ++ m :: after⟩ : Crowd).set before.length m' = ⟨s, before ++ m' :: after⟩ := by
  simp [Crowd.set]

/-- A wait looks at the token. -/
lemma runs_look {next : Except TransferError Bool → Activity SchedulerJob} {now : Instant}
    (missing : tokenMissing s.token now = true) :
    Runs ⟨s, before ++ .goes (.await .tokenExpired next) :: after⟩ [.look now true]
      ⟨s, before ++ .goes (next (.ok true)) :: after⟩ := by
  have step := Step.look (C := ⟨s, before ++ .goes (.await .tokenExpired next) :: after⟩)
    getElem?_between now
  simp only [missing, set_between] at step
  exact .cons step (.nil _)

/-- What happens when a wait gets a new token as the only one that wants it at the time. -/
def renewal (t : AccessToken) (now : Instant) (i : Nat) : List Incident :=
  [.move (.call .refresh), .move (.advance i now), .move (.advance i now),
    .move (.provide i (.ok t)), .move (.advance i now), .goOn]

/-- A wait gets a new token, whatever the token is that is there. -/
lemma runs_renewal (t : AccessToken) (now : Instant) (token : Option AccessToken) (cs : List Caller)
    (fetches : Nat) (next : Except TransferError Unit → Activity SchedulerJob)
    (before after : List Member) :
    Runs ⟨⟨token, cs, [], none, fetches⟩, before ++ .goes (.await .refresh next) :: after⟩
      (renewal t now cs.length)
      ⟨⟨some t, cs ++ [⟨.refresh, .finished (.ok (some t))⟩], [], none, fetches + 1⟩,
        before ++ .goes (next (.ok ())) :: after⟩ := by
  have comes : Step
      ⟨⟨token, cs, [], none, fetches⟩, before ++ .goes (.await .refresh next) :: after⟩
      (.move (.call .refresh))
      ⟨lone token cs .called none fetches, before ++ .renews cs.length next :: after⟩ := by
    have came : (⟨lone token cs .called none fetches,
        before ++ .goes (.await .refresh next) :: after⟩ : Crowd).set before.length
          (.renews cs.length next) = _ := set_between
    exact came ▸ .refresh getElem?_between
  have moves {s s' : State} {i : Nat} (moved : s.step (.advance i now) = s') (ms : List Member) :
      Step ⟨s, ms⟩ (.move (.advance i now)) ⟨s', ms⟩ := moved ▸ .advance i now
  have receives {s s' : State} {i : Nat} (moved : s.step (.provide i (.ok t)) = s')
      (ms : List Member) : Step ⟨s, ms⟩ (.move (.provide i (.ok t))) ⟨s', ms⟩ :=
    moved ▸ .provide i (.ok t)
  have goes : Step
      ⟨lone (some t) cs (.finished (.ok (some t))) none (fetches + 1),
        before ++ .renews cs.length next :: after⟩ .goOn
      ⟨lone (some t) cs (.finished (.ok (some t))) none (fetches + 1),
        before ++ .goes (next (.ok ())) :: after⟩ := by
    have gone : (⟨lone (some t) cs (.finished (.ok (some t))) none (fetches + 1),
        before ++ .renews cs.length next :: after⟩ : Crowd).set before.length
          (.goes (next (.ok ()))) = _ := set_between
    exact gone ▸ .renewed getElem?_between answer?_lone
  exact .cons comes <| .cons (moves lone_called _) <| .cons (moves lone_locked _) <|
    .cons (receives lone_fetching _) <| .cons (moves lone_fetched _) <| .cons goes <| .nil _

/-- What each wait does in its turn, all do. -/
lemma runs_turns {α : Type} {f g : α → Member} {c : Nat → State} {es : Nat → List Incident}
    (turn : ∀ k x before after,
      Runs ⟨c k, before ++ f x :: after⟩ (es k) ⟨c (k + 1), before ++ g x :: after⟩)
    (k : Nat) (xs : List α) (before : List Member) :
    Runs ⟨c k, before ++ xs.map f⟩ ((List.range' k xs.length).flatMap es)
      ⟨c (k + xs.length), before ++ xs.map g⟩ := by
  induction xs generalizing k before with
  | nil => exact .nil _
  | cons x xs ih =>
    have others := ih (k + 1) (before ++ [g x])
    rw [List.append_assoc, List.append_assoc, Nat.add_right_comm] at others
    exact (turn k x before (xs.map f)).append others

lemma mem_turns {e : Incident} {n : Nat} {t : AccessToken} {now : Instant}
    (mem : e ∈ (List.range n).flatMap (renewal t now)) :
    e ≠ .giveUp ∧ (∀ time ∈ e.now?, time = now) ∧ ∀ r ∈ e.answer?, r = .ok t := by
  obtain ⟨i, -, mem⟩ := List.mem_flatMap.1 mem
  simp only [renewal, List.mem_cons, List.not_mem_nil, or_false] at mem
  rcases mem with rfl | rfl | rfl | rfl | rfl | rfl <;>
    simp [Incident.now?, Incident.answer?, eq_comm]

variable {cached : Option AccessToken} {now : Instant} {t : AccessToken}

/-- All this happens at a time when the first token is missing and the new one is accepted. -/
lemma favourable_turns (missing : tokenMissing cached now = true) (live : t.hasExpired now = false)
    (n : Nat) : Favourable cached
      (List.replicate n (.look now true) ++ (List.range n).flatMap (renewal t now)) := by
  have here {e : Incident} (mem : e ∈ List.replicate n (.look now true) ++
      (List.range n).flatMap (renewal t now)) :
      (∀ time ∈ e.now?, time = now) ∧ ∀ r ∈ e.answer?, r = .ok t := by
    rcases List.mem_append.1 mem with mem | mem
    · obtain rfl := List.eq_of_mem_replicate mem
      simp [Incident.now?, Incident.answer?, eq_comm]
    · exact (mem_turns mem).2
  constructor
  case stale =>
    intro e mem time looks
    rwa [(here mem).1 time looks]
  case fresh =>
    intro e mem r answer
    refine ⟨t, (here mem).2 r answer, fun e' mem' time looks => ?_⟩
    rwa [(here mem').1 time looks]

/-- A wait looks at the token first. If it is missing, the wait asks for its job once it has got a
new one. -/
lemma waitForJob_opens (w : WaitPlan) (rounds : Nat) (jobId : Int64) : ∃ next renewed asked,
    waitForJob w (rounds + 1) jobId = .await .tokenExpired next ∧
      next (.ok true) = .await .refresh renewed ∧
      renewed (.ok ()) = .await (.call (.job jobId)) asked :=
  ⟨_, _, _, rfl, rfl, rfl⟩

/-- The waits look at the token one after the other, and then each gets a new one in its turn. -/
lemma runs_inTurn (t : AccessToken) (rounds : Nat) (waits : List (WaitPlan × Int64))
    (missing : tokenMissing cached now = true) :
    ∃ C, (ofWaits cached (rounds + 1) waits).Runs (List.replicate waits.length (.look now true) ++
        (List.range waits.length).flatMap (renewal t now)) C ∧
      (∀ m ∈ C.members, m.isRenewing = false) ∧ C.cache.fetches = waits.length := by
  choose next renewed asked opens misses asks using
    fun x : WaitPlan × Int64 => waitForJob_opens x.1 rounds x.2
  have looks (x : WaitPlan × Int64) (before after : List Member) :
      Runs ⟨served cached t 0, before ++ .goes (waitForJob x.1 (rounds + 1) x.2) :: after⟩
        [.look now true]
        ⟨served cached t 0, before ++ .goes (.await .refresh (renewed x)) :: after⟩ := by
    rw [opens, ← misses]
    exact runs_look missing
  have renews (k : Nat) (x : WaitPlan × Int64) (before after : List Member) :
      Runs ⟨served cached t k, before ++ .goes (.await .refresh (renewed x)) :: after⟩
        (renewal t now k)
        ⟨served cached t (k + 1),
          before ++ .goes (.await (.call (.job x.2)) (asked x)) :: after⟩ := by
    have turn := runs_renewal t now (served cached t k).token (served cached t k).callers k
      (renewed x) before after
    rwa [asks, served, List.length_replicate, ← List.replicate_succ'] at turn
  have all := (runs_turns (c := fun _ => served cached t 0) (fun _ => looks) 0 waits []).append
    (runs_turns renews 0 waits [])
  have start : ofWaits cached (rounds + 1) waits = ⟨served cached t 0,
      waits.map fun x => .goes (waitForJob x.1 (rounds + 1) x.2)⟩ := by
    rw [ofWaits, Crowd.start, List.map_map]
    rfl
  have each : (List.range' 0 waits.length).flatMap (fun _ => [Incident.look now true]) =
      List.replicate waits.length (.look now true) := by
    simp [List.flatMap]
  rw [each, ← List.range_eq_range', List.nil_append, ← start] at all
  refine ⟨_, all, fun m mem => ?_, Nat.zero_add _⟩
  obtain ⟨x, -, rfl⟩ := List.mem_map.1 mem
  rfl

/-- How often waits that share a token ask for a new one, if every token they get is accepted. -/
structure EachRenews (cached : Option AccessToken) (rounds : Nat)
    (waits : List (WaitPlan × Int64)) : Prop where
  /-- A new token is asked for once for each look that has found none accepted, and each wait looks
  so once at most. -/
  counted : ∀ {es : List Incident} {C : Crowd}, (ofWaits cached rounds waits).Runs es C →
    Favourable cached es →
    C.cache.fetches ≤ es.countP Incident.isMiss ∧ es.countP Incident.isMiss ≤ waits.length ∧
      ((∀ m ∈ C.members, m.isRenewing = false) →
        es.countP Incident.isMiss ≤ C.cache.fetches + es.countP Incident.isGivenUp)
  /-- All waits may find the same token missing, and then each of them may ask for a new one and get
  it. -/
  apart : rounds ≠ 0 → ∀ {now : Instant} {t : AccessToken}, tokenMissing cached now = true →
    t.hasExpired now = false →
    ∃ es C, (ofWaits cached rounds waits).Runs
        (List.replicate waits.length (.look now true) ++ es) C ∧
      Favourable cached (List.replicate waits.length (.look now true) ++ es) ∧ .giveUp ∉ es ∧
      (∀ m ∈ C.members, m.isRenewing = false) ∧ C.cache.fetches = waits.length

/-- Waits that share a token ask for a new one each for itself. -/
theorem waits_eachRenew (cached : Option AccessToken) (rounds : Nat)
    (waits : List (WaitPlan × Int64)) : EachRenews cached rounds waits where
  counted runs favourable := fetches_of_runs runs favourable
  apart positive now t missing live := by
    obtain ⟨rounds, rfl⟩ := Nat.exists_eq_succ_of_ne_zero positive
    obtain ⟨C, runs, idle, fetches⟩ := runs_inTurn t rounds waits missing
    exact ⟨_, C, runs, favourable_turns missing live waits.length,
      fun mem => (mem_turns mem).1 rfl, idle, fetches⟩

/-- Two waits that find no token. -/
theorem waits_eachRenew_two :
    let waits : List (WaitPlan × Int64) := [(.default, 7), (.default, 8)]
    ∃ es C, (ofWaits none 1 waits).Runs es C ∧ Favourable none es ∧ C.cache.fetches = 2 ∧
      es.countP Incident.isMiss = 2 := by
  intro waits
  have each := waits_eachRenew none 1 waits
  have missing : tokenMissing none ⟨0⟩ = true := rfl
  have live : AccessToken.hasExpired ⟨"fresh", ⟨90⟩⟩ ⟨0⟩ = false := by decide
  obtain ⟨es, C, runs, favourable, -, -, fetches⟩ := each.apart (by decide) missing live
  obtain ⟨low, high, -⟩ := each.counted runs favourable
  rw [fetches] at low
  exact ⟨_, C, runs, favourable, fetches, Nat.le_antisymm high low⟩

end Crowd

end StagedTransfer
