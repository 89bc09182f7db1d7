import Mathlib.Data.List.Chain
import Mathlib.Data.List.Nodup
import StagedTransfer.Proofs.Events.Transfers

/-!
# Phases only move forward

A phase that may follow another one comes later in the order of a transfer, so that none is entered
twice and nothing follows the end. A transfer by the store only ever enters a phase that may follow,
and its last phase tells how it has ended. One that comes to no result does not enter its end.
-/

namespace StagedTransfer

open Activity Wire

/-! ### The order of the phases -/

namespace Phase

/-- The place of a phase in the order of a transfer. -/
def rank : Phase → Nat
  | planRequested  => 0
  | partsUploading => 1
  | completionSent => 2
  | jobPolling     => 3
  | downloading    => 4
  | done           => 5
  | failed _       => 5

/-- One phase may follow another. -/
def Follows (p q : Phase) : Prop :=
  p.canAdvanceTo q = true

instance (p q : Phase) : Decidable (p.Follows q) :=
  inferInstanceAs (Decidable (_ = true))

lemma rank_le (p : Phase) : p.rank ≤ 5 := by
  cases p <;> simp [rank]

lemma rank_eq_iff {p : Phase} : p.rank = 5 ↔ p.isFinal = true := by
  cases p <;> simp [rank, isFinal]

/-- A phase that follows comes later. -/
lemma Follows.rank_lt {p q : Phase} (h : p.Follows q) : p.rank < q.rank := by
  cases p <;> cases q <;> cases h <;> simp [rank]

lemma follows_failed {p : Phase} (open' : p.isFinal = false) (reason : String) :
    p.Follows (failed reason) := by
  cases p <;> first | rfl | cases open'

/-- Phases that come later and later: at most six, none twice, and none after the end. -/
structure Forward (taken : List Phase) : Prop where
  ascends : taken.Pairwise fun p q => p.rank < q.rank
  once    : taken.Nodup
  few     : taken.length ≤ 6
  ends    : ∀ before p after, taken = before ++ p :: after → p.isFinal = true → after = []

/-- Numbers up to a bound that ascend are at most one more than the bound. -/
lemma length_le_of_ascends {taken : List Phase}
    (ascends : taken.Pairwise fun p q => p.rank < q.rank) : taken.length ≤ 6 := by
  have nodup : (taken.map rank).Nodup :=
    List.pairwise_map.2 (ascends.imp fun lt => Nat.ne_of_lt lt)
  have sub : taken.map rank ⊆ List.range 6 := by
    intro n mem
    obtain ⟨p, -, rfl⟩ := List.mem_map.1 mem
    exact List.mem_range.2 (Nat.lt_succ_of_le p.rank_le)
  simpa using (List.subperm_of_subset nodup sub).length_le

lemma Forward.of_ascends {taken : List Phase}
    (ascends : taken.Pairwise fun p q => p.rank < q.rank) : Forward taken where
  ascends := ascends
  once := ascends.imp fun lt same => Nat.ne_of_lt lt (congrArg rank same)
  few := length_le_of_ascends ascends
  ends before p after split final := by
    subst split
    obtain ⟨later, -⟩ := List.pairwise_cons.1 (List.pairwise_append.1 ascends).2.1
    cases after with
    | nil => rfl
    | cons q after =>
      have lt := later q List.mem_cons_self
      have top := rank_eq_iff.2 final
      have le := q.rank_le
      omega

/-- Phases each of which may follow the one before. -/
theorem Forward.of_isChain {taken : List Phase} (legal : taken.IsChain Follows) : Forward taken := by
  refine .of_ascends ?_
  have trans : IsTrans Phase fun p q => p.rank < q.rank := ⟨fun _ _ _ => Nat.lt_trans⟩
  exact List.isChain_iff_pairwise.1 (legal.imp fun _ _ => Follows.rank_lt)

/-- Whatever is offered, each phase that is taken follows the one before. -/
lemma isChain_go (current : Phase) (offered : List Phase) :
    (current :: walk.go current offered).IsChain Follows := by
  induction offered generalizing current with
  | nil => exact .singleton current
  | cons p offered ih =>
    rw [walk.go]
    split
    · next follows => exact (ih p).cons_cons follows
    · exact ih current

/-- Of phases that follow each other all are taken. -/
lemma go_of_isChain {current : Phase} {offered : List Phase}
    (legal : (current :: offered).IsChain Follows) : walk.go current offered = offered := by
  induction offered generalizing current with
  | nil => rfl
  | cons p offered ih =>
    obtain ⟨follows, rest⟩ := List.isChain_cons_cons.1 legal
    have allowed : current.canAdvanceTo p = true := follows
    rw [walk.go, if_pos allowed, ih rest]

theorem walk_forward (offered : List Phase) : Forward (walk offered) := by
  cases offered with
  | nil => exact .of_isChain .nil
  | cons p offered => exact .of_isChain (isChain_go p offered)

end Phase

/-! ### The phases of a run -/

def Note.phase? : Note → Option Phase
  | .acted (.enter p) _ => some p
  | _                   => none

namespace Log

/-- The phases that a transfer asks to enter, in order. -/
def entered (log : Log) : List Phase :=
  log.filterMap Note.phase?

@[simp] lemma entered_append (first rest : Log) :
    entered (first ++ rest) = entered first ++ entered rest :=
  List.filterMap_append

/-- The phases of a transfer, which begins with the request for a plan. -/
def phases (log : Log) : List Phase :=
  .planRequested :: entered log

end Log

/-- What does not enter a phase. -/
def Note.Resides (note : Note) : Prop :=
  note.phase? = none

lemma Log.entered_eq_nil {log : Log} (h : ∀ note ∈ log, note.Resides) : entered log = [] :=
  List.filterMap_eq_nil_iff.2 h

lemma Sending.Course.entered_eq_nil {file : String} {fuel : Nat} {s t : State} {log : Log}
    (h : Course file fuel s log t) : Log.entered log = [] :=
  Log.entered_eq_nil fun note mem => by cases h.asks mem <;> rfl

lemma Activity.Waits.entered_eq_nil {w : Await} {log : Log} {r : Except Stop w.Answer}
    (h : Waits w log r) : Log.entered log = [] :=
  Log.entered_eq_nil fun note mem => by rcases h.mem mem with ⟨_, rfl⟩ | ⟨_, rfl⟩ <;> rfl

lemma Activity.entered_of_waitFrom {w : WaitPlan} {jobId : Int64} {rounds left : Nat} {delay : Span}
    {log : Log} {r : Except Stop SchedulerJob}
    (h : (waitFrom w jobId rounds left delay).Course log r) : Log.entered log = [] :=
  Log.entered_eq_nil fun note mem => by cases waitFrom_asks h mem <;> rfl

namespace Profile

variable {p : Profile} {file remote : String} {wait : Bool} {log : Log}

lemma SendsParts.entered_eq_nil {plan : UploadPlan} {r : Except Stop (OrderedMap Nat String)}
    (h : p.SendsParts file plan log r) : Log.entered log = [] := by
  cases h with
  | sent _ course => exact course.entered_eq_nil
  | stalled _ course => exact course.entered_eq_nil
  | _ => rfl

lemma SendsFile.entered_eq_nil {plan : UploadPlan} {r : Except Stop (OrderedMap Nat String)}
    (h : p.SendsFile file plan log r) : Log.entered log = [] := by
  cases h with
  | stopped parts => exact parts.entered_eq_nil
  | cancelled parts =>
    rw [Log.entered_append, parts.entered_eq_nil]
    rfl
  | posted parts _ concludes =>
    rw [Log.entered_append, parts.entered_eq_nil]
    cases concludes <;> rfl

/-- The phases before the end of a transfer: each follows the one before, the last is not an end, and
success may follow it if there is success. -/
structure Poised {α : Type} (phases : List Phase) (x : Except Stop α) : Prop where
  legal : phases.IsChain Phase.Follows
  last  : ∃ q, phases.getLast? = some q ∧ q.isFinal = false ∧ ∀ y, x = .ok y → q.Follows .done

lemma Poised.of_map {α β : Type} {phases : List Phase} {f : α → β} {x : Except Stop α}
    (h : Poised phases (x.map f)) : Poised phases x := by
  obtain ⟨legal, q, last, open', follows⟩ := h
  refine ⟨legal, q, last, open', fun y ok => follows (f y) ?_⟩
  rw [ok]
  rfl

lemma Uploads.poised {r : Except Stop (Int64 × Int64)} (h : p.Uploads file remote wait log r) :
    Poised log.phases r := by
  cases h with
  | misnamed | unread => exact ⟨.singleton _, _, rfl, rfl, by simp⟩
  | @unplanned dir name size last s _ waits =>
    have phases : Log.phases (.acted (.size file) (.ok size) :: last) = [.planRequested] :=
      congrArg (_ :: ·) waits.entered_eq_nil
    rw [phases]
    exact ⟨.singleton _, _, rfl, rfl, by simp⟩
  | @unsent dir name size plan sending s _ sends =>
    have phases : Log.phases (p.begun file dir name size plan ++ sending) =
        [.planRequested, .partsUploading] := by
      rw [Log.phases, Log.entered_append, sends.entered_eq_nil]
      rfl
    rw [phases]
    exact ⟨by decide, _, rfl, rfl, by simp⟩
  | @sent dir name size plan sending etags _ sends _ =>
    have phases : Log.phases (p.begun file dir name size plan ++
        (sending ++ [.acted (.enter .completionSent) ()])) =
        [.planRequested, .partsUploading, .completionSent] := by
      rw [Log.phases, Log.entered_append, Log.entered_append, sends.entered_eq_nil]
      rfl
    rw [phases]
    exact ⟨by decide, _, rfl, rfl, fun _ _ => rfl⟩
  | @awaited dir name size plan sending polling etags x _ sends _ course =>
    have polled : Log.entered (.acted (.enter .completionSent) () ::
        .acted (.enter .jobPolling) () :: polling) = [.completionSent, .jobPolling] :=
      congrArg (_ :: _ :: ·) (entered_of_waitFrom course)
    have phases : Log.phases (p.begun file dir name size plan ++ (sending ++
        .acted (.enter .completionSent) () :: .acted (.enter .jobPolling) () :: polling)) =
        [.planRequested, .partsUploading, .completionSent, .jobPolling] := by
      rw [Log.phases, Log.entered_append, Log.entered_append, sends.entered_eq_nil, polled]
      rfl
    rw [phases]
    exact ⟨by decide, _, rfl, rfl, fun _ _ => rfl⟩

lemma Downloads.poised {r : Except Stop Nat} (h : p.Downloads remote file log r) :
    Poised log.phases r := by
  cases h with
  | unplanned waits =>
    rw [Log.phases, waits.entered_eq_nil]
    exact ⟨.singleton _, _, rfl, rfl, by simp⟩
  | @unawaited plan polling s course =>
    have phases : Log.phases (p.planned remote plan ++ polling) = [.planRequested, .jobPolling] := by
      rw [Log.phases, Log.entered_append, entered_of_waitFrom course]
      rfl
    rw [phases]
    exact ⟨by decide, _, rfl, rfl, by simp⟩
  | @fetched plan polling fetching job x course waits =>
    have fetched : Log.entered (.acted (.enter .downloading) () ::
        .acted (.emit (.downloading plan.transferJob.jobId file)) () :: fetching) =
        [.downloading] := congrArg (_ :: ·) waits.entered_eq_nil
    have phases : Log.phases (p.planned remote plan ++ (polling ++
        .acted (.enter .downloading) () ::
          .acted (.emit (.downloading plan.transferJob.jobId file)) () :: fetching)) =
        [.planRequested, .jobPolling, .downloading] := by
      rw [Log.phases, Log.entered_append, Log.entered_append, entered_of_waitFrom course, fetched]
      rfl
    rw [phases]
    exact ⟨by decide, _, rfl, rfl, fun _ _ => rfl⟩

/-- The last phase of a transfer that ends with a result. -/
inductive Rests {α : Type} : Phase → Except Stop α → Prop
  | done (x : α) : Rests .done (.ok x)
  | failed (e : TransferError) : Rests (.failed e.message) (.error (.failed e))
  | overrun {q : Phase} (open' : q.isFinal = false) (o : Overrun) : Rests q (.error (.overrun o))
  | unfinished {q : Phase} (open' : q.isFinal = false) : Rests q (.error .unfinished)

/-- An end is entered if it may follow the last phase. -/
lemma Poised.rests {α : Type} {last : Log} {x : Except Stop (Int64 × α)}
    (poised : Poised log.phases x) (parting : Parting x last) :
    (log ++ last).phases.IsChain Phase.Follows ∧
      ∃ q, (log ++ last).phases.getLast? = some q ∧ Rests q (x.map (·.2)) := by
  obtain ⟨legal, q, isLast, open', follows⟩ := poised
  have append (next : Phase) (allowed : q.Follows next) :
      (log.phases ++ [next]).IsChain Phase.Follows := by
    refine legal.append (.singleton _) fun p hp r hr => ?_
    obtain rfl : q = p := Option.some.inj (isLast.symm.trans hp)
    obtain rfl : next = r := Option.some.inj hr
    exact allowed
  have split : (log ++ last).phases = log.phases ++ last.entered :=
    congrArg (_ :: ·) (Log.entered_append log last)
  rw [split]
  cases parting with
  | done jobId y => exact ⟨append .done (follows _ rfl), .done, List.getLast?_concat, .done y⟩
  | failed e =>
    exact ⟨append (.failed e.message) (Phase.follows_failed open' _), _, List.getLast?_concat,
      .failed e⟩
  | overrun o =>
    refine ⟨(List.append_nil log.phases).symm ▸ legal, q, ?_, .overrun open' o⟩
    exact (congrArg List.getLast? (List.append_nil log.phases)).trans isLast
  | unfinished =>
    refine ⟨(List.append_nil log.phases).symm ▸ legal, q, ?_, .unfinished open'⟩
    exact (congrArg List.getLast? (List.append_nil log.phases)).trans isLast

end Profile

/-! ### How a run ends -/

/-- The phases of a run that ends with a result. -/
structure Advances {α : Type} (log : Log) (r : Except Stop α) : Prop where
  /-- Each phase that is asked for may follow the one before, so that all of them are taken. -/
  legal   : log.phases.IsChain Phase.Follows
  taken   : Phase.walk log.phases = log.phases
  forward : Phase.Forward log.phases
  /-- Success is entered last just if there is success. -/
  done    : log.phases.getLast? = some .done ↔ ∃ x, r = .ok x
  /-- A failure is entered last with its text, just if there is that error. -/
  failed  : ∀ text, log.phases.getLast? = some (.failed text) ↔
    ∃ e, r = .error (.failed e) ∧ text = e.message
  /-- No end is entered just if there is neither success nor an error. -/
  neither : (∀ q ∈ log.phases, q.isFinal = false) ↔
    (∃ o, r = .error (.overrun o)) ∨ r = .error .unfinished

lemma Phase.Forward.isFinal_iff {taken : List Phase} (forward : Forward taken) {q : Phase}
    (last : taken.getLast? = some q) : (∀ p ∈ taken, p.isFinal = false) ↔ q.isFinal = false := by
  refine ⟨fun opens => opens q (List.mem_of_getLast? last), fun open' p mem => ?_⟩
  obtain ⟨before, after, rfl⟩ := List.append_of_mem mem
  by_contra final
  obtain rfl := forward.ends before p after rfl (by simpa using final)
  rw [List.getLast?_concat] at last
  exact final (Option.some.inj last ▸ open')

lemma Advances.of_rests {α : Type} {log : Log} {r : Except Stop α} {q : Phase}
    (legal : log.phases.IsChain Phase.Follows) (last : log.phases.getLast? = some q)
    (rests : Profile.Rests q r) : Advances log r where
  legal := legal
  taken := congrArg (_ :: ·) (Phase.go_of_isChain legal)
  forward := .of_isChain legal
  done := by
    rw [last]
    cases rests with
    | done | failed => simp
    | overrun open' | unfinished open' => simpa using fun same => by simp [same, Phase.isFinal] at open'
  failed text := by
    rw [last]
    cases rests with
    | done => simp
    | failed e => simp [eq_comm]
    | overrun open' | unfinished open' => simpa using fun same => by simp [same, Phase.isFinal] at open'
  neither := by
    rw [(Phase.Forward.of_isChain legal).isFinal_iff last]
    cases rests with
    | done | failed => simp [Phase.isFinal]
    | overrun open' | unfinished open' => simpa using open'

namespace Profile

/-- Phases only move forward: of phases offered in any order those that are taken come later and
later. An upload or a download by the store, whatever the other sides do, enters only phases that
may follow, and its last phase tells how it has ended; if there is neither success nor an error, as
when a pause is no span of time, it is left where it was. -/
theorem large_advances (p : Profile) (file remote : String) {σ : Type}
    (env : Environment (StateM σ)) (s : σ) :
    (∀ offered, Phase.Forward (Phase.walk offered)) ∧
      (∀ wait, Advances ((p.uploadLarge file remote wait).log env s)
        ((p.uploadLarge file remote wait).run env s).1) ∧
      Advances ((p.downloadLarge remote file).log env s)
        ((p.downloadLarge remote file).run env s).1 := by
  refine ⟨Phase.walk_forward, fun wait => ?_, ?_⟩
  · obtain ⟨first, last, x, course, parting, split, result⟩ :=
      parting_of_concluding (course_log env (p.uploadLarge file remote wait) s)
    rw [split, result]
    obtain ⟨legal, q, last, rests⟩ := (Uploads.of_course course).poised.rests parting
    exact .of_rests legal last rests
  · obtain ⟨first, last, x, course, parting, split, result⟩ :=
      parting_of_concluding (course_log env (p.downloadLarge remote file) s)
    rw [split, result]
    obtain ⟨legal, q, last, rests⟩ := (Downloads.of_course course).poised.of_map.rests parting
    exact .of_rests legal last rests

/-- The job is not found once, and there is no span for the next pause: the upload stays where it
waits for its job. -/
theorem large_advances_rash :
    let upload := rash.uploadLarge "file" "/there/file" true
    let log := upload.log (losing [1, 2, 3] threeBytes) ()
    Advances log (upload.run (losing [1, 2, 3] threeBytes) ()).1 ∧
      (upload.run (losing [1, 2, 3] threeBytes) ()).1 = .error (.overrun .pause) ∧
      log.phases = [.planRequested, .partsUploading, .completionSent, .jobPolling] :=
  ⟨(large_advances rash "file" "/there/file" (losing [1, 2, 3] threeBytes) ()).2.1 true,
    by decide +kernel, by decide +kernel⟩

end Profile

end StagedTransfer
