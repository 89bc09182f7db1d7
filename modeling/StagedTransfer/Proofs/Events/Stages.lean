import Mathlib.Data.List.Forall2
import StagedTransfer.Proofs.Polling.Decision
import StagedTransfer.Proofs.Upload.Completion

/-!
# What the stages of a transfer tell

The events of a stage are those that its answers call for, in their order: one for each answer for
a part, one for a completion that the store has accepted, and one for each answer for a job that is
not found or whose state can be told.
-/

namespace StagedTransfer

open Activity Wire

/-! ### Events in a log -/

def Note.event? : Note → Option Event
  | .acted (.emit e) _ => some e
  | _                  => none

/-- All that is told in a run, in order. -/
def Log.events (log : Log) : List Event :=
  log.filterMap Note.event?

@[simp] lemma Log.events_append (first rest : Log) :
    events (first ++ rest) = events first ++ events rest :=
  List.filterMap_append

/-- Nothing is told by waiting. -/
lemma Activity.Waits.events_eq_nil {w : Await} {log : Log} {r : Except Stop w.Answer}
    (h : Waits w log r) : Log.events log = [] := by
  cases h <;> rfl

lemma events_of_ensureToken {log : Log} {r : Except Stop Unit} (h : ensureToken.Course log r) :
    Log.events log = [] := by
  rcases ensureToken_cases h with ⟨s, waits, -⟩ | ⟨waits, -⟩ | ⟨first, rest, waits, refresh, rfl⟩
  · exact waits.events_eq_nil
  · exact waits.events_eq_nil
  · rw [Log.events_append, waits.events_eq_nil, refresh.events_eq_nil]
    rfl

/-! ### Parts -/

namespace Sending

/-- What is told of an answer for one of `total` parts that have gone on their way: the length of
the part if it has arrived, and otherwise the error. -/
inductive Retells (total : Nat) (puts : List Held) : Settled → Event → Prop
  | arrived {h : Held} {tag : String} (sent : h ∈ puts) :
    Retells total puts ⟨h.number, h.url, .ok tag⟩ (.partUploaded h.number total h.data.length)
  | failed (number : Nat) (url : String) (e : TransferError) :
    Retells total puts ⟨number, url, .error e⟩ (.partFailed number e.message)

lemma Retells.mono {total : Nat} {puts puts' : List Held} {a : Settled} {e : Event}
    (h : Retells total puts a e) (sub : puts ⊆ puts') : Retells total puts' a e := by
  cases h with
  | arrived sent => exact .arrived (sub sent)
  | failed number url e => exact .failed number url e

lemma Amounts.events {file : String} {s : State} {c : Choice} {notes : Log} {m : Move}
    (h : Amounts file c notes m) (e : Option Event) :
    Log.events (.chosen s c :: (notes ++ told e)) = e.toList := by
  cases h <;> cases e <;> rfl

/-- The part as it was before it went on its way. -/
def Held.unbegun (h : Held) : Held :=
  { h with begun := false }

/-- The events of a log are those that its answers call for. -/
structure Recounts (urls : List String) (log : Log) (s : State) : Prop extends Told urls log s where
  sent   : ∀ h ∈ s.held, h.begun = true → h.unbegun ∈ Log.puts log
  events : List.Forall₂ (Retells urls.length (Log.puts log)) (Log.answers log) (Log.events log)

namespace Recounts

variable {urls : List String}

lemma start (slots : Nat) (reader : PartReader) (urls : List String) :
    Recounts urls [] (.start slots reader urls) :=
  ⟨.start slots reader urls, by simp [State.start], .nil⟩

/-- A part that goes on its way is the one that is begun. -/
lemma put?_of_unbegun {s : State} (h : Balanced urls s) {k : Held} (hk : k ∈ s.held)
    (still : k.begun = false) : s.put? (.begin k.number) = some k := by
  obtain ⟨j, hj⟩ : ∃ j, s.put? (.begin k.number) = some j := by
    refine Option.isSome_iff_exists.1 (List.find?_isSome.2 ⟨k, hk, ?_⟩)
    simp [still]
  have same : j.number = k.number := by
    have found := List.find?_some hj
    simp_all
  obtain ⟨mem, -⟩ := State.mem_of_put? hj
  rw [hj, List.inj_on_of_nodup_map h.nodup_held mem hk same]

/-- An event is told just of an answer that comes. -/
lemma retells_step {file : String} {log notes : Log} {s t : State} {c : Choice} {m : Move}
    {e : Option Event} (h : Recounts urls log s) (amounts : Amounts file c notes m)
    (step : s.Step m t e) :
    List.Forall₂ (Retells urls.length (Log.puts log)) (s.answer? c).toList e.toList := by
  cases step with
  | @answered n k outcome mem number begun answer =>
    cases amounts
    subst number
    rw [answer, ← h.total]
    refine .cons ?_ .nil
    cases outcome with
    | ok tag => exact .arrived (h := k.unbegun) (h.sent k mem begun)
    | error e => exact .failed k.number k.url e
  | unexpected n outcome answer =>
    cases amounts
    rw [answer]
    exact .nil
  | _ =>
    cases amounts
    exact .nil

/-- A part that is on its way after a move was so before it, or goes on its way by it. -/
lemma sent_step {file : String} {log notes : Log} {s t : State} {c : Choice} {m : Move}
    {e : Option Event} (h : Recounts urls log s) (amounts : Amounts file c notes m)
    (step : s.Step m t e) {k : Held} (hk : k ∈ t.held) (begun : k.begun = true) :
    k.unbegun ∈ Log.puts log ++ (s.put? c).toList := by
  have before {j : Held} (mem : j ∈ s.held) (begun : j.begun = true) :
      j.unbegun ∈ Log.puts log ++ (s.put? c).toList :=
    List.mem_append_left _ (h.sent j mem begun)
  cases step with
  | cancelled _ => simp [State.stop] at hk
  | unread _ _ => simp [State.stop] at hk
  | waiting _ _ => exact before hk begun
  | finished _ _ _ => exact before hk begun
  | unexpected _ _ _ => exact before hk begun
  | answered _ _ _ _ _ => exact before (List.mem_of_mem_filter hk) begun
  | taken _ _ _ =>
    rcases List.mem_append.1 hk with hk | hk
    · exact before hk begun
    · obtain rfl := List.mem_singleton.1 hk
      cases begun
  | begun n =>
    cases amounts
    obtain ⟨j, mem, rfl⟩ := List.mem_map.1 hk
    have same : (Held.begin n j).unbegun = j.unbegun := by
      unfold Held.begin
      split <;> rfl
    rw [same]
    -- Begun before, or by this move, which then puts just this part.
    cases still : j.begun with
    | true => exact before mem still
    | false =>
      have number : j.number = n := by
        by_contra other
        rw [Held.begin, if_neg other, still] at begun
        cases begun
      subst number
      have itself : j.unbegun = j := by rw [Held.unbegun, ← still]
      rw [put?_of_unbegun h.toBalanced mem still, itself]
      exact List.mem_append_right _ (List.mem_singleton_self j)

lemma kept (file : String) (urls : List String) : Kept file (Recounts urls) := by
  intro log notes s t c m e h open' amounts step ht
  have sub : Log.puts log ⊆ Log.puts log ++ (s.put? c).toList := List.subset_append_left _ _
  have history := Told.kept file urls h.toTold open' amounts step ht
  refine ⟨history, fun k hk begun => ?_, ?_⟩
  · rw [Log.puts_append, amounts.puts]
    exact h.sent_step amounts step hk begun
  · rw [Log.puts_append, amounts.puts, Log.answers_append, amounts.answers, Log.events_append,
      amounts.events]
    exact List.rel_append (h.events.imp fun _ _ retells => retells.mono sub)
      ((h.retells_step amounts step).imp fun _ _ retells => retells.mono sub)

end Recounts

/-- What is told of a sending from its start is what its answers call for. -/
lemma Course.retells {file : String} {fuel slots : Nat} {reader : PartReader} {urls : List String}
    {log : Log} {t : State} (course : Course file fuel (.start slots reader urls) log t) :
    List.Forall₂ (Retells urls.length (Log.puts log)) (Log.answers log) (Log.events log) := by
  -- The last turn of the reader sends nothing, is not answered for and tells nothing.
  have last {log : Log} {s : State} (inv : Recounts urls log s) (cancelled : Bool)
      (content : Except IoError Bytes) :
      List.Forall₂ (Retells urls.length (Log.puts (log ++ turn file s cancelled content)))
        (Log.answers (log ++ turn file s cancelled content))
        (Log.events (log ++ turn file s cancelled content)) := by
    rw [Log.puts_append, Log.puts_turn, List.append_nil, Log.answers_append, Log.answers_turn,
      List.append_nil, Log.events_append]
    exact (List.append_nil (Log.events log)).symm ▸ inv.events
  have ends := course.ends (Recounts.kept file urls) rfl (Recounts.start slots reader urls)
  rw [List.nil_append] at ends
  cases ends with
  | still inv _ => exact inv.events
  | cancelled content inv _ => exact last inv true content
  | unread inv _ _ => exact last inv false _
  | finished content inv _ _ _ => exact last inv false content

end Sending

/-! ### The completion -/

/-- What is told of a completion of `total` parts: nothing unless the store has accepted it. -/
def Posted.event? (total : Nat) (x : Posted) : Option Event :=
  match x.reply with
  | .answered (.ok _) => some (.completionSent total)
  | _                 => none

namespace Profile

variable {p : Profile} {file : String} {plan : UploadPlan} {log : Log}
  {r : Except Stop (OrderedMap Nat String)}

lemma SendsParts.retells (h : p.SendsParts file plan log r) :
    List.Forall₂ (Sending.Retells plan.partsUploadUrls.length (Log.puts log)) (Log.answers log)
      (Log.events log) := by
  cases h with
  | sent _ course _ => exact course.retells
  | stalled _ course _ => exact course.retells
  | _ => exact .nil

lemma SendsParts.not_awaited (h : p.SendsParts file plan log r) {w : Await}
    {reply : Reply TransferError w.Answer} : .awaited w reply ∉ log := by
  have quiet {sending : Log} {fuel : Nat} {s t : Sending.State}
      (course : Sending.Course file fuel s sending t) : .awaited w reply ∉ sending := by
    intro mem
    cases course.asks mem
  cases h with
  | sent _ course _ => simpa using quiet course
  | stalled _ course _ => simpa using quiet course
  | _ => simp

/-- The sending of a file waits for the answer to its completion only. -/
lemma SendsFile.of_awaited (h : p.SendsFile file plan log r) {w : Await}
    {reply : Reply TransferError w.Answer} (mem : .awaited w reply ∈ log) :
    ∃ manifest, w = .call (.complete plan.completeUploadUrl manifest) := by
  cases h with
  | stopped parts => exact absurd mem parts.not_awaited
  | cancelled parts => simp [parts.not_awaited] at mem
  | @posted log last etags manifest reply' r parts _ concludes =>
    simp only [List.mem_append, parts.not_awaited, List.mem_cons, reduceCtorEq, false_or] at mem
    rcases mem with same | mem
    · cases same
      exact ⟨_, rfl⟩
    · cases concludes <;> simp at mem

lemma SendsParts.count_eq {etags : OrderedMap Nat String} {manifest : Manifest}
    (h : p.SendsParts file plan log (.ok etags))
    (ofEtags : Manifest.ofEtags etags plan.partsUploadUrls.length = .ok manifest) :
    manifest.parts.length = plan.partsUploadUrls.length := by
  obtain ⟨rfl, ⟨tag, answers⟩, -⟩ := h.of_ok
  obtain rfl := Except.ok.inj (ofEtags.symm.trans (Sending.ofEtags_tags answers))
  simp

/-- What is told of the sending of a file: its parts, and then its completion if the store has
accepted it. -/
lemma SendsFile.events_eq (h : p.SendsFile file plan log r) :
    ∃ parts, List.Forall₂ (Sending.Retells plan.partsUploadUrls.length (Log.puts log))
        (Log.answers log) parts ∧
      Log.events log =
        parts ++ (Log.posts log).filterMap (Posted.event? plan.partsUploadUrls.length) := by
  cases h with
  | stopped parts =>
    rw [parts.posts_eq_nil]
    exact ⟨_, parts.retells, (List.append_nil _).symm⟩
  | @cancelled log etags parts =>
    rw [Log.puts_append, Log.answers_append, Log.events_append, Log.posts_append,
      parts.posts_eq_nil]
    change ∃ told,
      List.Forall₂ (Sending.Retells _ (Log.puts log ++ [])) (Log.answers log ++ []) told ∧
      Log.events log ++ [] = told ++ []
    simp only [List.append_nil]
    exact ⟨_, parts.retells, rfl⟩
  | @posted log last etags manifest reply r parts ofEtags concludes =>
    rw [concludes.answers_posted, concludes.posts_posted parts.posts_eq_nil, Log.puts_append,
      Log.events_append]
    change ∃ parts, List.Forall₂ (Sending.Retells _ (Log.puts log ++ Log.puts last)) _ parts ∧
      Log.events log ++ Log.events last = _
    rw [concludes.puts_eq_nil, List.append_nil]
    refine ⟨Log.events log, parts.retells, congrArg (Log.events log ++ ·) ?_⟩
    cases concludes with
    | ok =>
      rw [parts.count_eq ofEtags]
      rfl
    | error e => rfl
    | overrun o => rfl

end Profile

/-! ### The wait for a job -/

/-- What is told of an answer for a job: whether it is not found, or the state that is reported for
it, if one is. -/
def polled? (jobId : Int64) : JobAnswer → Option Event
  | .ok job              => (Polling.reportOf job).bind fun state =>
    if state = "" then none else some (.jobPolled jobId (some state))
  | .error (.notFound _) => some (.jobPolled jobId none)
  | .error _             => none

variable {w : WaitPlan} {jobId : Int64} {rounds left : Nat} {delay : Span} {log : Log}
  {job : SchedulerJob}

lemma polled?_of_state {state : JobState} (hs : job.jobState? = some state) :
    polled? jobId (.ok job) = some (.jobPolled jobId (some state.name)) := by
  obtain ⟨s, report, nonempty, rfl⟩ := Polling.jobState?_eq_some_iff.1 hs
  rw [polled?, report, Option.bind_some, if_neg nonempty, JobState.name_parse]

lemma polled?_of_malformed (hs : job.jobState? = none) : polled? jobId (.ok job) = none := by
  rcases Polling.jobState?_eq_none_iff.1 hs with report | report <;> rw [polled?, report] <;> rfl

/-- The answer for the job in a round. -/
lemma jobAnswers_of_asked {token : Log} (h : ensureToken.Course token (.ok ())) (answer : JobAnswer)
    (rest : Log) : Log.jobAnswers (token ++ askedJob jobId answer ++ rest) =
      answer :: Log.jobAnswers rest := by
  rw [Log.jobAnswers_append, Log.jobAnswers_append, Polling.jobAnswers_of_ensureToken h]
  rfl

lemma events_of_asked {token : Log} (h : ensureToken.Course token (.ok ())) (answer : JobAnswer)
    (rest : Log) : Log.events (token ++ askedJob jobId answer ++ rest) = Log.events rest := by
  rw [Log.events_append, Log.events_append, events_of_ensureToken h]
  rfl

/-- After its event a round pauses and is not answered for the job any more. -/
lemma jobAnswers_of_pause {d : Span} {last : Log} {x : Except Stop Unit}
    (pause : Waits (.pause d) last x) (e : Event) :
    Log.jobAnswers (.acted (.emit e) () :: last) = [] := by
  change Log.jobAnswers last = []
  exact Polling.jobAnswers_of_waits pause (by simp)

lemma events_of_pause {d : Span} {last : Log} {x : Except Stop Unit}
    (pause : Waits (.pause d) last x) (e : Event) :
    Log.events (.acted (.emit e) () :: last) = [e] :=
  congrArg (e :: ·) pause.events_eq_nil

/-- What a round tells from its answer on. -/
lemma events_of_answer {token rest : Log} (h : ensureToken.Course token (.ok ()))
    {answer : JobAnswer} (quiet : Log.jobAnswers rest = [])
    (told : Log.events rest = (polled? jobId answer).toList) :
    Log.events (token ++ askedJob jobId answer ++ rest) =
      (Log.jobAnswers (token ++ askedJob jobId answer ++ rest)).filterMap (polled? jobId) := by
  rw [events_of_asked h, jobAnswers_of_asked h, quiet, told]
  cases called : polled? jobId answer <;> simp [called]

/-- A round tells what its answer calls for. -/
lemma Activity.Round.events_eq {next : Next} (h : Round w jobId left delay log next) :
    Log.events log = (Log.jobAnswers log).filterMap (polled? jobId) := by
  cases h with
  | untokened h =>
    rw [events_of_ensureToken h, Polling.jobAnswers_of_ensureToken h]
    rfl
  | unanswered h unasked =>
    rw [Log.events_append, Log.jobAnswers_append, events_of_ensureToken h,
      Polling.jobAnswers_of_ensureToken h]
    rcases unasked with ⟨-, rfl⟩ | ⟨o, -, rfl⟩ <;> rfl
  | @refused token e h found =>
    rw [← List.append_nil (token ++ _)]
    refine events_of_answer h rfl ?_
    cases e with
    | notFound what => exact absurd rfl (found what)
    | _ => rfl
  | @malformed token job h state =>
    rw [← List.append_nil (token ++ _)]
    refine events_of_answer h rfl ?_
    rw [polled?_of_malformed state]
    rfl
  | ended h hs terminal =>
    refine events_of_answer h rfl ?_
    rw [polled?_of_state hs]
    rfl
  | pending h hs terminal pause =>
    refine events_of_answer h (jobAnswers_of_pause pause _) ?_
    rw [polled?_of_state hs]
    exact events_of_pause pause _
  | exhausted h last => exact events_of_answer h rfl rfl
  | missing h more pause =>
    exact events_of_answer h (jobAnswers_of_pause pause _) (events_of_pause pause _)

/-- A wait tells what its answers call for. -/
lemma events_of_waitFrom {r : Except Stop SchedulerJob}
    (h : (waitFrom w jobId rounds left delay).Course log r) :
    Log.events log = (Log.jobAnswers log).filterMap (polled? jobId) := by
  induction rounds generalizing left delay log with
  | zero =>
    cases h
    rfl
  | succ rounds ih =>
    rcases TakesRound.of_course h with round | ⟨first, rest, left', delay', round, next, rfl⟩
    · exact round.events_eq
    · rw [Log.events_append, Log.jobAnswers_append, List.filterMap_append, round.events_eq, ih next]

/-- A round that is told of a job that has completed is the last. -/
lemma Activity.Round.ends_of_completed {next : Next} (h : Round w jobId left delay log next)
    (mem : .ok job ∈ Log.jobAnswers log) (completed : Polling.reportOf job = some "COMPLETED") :
    next = .ends (.ok job) := by
  have state : job.jobState? = some .completed :=
    Polling.jobState?_eq_some_iff.2 ⟨_, completed, by decide, by decide⟩
  -- The only answer of the round is the one that is told.
  have answered (rest : Log) {token : Log} {answer : JobAnswer} (h : ensureToken.Course token (.ok ()))
      (quiet : Log.jobAnswers rest = [])
      (mem : .ok job ∈ Log.jobAnswers (token ++ askedJob jobId answer ++ rest)) :
      answer = .ok job := by
    rw [jobAnswers_of_asked h, quiet] at mem
    exact (List.mem_singleton.1 mem).symm
  cases h with
  | untokened h =>
    rw [Polling.jobAnswers_of_ensureToken h] at mem
    cases mem
  | unanswered h unasked =>
    rw [Log.jobAnswers_append, Polling.jobAnswers_of_ensureToken h] at mem
    rcases unasked with ⟨-, rfl⟩ | ⟨o, -, rfl⟩ <;> cases mem
  | refused h found =>
    cases answered [] h rfl (by rwa [List.append_nil])
  | malformed h state' =>
    cases answered [] h rfl (by rwa [List.append_nil])
    cases state.symm.trans state'
  | ended h hs terminal =>
    cases answered _ h rfl mem
    cases state.symm.trans hs
    rfl
  | pending h hs terminal pause =>
    cases answered _ h (jobAnswers_of_pause pause _) mem
    cases state.symm.trans hs
    cases terminal
  | exhausted h last => cases answered _ h rfl mem
  | missing h more pause =>
    cases answered _ h (jobAnswers_of_pause pause _) mem

/-- A wait is told of a job that has completed just if it succeeds. -/
lemma completed_iff_of_waitFrom {r : Except Stop SchedulerJob}
    (h : (waitFrom w jobId rounds left delay).Course log r) :
    (∃ job, .ok job ∈ Log.jobAnswers log ∧ Polling.reportOf job = some "COMPLETED") ↔
      ∃ job, r = .ok job := by
  constructor
  · rintro ⟨job, mem, completed⟩
    refine ⟨job, ?_⟩
    induction rounds generalizing left delay log with
    | zero =>
      cases h
      cases mem
    | succ rounds ih =>
      rcases TakesRound.of_course h with round | ⟨first, rest, left', delay', round, next, rfl⟩
      · exact Next.ends.inj (round.ends_of_completed mem completed)
      · rw [Log.jobAnswers_append, List.mem_append] at mem
        rcases mem with now | later
        · cases round.ends_of_completed now completed
        · exact ih next later
  · rintro ⟨job, rfl⟩
    obtain ⟨last, report⟩ := Polling.of_waitFrom_ok h
    exact ⟨job, List.mem_of_getLast? last, report⟩

end StagedTransfer
