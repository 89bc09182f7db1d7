import StagedTransfer.Proofs.Token.Turn
import StagedTransfer.Transfer.Polling

/-!
# Waits that share a token

Several waits go on together and share one token cache. A wait looks at the token that is cached;
for a new one, and for the one that goes with a question for its job, it becomes a caller of the
cache. The steps of the waits and the moves of the cache are mixed in any order. What else a wait is
told comes from outside.
-/

namespace StagedTransfer

open Activity TokenCache Wire

/-- A wait among others. -/
inductive Member
  | goes (a : Activity SchedulerJob)
  /-- It waits for a new token, as a caller of the cache. -/
  | renews (caller : Nat) (next : Except TransferError Unit → Activity SchedulerJob)
  /-- It waits for the answer to a question for a job, with which the token of a caller goes. -/
  | asks (caller : Nat) (jobId : Int64)
      (next : Except TransferError SchedulerJob → Activity SchedulerJob)

/-- Waits that go on together, and the cache that they share. -/
structure Crowd where
  cache   : State
  members : List Member

/-- What happens in a crowd. -/
inductive Incident
  /-- A wait looks at the token. -/
  | look (now : Instant) (missing : Bool)
  /-- The cache makes a move. -/
  | move (m : Move)
  /-- A wait is cancelled and gives up what it waits for. -/
  | giveUp
  /-- A wait goes on in another way. -/
  | goOn

namespace Crowd

/-- Before the waits begin. -/
def start (cached : Option AccessToken) (as : List (Activity SchedulerJob)) : Crowd :=
  ⟨.holding cached, as.map .goes⟩

/-- The crowd in which a wait has come to another point. -/
def set (C : Crowd) (j : Nat) (m : Member) : Crowd :=
  { C with members := C.members.set j m }

/-- The crowd whose cache has made a move. -/
def moved (C : Crowd) (m : Move) : Crowd :=
  { C with cache := C.cache.step m }

/-- One step of a wait or one move of the cache. -/
inductive Step (C : Crowd) : Incident → Crowd → Prop
  | act {j : Nat} {a : Act} {next : a.Answer → Activity SchedulerJob}
    (member : C.members[j]? = some (.goes (.act a next))) (x : a.Answer) :
    Step C .goOn (C.set j (.goes (next x)))
  | look {j : Nat} {next : Except TransferError Bool → Activity SchedulerJob}
    (member : C.members[j]? = some (.goes (.await .tokenExpired next))) (now : Instant) :
    Step C (.look now (tokenMissing C.cache.token now))
      (C.set j (.goes (next (.ok (tokenMissing C.cache.token now)))))
  | refresh {j : Nat} {next : Except TransferError Unit → Activity SchedulerJob}
    (member : C.members[j]? = some (.goes (.await .refresh next))) :
    Step C (.move (.call .refresh))
      ((C.moved (.call .refresh)).set j (.renews C.cache.callers.length next))
  | renewed {j i : Nat} {next : Except TransferError Unit → Activity SchedulerJob} {a : Answer}
    (member : C.members[j]? = some (.renews i next)) (answer : C.cache.answer? i = some a) :
    Step C .goOn (C.set j (.goes (next ((a.map fun _ => ()).mapError .auth))))
  | ask {j : Nat} {jobId : Int64}
    {next : Except TransferError SchedulerJob → Activity SchedulerJob}
    (member : C.members[j]? = some (.goes (.await (.call (.job jobId)) next))) :
    Step C (.move (.call .current))
      ((C.moved (.call .current)).set j (.asks C.cache.callers.length jobId next))
  | answered {j i : Nat} {jobId : Int64}
    {next : Except TransferError SchedulerJob → Activity SchedulerJob} {t : Option AccessToken}
    (member : C.members[j]? = some (.asks i jobId next)) (answer : C.cache.answer? i = some (.ok t))
    (x : Except TransferError SchedulerJob) : Step C .goOn (C.set j (.goes (next x)))
  | denied {j i : Nat} {jobId : Int64}
    {next : Except TransferError SchedulerJob → Activity SchedulerJob} {e : TokenError}
    (member : C.members[j]? = some (.asks i jobId next))
    (answer : C.cache.answer? i = some (.error e)) :
    Step C .goOn (C.set j (.goes (next (.error (.auth e)))))
  | pause {j : Nat} {d : Span} {next : Except TransferError Unit → Activity SchedulerJob}
    (member : C.members[j]? = some (.goes (.await (.pause d) next)))
    (x : Except TransferError Unit) : Step C .goOn (C.set j (.goes (next x)))
  | advance (i : Nat) (now : Instant) :
    Step C (.move (.advance i now)) (C.moved (.advance i now))
  | provide (i : Nat) (r : Except TokenError AccessToken) :
    Step C (.move (.provide i r)) (C.moved (.provide i r))
  | giveUp {j : Nat} {w : Await} {next : Except TransferError w.Answer → Activity SchedulerJob}
    (member : C.members[j]? = some (.goes (.await w next))) :
    Step C .giveUp (C.set j (.goes (next (.error .cancelled))))
  | giveUpRenewal {j i : Nat} {next : Except TransferError Unit → Activity SchedulerJob}
    (member : C.members[j]? = some (.renews i next)) :
    Step C .giveUp ((C.moved (.drop i)).set j (.goes (next (.error .cancelled))))
  | giveUpQuestion {j i : Nat} {jobId : Int64}
    {next : Except TransferError SchedulerJob → Activity SchedulerJob}
    (member : C.members[j]? = some (.asks i jobId next)) :
    Step C .giveUp ((C.moved (.drop i)).set j (.goes (next (.error .cancelled))))

/-- All that happens, from one crowd to another. -/
inductive Runs : Crowd → List Incident → Crowd → Prop
  | nil (C : Crowd) : Runs C [] C
  | cons {C C' C'' : Crowd} {e : Incident} {es : List Incident} (step : Step C e C')
    (rest : Runs C' es C'') : Runs C (e :: es) C''

end Crowd

/-! ### Waits that renew a token only if need be -/

namespace Activity

/-- The activity does nothing any more. -/
def Ended (a : Activity SchedulerJob) : Prop :=
  ∃ r, a = .done r

/-- A wait asks for a new token only right after it has found none that is accepted, and it ends if
it gets none. It asks for its job only once there is a token, which is so already if `sure`. -/
inductive Careful : (sure : Bool) → Activity SchedulerJob → Prop
  | done (sure : Bool) (r : Except Stop SchedulerJob) : Careful sure (.done r)
  | act {sure : Bool} {a : Act} {next : a.Answer → Activity SchedulerJob}
    (rest : ∀ x, Careful sure (next x)) : Careful sure (.act a next)
  | look {sure : Bool} {next : Except TransferError Bool → Activity SchedulerJob}
    {renewed : Except TransferError Unit → Activity SchedulerJob}
    (failed : ∀ e, (next (.error e)).Ended) (found : Careful true (next (.ok false)))
    (missing : next (.ok true) = .await .refresh renewed)
    (failed' : ∀ e, (renewed (.error e)).Ended) (rest : Careful true (renewed (.ok ()))) :
    Careful sure (.await .tokenExpired next)
  | call {jobId : Int64} {next : Except TransferError SchedulerJob → Activity SchedulerJob}
    (rest : ∀ x, Careful true (next x)) : Careful true (.await (.call (.job jobId)) next)
  | pause {sure : Bool} {d : Span} {next : Except TransferError Unit → Activity SchedulerJob}
    (rest : ∀ x, Careful sure (next x)) : Careful sure (.await (.pause d) next)

namespace Careful

variable {sure : Bool} {a : Activity SchedulerJob}

lemma of_ended (h : a.Ended) : Careful sure a := by
  obtain ⟨r, rfl⟩ := h
  exact .done sure r

/-- A wait may go on with more certainty than it needs. -/
lemma mono (h : Careful false a) : Careful sure a := by
  cases sure with
  | false => exact h
  | true =>
    generalize unsure : false = sure at h
    induction h with
    | done _ r => exact .done true r
    | act _ ih => exact .act fun x => ih x unsure
    | look failed found missing failed' rest => exact .look failed found missing failed' rest
    | call rest => exact .call rest
    | pause _ ih => exact .pause fun x => ih x unsure

lemma ofExcept (x : Except TransferError SchedulerJob) :
    Careful sure (Activity.ofExcept x) := by
  cases x with
  | ok job => exact .done sure _
  | error e => exact .done sure _

/-- The token is made sure of. -/
lemma ensureToken_bind {f : Unit → Activity SchedulerJob} (hf : Careful true (f ())) :
    Careful sure (ensureToken >>= f) := by
  have missing : ((Activity.ofExcept (.ok true)).bind fun expired =>
      (if expired then awaiting .refresh else pure ()).bind f) =
    .await .refresh fun x => (Activity.ofExcept x).bind f := rfl
  exact .look (fun e => ⟨_, rfl⟩) hf missing (fun e => ⟨_, rfl⟩) hf

lemma question_bind {jobId : Int64} {f : Except TransferError SchedulerJob → Activity SchedulerJob}
    (hf : ∀ x, Careful true (f x)) :
    Careful true ((Activity.call (.job jobId)).attempt >>= f) := by
  refine .call fun x => ?_
  cases x with
  | ok job => exact hf (.ok job)
  | error e => exact hf (.error e)

lemma pause_bind {d : Span} {f : Unit → Activity SchedulerJob} (hf : Careful sure (f ())) :
    Careful sure (awaiting (.pause d) >>= f) := by
  refine .pause fun x => ?_
  cases x with
  | ok => exact hf
  | error e => exact .done sure _

lemma waitFrom (w : WaitPlan) (jobId : Int64) (rounds left : Nat) (delay : Span) :
    Careful sure (Activity.waitFrom w jobId rounds left delay) := by
  -- On the rounds: each makes sure of the token before its question, whatever is known before it.
  induction rounds generalizing sure left delay with
  | zero => exact .done sure _
  | succ rounds ih =>
    refine ensureToken_bind (question_bind fun answer => ?_)
    cases answer with
    | ok job =>
      cases hs : job.jobState? with
      | none => simpa only [hs] using .done true _
      | some state =>
        simp only [hs]
        refine .act fun _ => ?_
        change Careful true (if _ then _ else _)
        split
        · exact .ofExcept _
        · exact .pause_bind (ih _ _)
    | error e =>
      cases e with
      | notFound what =>
        refine .act fun _ => ?_
        change Careful true (if _ then _ else _)
        split
        · exact .done true _
        · refine .pause_bind ?_
          split
          · exact .done true _
          · exact ih _ _
      | _ => exact .done true _

end Careful

end Activity

end StagedTransfer
