import StagedTransfer.Proofs.Polling.Attempts
import StagedTransfer.Proofs.Polling.Tidings

/-!
# Questions for a job

A question for a job sends one request at most. What the diary tells of it is the answer: what the
response means, that none has come, or why there is no token to send. A wait asks once in each round
and does as the answer asks for, unless it is cancelled; of such rounds its diary is put together.
-/

namespace StagedTransfer

open Activity Http Polling Wire

/-! ### Questions for a job -/

namespace Entry

/-- What is written down while a token is made sure of. -/
@[simp]
def Readies : Entry → Prop
  | .looked _                    => True
  | .granted (.answered (.ok _)) => True
  | .awaited .tokenExpired _     => True
  | .awaited .refresh _          => True
  | _                            => False

/-- What is written down once a question has been answered or given up. -/
@[simp]
def Follows : Entry → Prop
  | .cancelled   => True
  | .awaited _ _ => True
  | _            => False

end Entry

/-- What an entry means for whoever has asked for a job. -/
inductive Yields (g : Gateway) (jobId : Int64) : Entry → Reply TransferError SchedulerJob → Prop
  | answered {t : AccessToken} {q : Request} (sent : g.jobRequest? jobId t = some q)
    (r : Response) :
    Yields g jobId (.exchanged q (.answered r)) (.answered (r.jobAnswer jobId))
  | lost {t : AccessToken} {q : Request} (sent : g.jobRequest? jobId t = some q) (reason : String) :
    Yields g jobId (.exchanged q (.lost reason)) (.fail (.http (GatewayError.http reason).message))
  | denied (e : TokenError) : Yields g jobId (.granted (.fail e)) (.fail (.auth e))
  | overrun (o : Overrun) : Yields g jobId (.granted (.overrun o)) (.overrun o)

/-- What is written down of a question for a job, what has come of it, and what is written down
after that. -/
inductive Inquires (g : Gateway) (jobId : Int64) :
    Diary → Reply TransferError SchedulerJob → Diary → Prop
  | told {before after : Diary} {x : Entry} {reply : Reply TransferError SchedulerJob}
    (ready : ∀ y ∈ before, y.Readies) (yields : Yields g jobId x reply)
    (follow : ∀ y ∈ after, y.Follows) : Inquires g jobId (before ++ x :: after) reply after
  | unsendable {before after : Diary} {t : AccessToken} (ready : ∀ y ∈ before, y.Readies)
    (unsendable : g.jobRequest? jobId t = none) (follow : ∀ y ∈ after, y.Follows) :
    Inquires g jobId (before ++ after)
      (.fail (.http (GatewayError.http "builder error").message)) after
  | cancelled {before after : Diary} (ready : ∀ y ∈ before, y.Readies) (told : .cancelled ∈ after)
    (follow : ∀ y ∈ after, y.Follows) : Inquires g jobId (before ++ after) (.fail .cancelled) after

lemma Reply.mapError_answered {ε ε' α : Type} (f : ε → ε') (x : Except ε α) :
    (answered x).mapError f = answered (x.mapError f) := by
  cases x <;> rfl

section

variable {g : Gateway} {jobId : Int64} {k k' : Option AccessToken} {D B after : Diary}
  {reply : Reply TransferError SchedulerJob}

lemma Obtains.ready {t : AccessToken} (h : Obtains k D (.ok t) k') : ∀ y ∈ D, y.Readies := by
  cases h <;> simp [Reply.ok]

lemma Secures.ready {t : AccessToken} (h : Secures k D t) : ∀ y ∈ D, y.Readies := by
  cases h <;> simp [Reply.ok]

lemma Inquires.prepend (h : Inquires g jobId B reply after) (ready : ∀ y ∈ D, y.Readies) :
    Inquires g jobId (D ++ B) reply after := by
  have both {before : Diary} (ready' : ∀ y ∈ before, y.Readies) : ∀ y ∈ D ++ before, y.Readies :=
    fun y hy => (List.mem_append.1 hy).elim (ready y) (ready' y)
  cases h with
  | told ready' yields follow =>
    rw [← List.append_assoc]
    exact .told (both ready') yields follow
  | unsendable ready' unsendable follow =>
    rw [← List.append_assoc]
    exact .unsendable (both ready') unsendable follow
  | cancelled ready' told follow =>
    rw [← List.append_assoc]
    exact .cancelled (both ready') told follow

lemma Inquires.append (h : Inquires g jobId B reply after) (follow : ∀ y ∈ D, y.Follows) :
    Inquires g jobId (B ++ D) reply (after ++ D) := by
  have both {after : Diary} (follow' : ∀ y ∈ after, y.Follows) : ∀ y ∈ after ++ D, y.Follows :=
    fun y hy => (List.mem_append.1 hy).elim (follow' y) (follow y)
  cases h with
  | told ready yields follow' =>
    rw [List.append_assoc, List.cons_append]
    exact .told ready yields (both follow')
  | unsendable ready unsendable follow' =>
    rw [List.append_assoc]
    exact .unsendable ready unsendable (both follow')
  | cancelled ready told follow' =>
    rw [List.append_assoc]
    exact .cancelled ready (List.mem_append_left D told) (both follow')

/-- A token that cannot be had leaves a question unasked. -/
lemma Yields.inquires {now : Instant} {reply' : Reply TokenError AccessToken}
    (yields : Yields g jobId (.granted reply') reply) :
    Inquires g jobId [.looked now, .granted reply'] reply [] := by
  have ready : ∀ y ∈ [Entry.looked now], y.Readies := by simp
  exact .told ready yields (by simp)

/-- A question for a job sends one request at most, with the token that is kept then. -/
lemma Performs.inquires {reply : Reply GatewayError (Call.job jobId).Answer}
    (h : Performs g (.job jobId) k D reply k') :
    Inquires g jobId D (reply.mapError .ofGateway) [] := by
  cases h with
  | unread loads => cases loads
  | @answered _ _ _ _ _ r _ loads exchanges receives =>
    -- A question for a job loads nothing and is authorized.
    cases loads
    cases exchanges with
    | plain plain => cases plain
    | authorized _ obtains sends =>
      cases sends with
      | answered sent r =>
        cases receives with
        | read _ =>
          rw [List.append_nil]
          have same := Reply.mapError_answered TransferError.ofGateway (r.firstJob jobId)
          exact same ▸ .told obtains.ready (.answered sent r) (by simp)
        | wrote elsewhere => cases elsewhere
        | unwritten elsewhere => cases elsewhere
  | failed loads exchanges =>
    cases loads
    generalize failed : Reply.fail _ = reply at exchanges
    cases exchanges with
    | plain plain => cases plain
    | authorized _ obtains sends =>
      cases sends with
      | unsendable unsendable =>
        cases failed
        exact .unsendable obtains.ready unsendable (by simp)
      | lost sent reason =>
        cases failed
        exact .told obtains.ready (.lost sent reason) (by simp)
      | answered => cases failed
    | denied _ obtains =>
      cases failed
      cases obtains with
      | denied => exact (Yields.denied _).inquires
    | overrun => cases failed
  | overrun loads exchanges =>
    cases exchanges with
    | overrun _ obtains =>
      cases obtains with
      | overrun => exact (Yields.overrun _).inquires

/-- A question for a job is given up before there is an answer or after that. -/
lemma Quits.inquires (h : Quits g (.job jobId) k D k') :
    ∃ reply after, Inquires g jobId (D ++ [.cancelled]) reply after ∧ .cancelled ∈ after := by
  have told : Entry.cancelled ∈ [Entry.cancelled] := List.mem_singleton_self _
  have follow : ∀ y ∈ [Entry.cancelled], y.Follows := by simp
  cases h with
  | exchanging loads forgoes =>
    cases loads
    cases forgoes with
    | plain plain => cases plain
    | @untold _ now _ _ reply =>
      rcases reply with (e | t) | o
      · exact ⟨_, _, (Yields.denied e).inquires.append follow, told⟩
      · have ready : ∀ y ∈ [Entry.looked now, .granted (.ok t)], y.Readies := by simp [Reply.ok]
        exact ⟨_, _, .cancelled ready told follow, told⟩
      · exact ⟨_, _, (Yields.overrun o).inquires.append follow, told⟩
    | unanswered _ obtains sent o =>
      rw [List.append_assoc]
      cases o with
      | lost reason => exact ⟨_, _, .told obtains.ready (.lost sent reason) follow, told⟩
      | answered r => exact ⟨_, _, .told obtains.ready (.answered sent r) follow, told⟩
  | writing _ _ elsewhere => cases elsewhere

/-- The answer to a question for a job is given up if the transfer has been cancelled meanwhile. -/
lemma Awaits.inquires {reply : Reply TransferError (Await.call (.job jobId)).Answer}
    (h : Awaits g (.call (.job jobId)) k D reply k') :
    ∃ reply' after, Inquires g jobId D reply' after ∧
      (reply' = reply ∨ .cancelled ∈ after ∧ reply = .fail .cancelled) := by
  cases h with
  | @call _ _ _ _ x performs =>
    have same : Reply.mapError TransferError.ofGateway (.answered x) =
      .answered (x.mapError .ofGateway) := Reply.mapError_answered _ x
    exact ⟨_, _, same ▸ performs.inquires, .inl rfl⟩
  | callOverrun performs => exact ⟨_, _, performs.inquires, .inl rfl⟩
  | callCancelled quits =>
    obtain ⟨_, _, inquires, told⟩ := quits.inquires
    exact ⟨_, _, inquires, .inr ⟨told, rfl⟩⟩

end

/-! ### Rounds -/

/-- A round of a wait asks for the job once at most and does as the answer asks for, unless it is
cancelled. -/
inductive Tries (g : Gateway) (w : WaitPlan) (jobId : Int64) (left : Nat) (delay : Span) :
    Diary → Next → Prop
  | answered {B after : Diary} {answer : JobAnswer} {next : Next}
    (inquires : Inquires g jobId B (.answered answer) after)
    (responds : Responds w jobId left delay answer next) : Tries g w jobId left delay B next
  | overrun {B after : Diary} {o : Overrun} (inquires : Inquires g jobId B (.overrun o) after) :
    Tries g w jobId left delay B (.ends (.error (.overrun o)))
  | cancelled {B after : Diary} {reply : Reply TransferError SchedulerJob}
    (inquires : Inquires g jobId B reply after) (told : .cancelled ∈ after) :
    Tries g w jobId left delay B (.ends (.error (.failed .cancelled)))

section

variable {g : Gateway} {w : WaitPlan} {jobId : Int64} {left : Nat} {delay : Span} {log last : Log}
  {k k' : Option AccessToken} {D B : Diary} {next next' : Next}

lemma Polling.Responds.of_error {e : TransferError}
    (h : Responds w jobId left delay (.error e) next) (found : ∀ what, e ≠ .notFound what) :
    next = .ends (.error (.failed e)) := by
  cases h with
  | refused => rfl
  | exhausted => exact absurd rfl (found _)
  | missing => exact absurd rfl (found _)

lemma Tries.prepend (h : Tries g w jobId left delay B next) (ready : ∀ y ∈ D, y.Readies) :
    Tries g w jobId left delay (D ++ B) next := by
  cases h with
  | answered inquires responds => exact .answered (inquires.prepend ready) responds
  | overrun inquires => exact .overrun (inquires.prepend ready)
  | cancelled inquires told => exact .cancelled (inquires.prepend ready) told

lemma Denies.tries {s : Stop} (h : Denies D (.error s)) :
    Tries g w jobId left delay D (.ends (.error s)) := by
  have ready : ∀ y ∈ ([] : Diary), y.Readies := by simp
  cases h with
  | cancelled => exact .cancelled (.cancelled ready (by simp) (by simp)) (List.mem_singleton_self _)
  | failed e =>
    exact .answered (.told ready (.denied e) (by simp)) (.refused (by simp))
  | overrun o => exact .overrun (.told ready (.overrun o) (by simp))
  | abandoned reply =>
    have told : .cancelled ∈ [Entry.cancelled, .awaited .refresh (.fail .cancelled)] := by simp
    rcases reply with (e | t) | o
    · exact .cancelled (.told ready (.denied e) (by simp)) told
    · have ready : ∀ y ∈ [Entry.granted (.answered (.ok t))], y.Readies := by simp
      exact .cancelled (.cancelled ready told (by simp)) told
    · exact .cancelled (.told ready (.overrun o) (by simp)) told

/-- The last round of a wait whose token cannot be renewed. -/
lemma Tries.of_unsecured {s : Stop} (h : Tells g k log D k')
    (course : ensureToken.Course log (.error s)) :
    Tries g w jobId left delay D (.ends (.error s)) := by
  rcases h.denies course with ⟨rfl, rfl⟩ | ⟨now, last, -, rfl, denies⟩
  · exact Denies.cancelled.tries
  · have ready : ∀ y ∈ [Entry.looked now, .awaited .tokenExpired (.ok true)], y.Readies := by simp
    exact denies.tries.prepend ready

/-- A round whose question has been answered. What is written down after that may tell of a
cancellation. -/
lemma Tries.of_answer {token : Log} {answer : JobAnswer}
    (course : ensureToken.Course token (.ok ()))
    (h : Tells g k (token ++ askedJob jobId answer ++ last) D k')
    (responds : Responds w jobId left delay answer next)
    (rest : ∀ k D, Tells g k last D k' → (∀ y ∈ D, y.Follows) ∧
      (next' = next ∨ .cancelled ∈ D ∧ next' = .ends (.error (.failed .cancelled)))) :
    Tries g w jobId left delay D next' := by
  obtain ⟨_, D₃, _, hasked, hlast, rfl⟩ := h.of_append
  obtain ⟨D₁, _, _, htoken, hasked, rfl⟩ := hasked.of_append
  obtain ⟨t, secures, rfl⟩ := htoken.secures course
  obtain ⟨follow, goesOn⟩ := rest _ _ hlast
  cases hasked with
  | notCancelled hasked =>
    obtain ⟨D₂, _, _, awaits, hnil, rfl⟩ := hasked.of_awaited
    obtain ⟨rfl, rfl⟩ := hnil.of_nil
    obtain ⟨reply, after, inquires, came⟩ := awaits.inquires
    rw [List.append_assoc, List.append_assoc]
    refine Tries.prepend ?_ secures.ready
    have follow' : ∀ y ∈ .awaited (.call (.job jobId)) (.answered answer) :: D₃, y.Follows := by
      simpa using follow
    have inquires := inquires.append follow'
    rcases goesOn with rfl | ⟨told, rfl⟩
    · rcases came with rfl | ⟨told, ⟨rfl⟩⟩
      · exact .answered inquires responds
      · obtain rfl := responds.of_error (by simp)
        exact .cancelled inquires (List.mem_append_left _ told)
    · exact .cancelled inquires (by simp [told])

/-- What is written down of a pause. -/
lemma Tells.of_pause {e : Event} {d : Span} {x : Except Stop Unit} (waits : Waits (.pause d) last x)
    (h : Tells g k (.acted (.emit e) () :: last) D k') :
    (∀ y ∈ D, y.Follows) ∧ (x = .ok () ∨ .cancelled ∈ D ∧ x = .error (.failed .cancelled)) := by
  cases h with
  | acted _ _ rest =>
    rcases rest.of_waits waits with ⟨rfl, -, rfl⟩ | ⟨_, _, awaits, rfl, rfl⟩
    · exact ⟨by simp, .inr ⟨by simp, rfl⟩⟩
    · cases awaits with
      | pause d k => exact ⟨by simp, .inl rfl⟩
      | pauseCancelled d k => exact ⟨by simp, .inr ⟨by simp, rfl⟩⟩

/-- Every round of a wait is such a round. -/
lemma Tries.of_round (round : Round w jobId left delay log next) (h : Tells g k log D k') :
    Tries g w jobId left delay D next := by
  -- Whichever way a round goes on, what follows its answer only tells and pauses.
  have silent : ∀ k D, Tells g k [] D k' → ∀ y ∈ D, y.Follows := by
    intro k D h
    obtain ⟨rfl, -⟩ := h.of_nil
    simp
  have emitted (e : Event) : ∀ k D, Tells g k [.acted (.emit e) ()] D k' → ∀ y ∈ D, y.Follows := by
    intro k D h
    cases h with
    | acted _ _ rest => exact silent _ _ rest
  have paused {e : Event} {d : Span} {last : Log} {x : Except Stop Unit} (next : Next)
      (waits : Waits (.pause d) last x) : ∀ k D, Tells g k (.acted (.emit e) () :: last) D k' →
        (∀ y ∈ D, y.Follows) ∧ (next.after x = next ∨
          .cancelled ∈ D ∧ next.after x = .ends (.error (.failed .cancelled))) := by
    intro k D h
    obtain ⟨follow, rfl | ⟨told, rfl⟩⟩ := h.of_pause waits
    · exact ⟨follow, .inl rfl⟩
    · exact ⟨follow, .inr ⟨told, rfl⟩⟩
  cases round with
  | untokened course => exact .of_unsecured h course
  | unanswered course unasked =>
    obtain ⟨D₁, D₂, _, htoken, hasked, rfl⟩ := h.of_append
    obtain ⟨t, secures, rfl⟩ := htoken.secures course
    refine Tries.prepend ?_ secures.ready
    rcases unasked with ⟨rfl, rfl⟩ | ⟨o, rfl, rfl⟩
    · cases hasked with
      | cancelled rest =>
        obtain ⟨rfl, -⟩ := rest.of_nil
        exact Denies.cancelled.tries
    · cases hasked with
      | notCancelled hasked =>
        obtain ⟨_, _, _, awaits, rest, rfl⟩ := hasked.of_awaited
        obtain ⟨rfl, -⟩ := rest.of_nil
        obtain ⟨reply, after, inquires, rfl | ⟨-, ⟨⟩⟩⟩ := awaits.inquires
        have follow : ∀ y ∈ [Entry.awaited (.call (.job jobId)) (.overrun o)], y.Follows := by simp
        exact .overrun (inquires.append follow)
  | refused course found =>
    rw [← List.append_nil (_ ++ _)] at h
    exact .of_answer course h (.refused found) fun k D h => ⟨silent k D h, .inl rfl⟩
  | malformed course state =>
    rw [← List.append_nil (_ ++ _)] at h
    exact .of_answer course h (.malformed state) fun k D h => ⟨silent k D h, .inl rfl⟩
  | ended course hs terminal =>
    exact .of_answer course h (.ended hs terminal) fun k D h => ⟨emitted _ k D h, .inl rfl⟩
  | pending course hs terminal waits =>
    exact .of_answer course h (.pending hs terminal) (paused _ waits)
  | exhausted course few =>
    exact .of_answer course h (.exhausted few) fun k D h => ⟨emitted _ k D h, .inl rfl⟩
  | missing course more waits =>
    exact .of_answer course h (.missing more) (paused _ waits)

end

/-! ### Waits -/

/-- The diary of a wait of at most `rounds` rounds, and what the wait comes to. -/
inductive Pursues (g : Gateway) (w : WaitPlan) (jobId : Int64) :
    (rounds left : Nat) → Span → Diary → Except Stop SchedulerJob → Prop
  | unfinished (left : Nat) (delay : Span) :
    Pursues g w jobId 0 left delay [] (.error .unfinished)
  | ends {rounds left : Nat} {delay : Span} {B : Diary} {x : Except Stop SchedulerJob}
    (tries : Tries g w jobId left delay B (.ends x)) : Pursues g w jobId (rounds + 1) left delay B x
  | goesOn {rounds left left' : Nat} {delay delay' : Span} {B D : Diary}
    {x : Except Stop SchedulerJob} (tries : Tries g w jobId left delay B (.goesOn left' delay'))
    (rest : Pursues g w jobId rounds left' delay' D x) :
    Pursues g w jobId (rounds + 1) left delay (B ++ D) x

section

variable {g : Gateway} {w : WaitPlan} {jobId : Int64} {rounds left : Nat} {delay : Span} {log : Log}
  {k k' : Option AccessToken} {D : Diary} {x : Except Stop SchedulerJob}

lemma Pursues.of_waitFrom (course : (waitFrom w jobId rounds left delay).Course log x)
    (h : Tells g k log D k') : Pursues g w jobId rounds left delay D x := by
  induction rounds generalizing left delay log k D with
  | zero =>
    cases course
    obtain ⟨rfl, -⟩ := h.of_nil
    exact .unfinished left delay
  | succ rounds ih =>
    rcases TakesRound.of_course course with round | ⟨first, rest, left', delay', round, next, rfl⟩
    · exact .ends (.of_round round h)
    · obtain ⟨D₁, D₂, k'', hfirst, hrest, rfl⟩ := h.of_append
      exact .goesOn (.of_round round hfirst) (ih next hrest)

end

end StagedTransfer
