import StagedTransfer.Proofs.Polling.Inquiry

/-!
# Jobs that are not found

A wait asks for its job once more after a response that does not show the job, as often as it may,
and after no other failure: that ends the wait, be it one of the request or of the access token.
-/

namespace StagedTransfer

open Activity Http Polling Wire

/-! ### What a diary of a wait tells -/

namespace Entry

/-- A question for a job has gone out. -/
def isExchanged : Entry → Bool
  | .exchanged _ _ => true
  | _              => false

/-- The entry tells of a response that lacks the job. -/
def lacksJob : Entry → Bool
  | .exchanged _ (.answered r) => r.LacksJob
  | _                          => false

def jobAnswer? (jobId : Int64) : Entry → Option JobAnswer
  | .exchanged _ (.answered r) => some (r.jobAnswer jobId)
  | _                          => none

end Entry

namespace Diary

/-- How often the job has been lacking. -/
def lacking (D : Diary) : Nat :=
  D.countP Entry.lacksJob

/-- The answers for a job, in order. -/
def jobAnswers (jobId : Int64) (D : Diary) : List JobAnswer :=
  D.filterMap (Entry.jobAnswer? jobId)

end Diary

/-- What ends a wait after a response that lacks the job, though it may be asked for once more. The
diary tells of `seen` up to that response, and of `D` after it. -/
inductive Interrupts (g : Gateway) (w : WaitPlan) (jobId : Int64) (seen D : Diary) : Stop → Prop
  | cancelled (told : .cancelled ∈ D) : Interrupts g w jobId seen D (.failed .cancelled)
  | denied {e : TokenError} (denied : .granted (.fail e) ∈ D) :
    Interrupts g w jobId seen D (.failed (.auth e))
  | untold {o : Overrun} (untold : .granted (.overrun o) ∈ D) :
    Interrupts g w jobId seen D (.overrun o)
  | unsendable {t : AccessToken} (unsendable : g.jobRequest? jobId t = none) :
    Interrupts g w jobId seen D (.failed (.http (GatewayError.http "builder error").message))
  | endless (endless : pauseAfter w (seen.jobAnswers jobId) = none) :
    Interrupts g w jobId seen D (.overrun .pause)
  | unfinished : Interrupts g w jobId seen D .unfinished

/-- Nothing more is asked for, and the wait ends with an error, unless it is cancelled before. -/
def EndsWith (D : Diary) (e : TransferError) (x : Except Stop SchedulerJob) : Prop :=
  (∀ q o, .exchanged q o ∉ D) ∧
    (x = .error (.failed e) ∨ .cancelled ∈ D ∧ x = .error (.failed .cancelled))

/-- What a diary of a wait of at most `rounds` rounds tells of its questions, and what the wait
comes to. -/
structure Retries (g : Gateway) (w : WaitPlan) (jobId : Int64) (rounds : Nat) (D : Diary)
    (x : Except Stop SchedulerJob) : Prop where
  /-- Nothing but the job is asked for. -/
  sent : ∀ q o, .exchanged q o ∈ D → ∃ t, g.jobRequest? jobId t = some q
  /-- After a response that lacks the job it is asked for once more, ... -/
  missing : ∀ (before : Diary) q r after, D = before ++ .exchanged q (.answered r) :: after →
    r.LacksJob → before.lacking + 1 < w.attempts.toNat →
      (∃ q o, .exchanged q o ∈ after) ∨
        ∃ s, Interrupts g w jobId (before ++ [.exchanged q (.answered r)]) after s ∧ x = .error s
  /-- ... unless it has been lacking too often. -/
  exhausted : ∀ (before : Diary) q r after, D = before ++ .exchanged q (.answered r) :: after →
    r.LacksJob → w.attempts.toNat ≤ before.lacking + 1 →
      EndsWith after (.notFoundExhausted jobId w.attempts) x
  /-- Any other failure ends the wait. -/
  failed : ∀ before y after e, D = before ++ y :: after → y.lacksJob = false →
    Yields g jobId y (.fail e) → EndsWith after e x
  /-- A wait is left off only after all its rounds. -/
  unfinished : x = .error .unfinished → D.countP Entry.isExchanged = rounds

/-! #### Entries of a round -/

section

variable {g : Gateway} {w : WaitPlan} {jobId : Int64} {left : Nat} {delay : Span}
  {D B here between after : Diary} {y : Entry} {next : Next}
  {reply reply' : Reply TransferError SchedulerJob}

/-- Around a question nothing is told of the job. -/
lemma Entry.isExchanged_of_around (h : y.Readies ∨ y.Follows) : y.isExchanged = false := by
  cases y <;> simp_all [isExchanged]

lemma Diary.jobAnswers_append :
    jobAnswers jobId (D ++ B) = jobAnswers jobId D ++ jobAnswers jobId B :=
  List.filterMap_append

lemma Diary.jobAnswers_of_not_isExchanged (h : ∀ y ∈ D, y.isExchanged = false) :
    jobAnswers jobId D = [] := by
  rw [jobAnswers, List.filterMap_eq_nil_iff]
  intro y hy
  have := h y hy
  cases y <;> first | rfl | cases this

/-- The job is lacking as often as it is told to be not found. -/
lemma Diary.missing_jobAnswers (jobId : Int64) (D : Diary) :
    Polling.missing (jobAnswers jobId D) = lacking D := by
  have same (y : Entry) : ((y.jobAnswer? jobId).map isMissing).getD false = y.lacksJob := by
    cases y with
    | exchanged q o =>
      cases o with
      | answered r => exact r.isMissing_jobAnswer jobId
      | lost => rfl
    | _ => rfl
  rw [Polling.missing, jobAnswers, List.countP_filterMap, lacking]
  exact List.countP_congr fun y _ => by rw [same]

lemma Yields.unready (h : Yields g jobId y reply) : ¬y.Readies ∧ ¬y.Follows := by
  cases h <;> simp [Reply.fail]

lemma Yields.unique (h : Yields g jobId y reply) (h' : Yields g jobId y reply') :
    reply = reply' := by
  cases h <;> cases h' <;> rfl

lemma Inquires.of_split (h : Inquires g jobId B reply after) (split : B = here ++ y :: between)
    (unready : ¬y.Readies) (unfollowing : ¬y.Follows) :
    Yields g jobId y reply ∧ between = after ∧ (∀ z ∈ here, z.Readies) ∧
      ∀ z ∈ between, z.Follows := by
  cases h with
  | told ready yields follow =>
    obtain ⟨rfl, rfl, rfl⟩ := Diary.eq_of_split _ split (fun mem => unready (ready y mem))
      (fun mem => unfollowing (follow y mem))
    exact ⟨yields, rfl, ready, follow⟩
  | unsendable ready _ follow =>
    have mem : y ∈ _ ++ after := split ▸ List.mem_append_right here (List.mem_cons_self ..)
    exact ((List.mem_append.1 mem).elim (unready ∘ ready y) (unfollowing ∘ follow y)).elim
  | cancelled ready _ follow =>
    have mem : y ∈ _ ++ after := split ▸ List.mem_append_right here (List.mem_cons_self ..)
    exact ((List.mem_append.1 mem).elim (unready ∘ ready y) (unfollowing ∘ follow y)).elim

lemma Tries.inquires (h : Tries g w jobId left delay B next) :
    ∃ reply after, Inquires g jobId B reply after := by
  cases h with
  | answered inquires _ => exact ⟨_, _, inquires⟩
  | overrun inquires => exact ⟨_, _, inquires⟩
  | cancelled inquires _ => exact ⟨_, _, inquires⟩

/-- A round does as the answer asks for that it is given. -/
lemma Tries.of_yields {answer : JobAnswer} (h : Tries g w jobId left delay B next)
    (split : B = here ++ y :: between) (yields : Yields g jobId y (.answered answer)) :
    Responds w jobId left delay answer next ∨
      .cancelled ∈ between ∧ next = .ends (.error (.failed .cancelled)) := by
  obtain ⟨unready, unfollowing⟩ := yields.unready
  cases h with
  | answered inquires responds =>
    obtain ⟨yields', -⟩ := inquires.of_split split unready unfollowing
    obtain rfl := Reply.answered.inj (yields.unique yields')
    exact .inl responds
  | overrun inquires =>
    obtain ⟨yields', -⟩ := inquires.of_split split unready unfollowing
    cases yields.unique yields'
  | cancelled inquires told =>
    obtain ⟨-, rfl, -⟩ := inquires.of_split split unready unfollowing
    exact .inr ⟨told, rfl⟩

/-- A wait goes on after no other error than that the job is not found. -/
lemma Polling.Responds.of_goesOn {e : TransferError} {left' : Nat} {delay' : Span}
    (h : Responds w jobId left delay (.error e) (.goesOn left' delay')) :
    ∃ what, e = .notFound what := by
  generalize hn : Next.goesOn left' delay' = next at h
  cases h with
  | missing => exact ⟨_, rfl⟩
  | _ => cases hn

/-- A wait goes on only after a response. -/
lemma Tries.of_goesOn {left' : Nat} {delay' : Span}
    (h : Tries g w jobId left delay B (.goesOn left' delay')) :
    ∃ before q r after, B = before ++ .exchanged q (.answered r) :: after ∧
      (∀ y ∈ before, y.Readies) ∧ (∀ y ∈ after, y.Follows) ∧
      Responds w jobId left delay (r.jobAnswer jobId) (.goesOn left' delay') := by
  generalize hn : Next.goesOn left' delay' = next at h
  cases h with
  | answered inquires responds =>
    subst hn
    cases inquires with
    | told ready yields follow =>
      cases yields with
      | answered sent r => exact ⟨_, _, r, _, rfl, ready, follow, responds⟩
      | lost => exact nomatch responds.of_goesOn
      | denied => exact nomatch responds.of_goesOn
    | unsendable => exact nomatch responds.of_goesOn
    | cancelled => exact nomatch responds.of_goesOn
  | overrun => cases hn
  | cancelled => cases hn

lemma Diary.jobAnswers_of_response {q : Request} {r : Response} (ready : ∀ y ∈ D, y.Readies)
    (follow : ∀ y ∈ B, y.Follows) :
    jobAnswers jobId (D ++ .exchanged q (.answered r) :: B) = [r.jobAnswer jobId] := by
  have nothing : jobAnswers jobId D = [] :=
    jobAnswers_of_not_isExchanged fun y hy => Entry.isExchanged_of_around (.inl (ready y hy))
  have nothing' : jobAnswers jobId B = [] :=
    jobAnswers_of_not_isExchanged fun y hy => Entry.isExchanged_of_around (.inr (follow y hy))
  rw [jobAnswers_append, nothing, List.nil_append]
  change _ :: jobAnswers jobId B = _
  rw [nothing']

lemma Inquires.subset (h : Inquires g jobId B reply after) : after ⊆ B := by
  intro y hy
  cases h <;> simp [hy]

lemma Interrupts.mono {seen : Diary} {s : Stop} (h : Interrupts g w jobId seen D s) (sub : D ⊆ B) :
    Interrupts g w jobId seen B s := by
  cases h with
  | cancelled told => exact .cancelled (sub told)
  | denied denied => exact .denied (sub denied)
  | untold untold => exact .untold (sub untold)
  | unsendable unsendable => exact .unsendable unsendable
  | endless endless => exact .endless endless
  | unfinished => exact .unfinished

/-- A round asks for the job, or something ends it. -/
lemma Tries.asks (h : Tries g w jobId left delay B next) (seen : Diary) :
    (∃ q o, .exchanged q o ∈ B) ∨
      ∃ s, Interrupts g w jobId seen B s ∧ next = .ends (.error s) := by
  cases h with
  | answered inquires responds =>
    cases inquires with
    | told ready yields follow =>
      cases yields with
      | answered => exact .inl ⟨_, _, List.mem_append_right _ (List.mem_cons_self ..)⟩
      | lost => exact .inl ⟨_, _, List.mem_append_right _ (List.mem_cons_self ..)⟩
      | denied e => exact .inr ⟨_, .denied (by simp), responds.of_error (by simp)⟩
    | unsendable _ unsendable =>
      exact .inr ⟨_, .unsendable unsendable, responds.of_error (by simp)⟩
    | cancelled _ told => exact .inr ⟨_, .cancelled (by simp [told]), responds.of_error (by simp)⟩
  | overrun inquires =>
    cases inquires with
    | told _ yields =>
      cases yields with
      | overrun o => exact .inr ⟨_, .untold (by simp), rfl⟩
  | cancelled inquires told => exact .inr ⟨_, .cancelled (inquires.subset told), rfl⟩

lemma Polling.Responds.finished {answer : JobAnswer} {x : Except Stop SchedulerJob}
    (h : Responds w jobId left delay answer (.ends x)) : x ≠ .error .unfinished := by
  generalize hn : Next.ends x = next at h
  cases h with
  | @ended job state =>
    obtain rfl := Next.ends.inj hn
    cases concluded jobId state job <;> simp [Except.mapError]
  | missing =>
    rw [Next.missing] at hn
    split at hn
    · obtain rfl := Next.ends.inj hn
      simp
    · cases hn
  | pending => cases hn
  | _ =>
    obtain rfl := Next.ends.inj hn
    simp

lemma Tries.finished {x : Except Stop SchedulerJob} (h : Tries g w jobId left delay B (.ends x)) :
    x ≠ .error .unfinished := by
  generalize hn : Next.ends x = next at h
  cases h with
  | answered _ responds =>
    subst hn
    exact responds.finished
  | overrun =>
    obtain rfl := Next.ends.inj hn
    simp
  | cancelled =>
    obtain rfl := Next.ends.inj hn
    simp

end

/-! #### Rounds, taken together -/

/-- A wait ends as a round leads to, or goes on from there with the rest of its diary. -/
inductive Continues (g : Gateway) (w : WaitPlan) (jobId : Int64) (x : Except Stop SchedulerJob) :
    Next → Diary → Prop
  | ends : Continues g w jobId x (.ends x) []
  | goesOn {rounds left : Nat} {delay : Span} {D : Diary}
    (rest : Pursues g w jobId rounds left delay D x) : Continues g w jobId x (.goesOn left delay) D

section

variable {g : Gateway} {w : WaitPlan} {jobId : Int64} {rounds left : Nat} {delay : Span}
  {D before after : Diary} {y : Entry} {x : Except Stop SchedulerJob}

namespace Pursues

/-- An entry of a diary stands in a round. -/
lemma try_of_split {seen : List JobAnswer} (h : Pursues g w jobId rounds left delay D x)
    (waiting : Waiting w jobId seen left delay) (split : D = before ++ y :: after) :
    ∃ head here between rest left' delay' next, before = head ++ here ∧ after = between ++ rest ∧
      Waiting w jobId (seen ++ Diary.jobAnswers jobId head) left' delay' ∧
      Tries g w jobId left' delay' (here ++ y :: between) next ∧
      Continues g w jobId x next rest := by
  induction h generalizing before seen with
  | unfinished => simp at split
  | ends tries =>
    subst split
    exact ⟨[], before, after, [], _, _, _, rfl, (List.append_nil _).symm,
      by simpa [Diary.jobAnswers] using waiting, tries, .ends⟩
  | goesOn tries rest ih =>
    rcases Diary.append_split split with ⟨here, rfl, tail⟩ | ⟨between, rfl, rfl⟩
    · obtain ⟨first, q, r, last, rfl, ready, follow, responds⟩ := tries.of_goesOn
      obtain ⟨head, here, between, rest, left'', delay'', next, rfl, rfl, waiting', later⟩ :=
        ih (waiting.goesOn responds) tail
      refine ⟨_ ++ head, here, between, rest, _, _, _, (List.append_assoc ..).symm, rfl, ?_, later⟩
      rwa [Diary.jobAnswers_append, Diary.jobAnswers_of_response ready follow,
        ← List.append_assoc]
    · exact ⟨[], before, between, _, _, _, _, rfl, rfl, by simpa [Diary.jobAnswers] using waiting,
        tries, .goesOn rest⟩

/-- A wait asks for the job, or something ends it. -/
lemma asks (h : Pursues g w jobId rounds left delay D x) (seen : Diary) :
    (∃ q o, .exchanged q o ∈ D) ∨ ∃ s, Interrupts g w jobId seen D s ∧ x = .error s := by
  cases h with
  | unfinished => exact .inr ⟨_, .unfinished, rfl⟩
  | ends tries =>
    refine (tries.asks seen).imp_right ?_
    rintro ⟨s, interrupts, ⟨rfl⟩⟩
    exact ⟨s, interrupts, rfl⟩
  | goesOn tries =>
    obtain ⟨first, q, r, last, rfl, -⟩ := tries.of_goesOn
    exact .inl ⟨q, .answered r, by simp⟩

lemma countP_isExchanged (h : Pursues g w jobId rounds left delay D x)
    (unfinished : x = .error .unfinished) : D.countP Entry.isExchanged = rounds := by
  induction h with
  | unfinished => rfl
  | ends tries => exact absurd unfinished tries.finished
  | goesOn tries _ ih =>
    obtain ⟨first, q, r, last, rfl, ready, follow, -⟩ := tries.of_goesOn
    have nothing : first.countP Entry.isExchanged = 0 := List.countP_eq_zero.2 fun y hy => by
      simp [Entry.isExchanged_of_around (.inl (ready y hy))]
    have nothing' : last.countP Entry.isExchanged = 0 := List.countP_eq_zero.2 fun y hy => by
      simp [Entry.isExchanged_of_around (.inr (follow y hy))]
    rw [List.countP_append, List.countP_append, List.countP_cons, nothing, nothing', ih unfinished]
    simp [Entry.isExchanged, Nat.add_comm]

/-- Every question is one for the job. -/
lemma sent {q : Request} {o : Outcome}
    (h : Pursues g w jobId rounds w.attempts.toNat w.interval D x) (mem : .exchanged q o ∈ D) :
    ∃ t, g.jobRequest? jobId t = some q := by
  obtain ⟨before, after, split⟩ := List.append_of_mem mem
  obtain ⟨head, here, between, rest, _, _, next, rfl, rfl, -, tries, -⟩ :=
    h.try_of_split (.start w jobId) split
  obtain ⟨reply, after, inquires⟩ := tries.inquires
  obtain ⟨yields, -⟩ := inquires.of_split rfl (by simp) (by simp)
  cases yields with
  | answered sent => exact ⟨_, sent⟩
  | lost sent => exact ⟨_, sent⟩

/-- After an answer a wait does as the answer asks for, unless it is cancelled. -/
lemma responds_of_split {answer : JobAnswer}
    (h : Pursues g w jobId rounds w.attempts.toNat w.interval D x)
    (split : D = before ++ y :: after) (yields : Yields g jobId y (.answered answer)) :
    (∀ q o, .exchanged q o ∉ after) ∧ .cancelled ∈ after ∧ x = .error (.failed .cancelled) ∨
      ∃ left delay between rest next, after = between ++ rest ∧
        (∀ q o, .exchanged q o ∉ between) ∧ left + Diary.lacking before = w.attempts.toNat ∧
        pauseAfter w (Diary.jobAnswers jobId before) = some delay ∧
        Responds w jobId left delay answer next ∧ Continues g w jobId x next rest := by
  obtain ⟨unready, unfollowing⟩ := yields.unready
  obtain ⟨head, here, between, rest, left, delay, next, rfl, rfl, waiting, tries, continues⟩ :=
    h.try_of_split (.start w jobId) split
  obtain ⟨reply, after, inquires⟩ := tries.inquires
  obtain ⟨-, rfl, ready, follow⟩ := inquires.of_split rfl unready unfollowing
  have outside (q : Request) (o : Outcome) : .exchanged q o ∉ between := fun mem => follow _ mem
  rcases tries.of_yields rfl yields with responds | ⟨told, rfl⟩
  · have same : Diary.jobAnswers jobId (head ++ here) = Diary.jobAnswers jobId head := by
      rw [Diary.jobAnswers_append, Diary.jobAnswers_of_not_isExchanged fun y hy =>
        Entry.isExchanged_of_around (.inl (ready y hy)), List.append_nil]
    rw [List.nil_append, ← same] at waiting
    refine .inr ⟨left, delay, between, rest, next, rfl, outside, ?_, waiting.pause, responds,
      continues⟩
    rw [← Diary.missing_jobAnswers jobId]
    exact waiting.left
  · cases continues
    rw [List.append_nil]
    exact .inl ⟨outside, told, rfl⟩

/-- An error other than that the job is not found ends a wait. -/
lemma ends_of_fail {e : TransferError}
    (h : Pursues g w jobId rounds w.attempts.toNat w.interval D x)
    (split : D = before ++ y :: after) (yields : Yields g jobId y (.fail e))
    (found : ∀ what, e ≠ .notFound what) : EndsWith after e x := by
  rcases h.responds_of_split split yields with ⟨outside, cancelled⟩ |
    ⟨left, delay, between, rest, next, rfl, outside, -, -, responds, continues⟩
  · exact ⟨outside, .inr cancelled⟩
  · obtain rfl := responds.of_error found
    cases continues
    rw [List.append_nil]
    exact ⟨outside, .inl rfl⟩

/-- A response that lacks the job. -/
lemma yields_of_lacksJob {q : Request} {r : Response}
    (h : Pursues g w jobId rounds w.attempts.toNat w.interval D x)
    (split : D = before ++ .exchanged q (.answered r) :: after) (lacks : r.LacksJob) :
    ∃ what, r.jobAnswer jobId = .error (.notFound what) ∧
      Yields g jobId (.exchanged q (.answered r)) (.fail (.notFound what)) := by
  have mem : .exchanged q (.answered r) ∈ D := by simp [split]
  obtain ⟨t, sent⟩ := h.sent mem
  obtain ⟨what, answer⟩ := (r.jobAnswer_notFound_iff jobId).2 lacks
  have yields : Yields g jobId _ (.answered (r.jobAnswer jobId)) := .answered sent r
  rw [answer] at yields
  exact ⟨what, answer, yields⟩

lemma missing_of_lacksJob {q : Request} {r : Response}
    (h : Pursues g w jobId rounds w.attempts.toNat w.interval D x)
    (split : D = before ++ .exchanged q (.answered r) :: after) (lacks : r.LacksJob)
    (more : Diary.lacking before + 1 < w.attempts.toNat) :
    (∃ q o, .exchanged q o ∈ after) ∨
      ∃ s, Interrupts g w jobId (before ++ [.exchanged q (.answered r)]) after s ∧
        x = .error s := by
  obtain ⟨what, answer, yields⟩ := h.yields_of_lacksJob split lacks
  rcases h.responds_of_split split yields with ⟨-, told, rfl⟩ |
    ⟨left, delay, between, rest, next, rfl, -, left', pause, responds, continues⟩
  · exact .inr ⟨_, .cancelled told, rfl⟩
  cases responds with
  | refused found => exact absurd rfl (found what)
  | exhausted few => omega
  | missing =>
    cases hd : w.nextDelay? delay with
    | none =>
      rw [Next.missing, hd] at continues
      cases continues
      refine .inr ⟨_, .endless ?_, rfl⟩
      rw [Diary.jobAnswers_append]
      change pauseAfter w (_ ++ [r.jobAnswer jobId]) = none
      rw [answer, pauseAfter_concat, pause]
      exact hd
    | some d =>
      rw [Next.missing, hd] at continues
      cases continues with
      | goesOn rest =>
        rcases rest.asks (before ++ [.exchanged q (.answered r)]) with
          ⟨q', o, asked⟩ | ⟨s, interrupts, rfl⟩
        · exact .inl ⟨q', o, List.mem_append_right _ asked⟩
        · exact .inr ⟨s, interrupts.mono (List.subset_append_right _ _), rfl⟩

lemma exhausted_of_lacksJob {q : Request} {r : Response}
    (h : Pursues g w jobId rounds w.attempts.toNat w.interval D x)
    (split : D = before ++ .exchanged q (.answered r) :: after) (lacks : r.LacksJob)
    (few : w.attempts.toNat ≤ Diary.lacking before + 1) :
    EndsWith after (.notFoundExhausted jobId w.attempts) x := by
  obtain ⟨what, -, yields⟩ := h.yields_of_lacksJob split lacks
  rcases h.responds_of_split split yields with ⟨outside, cancelled⟩ |
    ⟨left, delay, between, rest, next, rfl, outside, left', -, responds, continues⟩
  · exact ⟨outside, .inr cancelled⟩
  cases responds with
  | refused found => exact absurd rfl (found what)
  | exhausted =>
    cases continues
    rw [List.append_nil]
    exact ⟨outside, .inl rfl⟩
  | missing more => omega

end Pursues

lemma Yields.found {e : TransferError} (h : Yields g jobId y (.fail e)) (lacks : y.lacksJob = false)
    (what : String) : e ≠ .notFound what := by
  rintro rfl
  generalize failed : Reply.fail _ = reply at h
  cases h with
  | answered sent r =>
    have lacks' := (r.jobAnswer_notFound_iff jobId).1 ⟨what, (Reply.answered.inj failed).symm⟩
    exact of_decide_eq_false lacks lacks'
  | _ => cases failed

/-- The rounds of a wait, taken together. -/
lemma Pursues.retries (h : Pursues g w jobId rounds w.attempts.toNat w.interval D x) :
    Retries g w jobId rounds D x where
  sent _ _                   := h.sent
  missing _ _ _ _            := h.missing_of_lacksJob
  exhausted _ _ _ _          := h.exhausted_of_lacksJob
  failed _ _ _ _ split lacks yields := h.ends_of_fail split yields (yields.found lacks)
  unfinished                 := h.countP_isExchanged

end

/-- What the token endpoint answers without success is no token, whatever the answer holds. -/
lemma AccessToken.ofResponse_of_not_isSuccess {r : Response} (failure : r.isSuccess = false)
    (now : Instant) : ofResponse r now = .fail (.endpoint r.status r.report) := by
  rw [ofResponse, failure]
  rfl

namespace Activity

/-- What comes of a question for a job is told by the diary of the session. -/
lemma inquires_call {S : Type} (c : Client (StateM S)) (jobId : Int64) (v : Session) (s : S) :
    ∃ reply after, Inquires c.gateway jobId (c.diary (call (.job jobId)) v s) reply after ∧
      ((c.run (call (.job jobId)) v s).1.1 = reply.ended ∨
        .cancelled ∈ after ∧
          (c.run (call (.job jobId)) v s).1.1 = .error (.failed .cancelled)) := by
  obtain ⟨log, k, course, tells⟩ := c.tells (call (.job jobId)) v s
  have ready : ∀ y ∈ ([] : Diary), y.Readies := by simp
  rcases tells.of_waits (Course.of_call course) with
    ⟨written, -, cancelled⟩ | ⟨D, reply, awaits, written, ended⟩
  · rw [written, cancelled]
    exact ⟨_, _, .cancelled ready (List.mem_singleton_self _) (by simp), .inl rfl⟩
  · rw [written, ended]
    have follow : ∀ y ∈ [Entry.awaited (.call (.job jobId)) reply], y.Follows := by simp
    obtain ⟨reply', after, inquires, rfl | ⟨told, rfl⟩⟩ := awaits.inquires
    · exact ⟨_, _, inquires.append follow, .inl rfl⟩
    · exact ⟨_, _, inquires.append follow, .inr ⟨List.mem_append_left _ told, rfl⟩⟩

/-- A job is told as not found for the responses that lack it and for no others; a token that cannot
be had, be it that the endpoint has not found anything, is told as such. A wait asks once more after
the responses that lack its job, and ends with any other failure. -/
theorem waitForJob_retries {S : Type} (c : Client (StateM S)) (w : WaitPlan) (rounds : Nat)
    (jobId : Int64) (v : Session) (s : S) :
    (∀ r : Response, Tidings jobId r (r.jobAnswer jobId) ∧
      ((∃ what, r.jobAnswer jobId = .error (.notFound what)) ↔ r.LacksJob)) ∧
    (∀ r now, r.isSuccess = false →
      AccessToken.ofResponse r now = .fail (.endpoint r.status r.report)) ∧
    (∃ reply after, Inquires c.gateway jobId (c.diary (call (.job jobId)) v s) reply after ∧
      ((c.run (call (.job jobId)) v s).1.1 = reply.ended ∨
        .cancelled ∈ after ∧ (c.run (call (.job jobId)) v s).1.1 = .error (.failed .cancelled))) ∧
    Retries c.gateway w jobId rounds (c.diary (waitForJob w rounds jobId) v s)
      (c.run (waitForJob w rounds jobId) v s).1.1 := by
  refine ⟨fun r => ⟨r.tidings_jobAnswer jobId, r.jobAnswer_notFound_iff jobId⟩,
    fun r now failure => AccessToken.ofResponse_of_not_isSuccess failure now,
    inquires_call c jobId v s, ?_⟩
  obtain ⟨log, k, course, tells⟩ := c.tells (waitForJob w rounds jobId) v s
  exact (Pursues.of_waitFrom course tells).retries

/-! ### A job that is forgotten -/

/-- A client at a gateway that knows nothing of a job at first, then lists no jobs, and fails in the
end. -/
def forgotten : Client (StateM Nat) where
  around :=
    { exchange  := fun _ => do
        let asked ← get
        set (asked + 1)
        match asked with
        | 0 => return .answered ⟨404, [], Utf8.encode "no such job", true⟩
        | 1 => return .answered ⟨200, [], Utf8.encode "\x7b\"jobs\": []\x7d", true⟩
        | _ => return .answered ⟨500, [], Utf8.encode "no space left", true⟩
      now       := pure ⟨0⟩
      pause     := fun _ => pure ()
      cancelled := pure false
      size      := fun _ => pure (.error .earlyEnd)
      content   := fun _ => pure (.error .earlyEnd)
      write     := fun _ _ => pure (.error .earlyEnd)
      prefer    := pure 0
      listen    := fun _ => pure ()
      enter     := fun _ => pure () }
  gateway := ⟨"http://gateway", "cluster", 0⟩
  source  := pure (.ok ⟨"t", ⟨10⟩⟩)

/-- The job is asked for twice more, and the failure ends the wait. -/
theorem waitForJob_retries_forgotten :
    let wait := waitForJob .default 9 7
    let D := forgotten.diary wait .start 0
    let x := (forgotten.run wait .start 0).1.1
    Diary.lacking D = 2 ∧ D.countP Entry.isExchanged = 3 ∧
      x = .error (.failed (.http "API error 500: no space left")) ∧
      Retries forgotten.gateway .default 7 9 D x := by
  intro wait D x
  exact ⟨by decide +kernel, by decide +kernel, by decide +kernel,
    (waitForJob_retries forgotten .default 9 7 .start 0).2.2.2⟩

end Activity

end StagedTransfer
