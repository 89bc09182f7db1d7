import StagedTransfer.Proofs.Polling.Round
import StagedTransfer.Proofs.Session.Writing

/-!
# Rounds in a diary

The access token is looked at before each question for a job, and a new one is asked for if there is
none or it has expired. The session looks at the token once more when it sends the question. Provided
that a token that is good at the first look is still good at the second, a diary of a wait is put
together from rounds of one form: the wait makes sure of the token, and the question goes out with
it.
-/

namespace StagedTransfer

open Activity Http Wire

/-! ### Tokens in a diary -/

/-- The token that is kept after an entry. -/
def Entry.token (k : Option AccessToken) : Entry → Option AccessToken
  | .granted (.answered (.ok t)) => some t
  | _                            => k

namespace Diary

/-- The token that is kept after all that a diary tells, with the token that is kept before. -/
def token (k : Option AccessToken) (D : Diary) : Option AccessToken :=
  D.foldl Entry.token k

/-- Whenever a wait has looked at the token and made sure of it, the token that is kept has not
expired when the time is looked at next. The wait has just looked at the token if `checked`. -/
def Lasting (k : Option AccessToken) (checked : Bool) : Diary → Prop
  | []                            => True
  | .looked now :: D              =>
    (checked = true → ∀ t ∈ k, t.hasExpired now = false) ∧ Lasting k false D
  | .awaited .tokenExpired _ :: D => Lasting k true D
  | x :: D                        => Lasting (x.token k) checked D

instance decidableLasting : (k : Option AccessToken) → (checked : Bool) → (D : Diary) →
    Decidable (Lasting k checked D)
  | _, _,       []                            => .isTrue trivial
  | k, checked, .looked now :: D              =>
    have := decidableLasting k false D
    inferInstanceAs (Decidable ((checked = true → ∀ t ∈ k, t.hasExpired now = false) ∧ _))
  | k, _,       .awaited .tokenExpired _ :: D => decidableLasting k true D
  | k, checked, .awaited (.call _) _ :: D     => decidableLasting k checked D
  | k, checked, .awaited .refresh _ :: D      => decidableLasting k checked D
  | k, checked, .awaited (.pause _) _ :: D    => decidableLasting k checked D
  | k, checked, .cancelled :: D               => decidableLasting k checked D
  | k, checked, .granted reply :: D           =>
    decidableLasting ((Entry.granted reply).token k) checked D
  | k, checked, .exchanged _ _ :: D           => decidableLasting k checked D
  | k, checked, .wrote _ _ _ :: D             => decidableLasting k checked D

end Diary

/-- What is written down while nothing is asked for. -/
@[simp]
def Entry.Idle : Entry → Prop
  | .cancelled            => True
  | .awaited (.pause _) _ => True
  | _                     => False

/-- What is written down of a look at the token that makes sure of it, with the token that is kept
before and the one that is kept after it. -/
inductive Secures : Option AccessToken → Diary → AccessToken → Prop
  | kept {t : AccessToken} {now : Instant} (live : t.hasExpired now = false) :
    Secures (some t) [.looked now, .awaited .tokenExpired (.ok false)] t
  | renewed {k : Option AccessToken} {now : Instant} (missing : tokenMissing k now = true)
    (t : AccessToken) :
    Secures k [.looked now, .awaited .tokenExpired (.ok true), .granted (.ok t),
      .awaited .refresh (.ok ())] t

/-- What is written down of the end of a wait whose token cannot be renewed. -/
inductive Denies : Diary → Except Stop SchedulerJob → Prop
  | cancelled : Denies [.cancelled] (.error (.failed .cancelled))
  | failed (e : TokenError) :
    Denies [.granted (.fail e), .awaited .refresh (.fail (.auth e))] (.error (.failed (.auth e)))
  | overrun (o : Overrun) :
    Denies [.granted (.overrun o), .awaited .refresh (.overrun o)] (.error (.overrun o))
  | abandoned (reply : Reply TokenError AccessToken) :
    Denies [.granted reply, .cancelled, .awaited .refresh (.fail .cancelled)]
      (.error (.failed .cancelled))

section

variable (ask : AccessToken → Option Request) (jobId : Int64)

/-- What is written down of the end of a wait whose question cannot be sent. -/
inductive Withholds (t : AccessToken) : Diary → Except Stop SchedulerJob → Prop
  | cancelled : Withholds t [.cancelled] (.error (.failed .cancelled))
  | unsendable {now : Instant} {e : TransferError} (unsendable : ask t = none) :
    Withholds t [.looked now, .awaited (.call (.job jobId)) (.fail e)] (.error (.failed e))

/-- What is written down of a round of a wait, what is written down after it, and what the wait comes
to, with the token that is kept before. -/
inductive Attempt : Option AccessToken → Diary → Diary → Except Stop SchedulerJob → Prop
  | cancelled (k : Option AccessToken) :
    Attempt k [.cancelled] [] (.error (.failed .cancelled))
  | denied {k : Option AccessToken} {now : Instant} {last : Diary} {r : Except Stop SchedulerJob}
    (missing : tokenMissing k now = true) (denies : Denies last r) :
    Attempt k (.looked now :: .awaited .tokenExpired (.ok true) :: last) [] r
  | withheld {k : Option AccessToken} {first last : Diary} {t : AccessToken}
    {r : Except Stop SchedulerJob} (secures : Secures k first t)
    (withholds : Withholds ask jobId t last r) : Attempt k (first ++ last) [] r
  | asked {k : Option AccessToken} {first called last D : Diary} {t : AccessToken} {now : Instant}
    {q : Request} {o : Outcome} {reply : Reply TransferError SchedulerJob}
    {r : Except Stop SchedulerJob} (secures : Secures k first t) (live : t.hasExpired now = false)
    (sendable : ask t = some q) (idle : ∀ x ∈ called, x.Idle) (idle' : ∀ x ∈ last, x.Idle) :
    Attempt k (first ++ .looked now :: .exchanged q o ::
      (called ++ .awaited (.call (.job jobId)) reply :: last)) D r

/-- The diary of a wait for a job and what the wait comes to, with the token that is kept before. -/
inductive Polls : Option AccessToken → Diary → Except Stop SchedulerJob → Prop
  | ended (k : Option AccessToken) (r : Except Stop SchedulerJob) : Polls k [] r
  | attempt {k : Option AccessToken} {B D : Diary} {r : Except Stop SchedulerJob}
    (attempt : Attempt ask jobId k B D r) (rest : Polls (Diary.token k B) D r) : Polls k (B ++ D) r

end

/-- The request of a question for a job. -/
def Gateway.jobRequest? (g : Gateway) (jobId : Int64) (t : AccessToken) : Option Request :=
  (g.demand [] (.job jobId)).request? (some t.text)

/-! ### The rounds of a wait -/

namespace Diary

variable {k : Option AccessToken} {t : AccessToken} {D D' : Diary}

lemma token_append : token k (D ++ D') = token (token k D) D' :=
  List.foldl_append

lemma token_of_idle (idle : ∀ x ∈ D, x.Idle) : token k D = k := by
  induction D with
  | nil => rfl
  | cons x D ih =>
    have head : x.token k = k := by
      have := idle x (by simp)
      cases x <;> first | rfl | exact this.elim
    rw [token, List.foldl_cons, head]
    exact ih fun y hy => idle y (List.mem_cons_of_mem x hy)

lemma token_of_secures (secures : Secures k D t) : token k D = some t := by
  cases secures <;> rfl

lemma Lasting.of_secures (h : Lasting k false (D ++ D')) (secures : Secures k D t) :
    Lasting (some t) true D' := by
  cases secures with
  | kept _ => exact h.2
  | renewed _ t => exact h.2

lemma Lasting.of_idle {checked : Bool} (h : Lasting k checked (D ++ D')) (idle : ∀ x ∈ D, x.Idle) :
    Lasting k checked D' := by
  induction D with
  | nil => exact h
  | cons x D ih =>
    have head := idle x (by simp)
    have tail := fun y hy => idle y (List.mem_cons_of_mem x hy)
    cases x with
    | cancelled => exact ih h tail
    | awaited w reply =>
      cases w with
      | pause d => exact ih h tail
      | _ => exact head.elim
    | _ => exact head.elim

end Diary

namespace Tells

variable {g : Gateway} {k k' : Option AccessToken} {log : Log} {D : Diary}

/-- What is written down of a look at the token. -/
lemma of_look {r : Except Stop Bool} (waits : Waits .tokenExpired log r) (h : Tells g k log D k') :
    k' = k ∧ (D = [.cancelled] ∧ r = .error (.failed .cancelled) ∨
      ∃ now, D = [.looked now, .awaited .tokenExpired (.ok (tokenMissing k now))] ∧
        r = .ok (tokenMissing k now)) := by
  rcases h.of_waits waits with ⟨rfl, rfl, rfl⟩ | ⟨_, reply, awaits, rfl, rfl⟩
  · exact ⟨rfl, .inl ⟨rfl, rfl⟩⟩
  · cases awaits with
    | tokenExpired k now => exact ⟨rfl, .inr ⟨now, rfl, rfl⟩⟩

/-- A look at the token that is followed by a question has made sure of it. -/
lemma secures (h : Tells g k log D k') (course : ensureToken.Course log (.ok ())) :
    ∃ t, Secures k D t ∧ k' = some t := by
  rcases ensureToken_cases course with ⟨_, -, ⟨⟩⟩ | ⟨waits, -⟩ | ⟨_, _, waits, refresh, rfl⟩
  · obtain ⟨rfl, ⟨-, ⟨⟩⟩ | ⟨now, rfl, found⟩⟩ := h.of_look waits
    have live : tokenMissing k' now = false := (Except.ok.inj found).symm
    rw [live]
    cases k' with
    | none => cases live
    | some t => exact ⟨t, .kept live, rfl⟩
  · obtain ⟨D, D', k'', first, last, rfl⟩ := h.of_append
    obtain ⟨rfl, ⟨-, ⟨⟩⟩ | ⟨now, rfl, found⟩⟩ := first.of_look waits
    have missing : tokenMissing k'' now = true := (Except.ok.inj found).symm
    rw [missing]
    rcases last.of_waits refresh with ⟨-, -, ⟨⟩⟩ | ⟨_, reply, awaits, rfl, ended⟩
    cases awaits with
    | refresh k t => exact ⟨t, .renewed missing t, rfl⟩
    | _ => cases ended

/-- A look at the token that ends a wait has not made sure of it. -/
lemma denies {s : Stop} (h : Tells g k log D k') (course : ensureToken.Course log (.error s)) :
    (D = [.cancelled] ∧ s = .failed .cancelled) ∨
      ∃ now last, tokenMissing k now = true ∧
        D = .looked now :: .awaited .tokenExpired (.ok true) :: last ∧ Denies last (.error s) := by
  rcases ensureToken_cases course with ⟨s, waits, ⟨rfl⟩⟩ | ⟨-, ⟨⟩⟩ | ⟨_, _, waits, refresh, rfl⟩
  · obtain ⟨rfl, ⟨rfl, ⟨rfl⟩⟩ | ⟨now, rfl, ⟨⟩⟩⟩ := h.of_look waits
    exact .inl ⟨rfl, rfl⟩
  · obtain ⟨D, D', k'', first, last, rfl⟩ := h.of_append
    obtain ⟨rfl, ⟨-, ⟨⟩⟩ | ⟨now, rfl, found⟩⟩ := first.of_look waits
    have missing : tokenMissing k'' now = true := (Except.ok.inj found).symm
    rw [missing]
    refine .inr ⟨now, D', missing, rfl, ?_⟩
    rcases last.of_waits refresh with ⟨rfl, -, ⟨rfl⟩⟩ | ⟨_, reply, awaits, rfl, ended⟩
    · exact .cancelled
    cases awaits with
    | refresh k t => cases ended
    | denied k e =>
      cases ended
      exact .failed e
    | refreshOverrun k o =>
      cases ended
      exact .overrun o
    | refreshCancelled k x =>
      cases ended
      exact .abandoned x

/-- It is all that is written down of the last round. -/
lemma unsecured {ask : AccessToken → Option Request} {jobId : Int64} {s : Stop}
    (h : Tells g k log D k') (course : ensureToken.Course log (.error s)) :
    Attempt ask jobId k D [] (.error s) := by
  rcases h.denies course with ⟨rfl, rfl⟩ | ⟨now, last, missing, rfl, denies⟩
  · exact .cancelled k
  · exact .denied missing denies

end Tells

section

variable {g : Gateway} {jobId : Int64} {t : AccessToken} {k' : Option AccessToken} {D D' : Diary}

lemma acceptedToken?_of_live {now : Instant} (live : t.hasExpired now = false) :
    acceptedToken? (some t) now = some t := by
  simp [acceptedToken?, Option.filter, live]

/-- The session keeps to a token that lasts. -/
lemma Obtains.of_lasting {reply : Reply TokenError AccessToken} (obtains : Obtains (some t) D reply k')
    (lasting : Diary.Lasting (some t) true (D ++ D')) :
    ∃ now, t.hasExpired now = false ∧ D = [.looked now] ∧ reply = .ok t ∧ k' = some t := by
  cases obtains with
  | @kept t' now accepted =>
    have live := lasting.1 rfl t rfl
    obtain rfl : t = t' := Option.some.inj ((acceptedToken?_of_live live).symm.trans accepted)
    exact ⟨now, live, rfl, rfl, rfl⟩
  | granted none' _ => cases (acceptedToken?_of_live (lasting.1 rfl t rfl)).symm.trans none'
  | denied none' _ => cases (acceptedToken?_of_live (lasting.1 rfl t rfl)).symm.trans none'
  | overrun none' _ => cases (acceptedToken?_of_live (lasting.1 rfl t rfl)).symm.trans none'

lemma Exchanges.of_lasting {d : Demand} {reply : Reply GatewayError Response}
    (exchanges : Exchanges d (some t) D reply k') (authorized : d.authorized = true)
    (lasting : Diary.Lasting (some t) true (D ++ D')) :
    k' = some t ∧ ∃ now first x, t.hasExpired now = false ∧ D = .looked now :: first ∧
      Sends d (some t.text) first x ∧ reply = .answered x := by
  cases exchanges with
  | plain plain => cases authorized.symm.trans plain
  | authorized _ obtains sends =>
    rw [List.append_assoc] at lasting
    obtain ⟨now, live, rfl, ⟨rfl⟩, rfl⟩ := obtains.of_lasting lasting
    exact ⟨rfl, now, _, _, live, rfl, sends, rfl⟩
  | denied _ obtains =>
    obtain ⟨_, -, -, ⟨⟩, -⟩ := obtains.of_lasting lasting
  | overrun _ obtains =>
    obtain ⟨_, -, -, ⟨⟩, -⟩ := obtains.of_lasting lasting

/-- A question for a job carries the token that the wait has made sure of. -/
lemma Performs.of_job {reply : Reply GatewayError (Call.job jobId).Answer}
    (performs : Performs g (.job jobId) (some t) D reply k')
    (lasting : Diary.Lasting (some t) true (D ++ D')) :
    k' = some t ∧ ∃ now, t.hasExpired now = false ∧
      ((∃ q o x, g.jobRequest? jobId t = some q ∧ D = [.looked now, .exchanged q o] ∧
          reply = .answered x) ∨
        g.jobRequest? jobId t = none ∧ D = [.looked now] ∧
          reply = .fail (.http "builder error")) := by
  cases performs with
  | unread loads => cases loads
  | answered loads exchanges receives =>
    cases loads
    rw [List.append_assoc] at lasting
    obtain ⟨rfl, now, first, x, live, rfl, sends, ⟨rfl⟩⟩ := exchanges.of_lasting rfl lasting
    cases sends with
    | answered sent response =>
      cases receives with
      | read _ => exact ⟨rfl, now, live, .inl ⟨_, _, _, sent, rfl, rfl⟩⟩
      | wrote elsewhere => cases elsewhere
      | unwritten elsewhere => cases elsewhere
  | failed loads exchanges =>
    cases loads
    obtain ⟨rfl, now, first, x, live, rfl, sends, ⟨rfl⟩⟩ := exchanges.of_lasting rfl lasting
    cases sends with
    | unsendable unsent => exact ⟨rfl, now, live, .inr ⟨unsent, rfl, rfl⟩⟩
    | lost sent reason => exact ⟨rfl, now, live, .inl ⟨_, _, _, sent, rfl, rfl⟩⟩
  | overrun loads exchanges =>
    cases loads
    obtain ⟨-, _, _, _, -, -, -, ⟨⟩⟩ := exchanges.of_lasting rfl lasting

/-- A question for a job is given up once its request has been sent: the session has a token that is
good. -/
lemma Quits.of_job (quits : Quits g (.job jobId) (some t) D k')
    (lasting : Diary.Lasting (some t) true (D ++ D')) :
    k' = some t ∧ ∃ now q o, t.hasExpired now = false ∧ g.jobRequest? jobId t = some q ∧
      D = [.looked now, .exchanged q o] := by
  cases quits with
  | exchanging loads forgoes =>
    cases loads
    cases forgoes with
    | plain plain => cases plain
    | untold _ none' => cases (acceptedToken?_of_live (lasting.1 rfl t rfl)).symm.trans none'
    | unanswered _ obtains sent o =>
      rw [List.append_assoc] at lasting
      obtain ⟨now, live, rfl, ⟨rfl⟩, rfl⟩ := obtains.of_lasting lasting
      exact ⟨rfl, now, _, o, live, sent, rfl⟩
  | writing _ _ elsewhere => cases elsewhere

/-- What is written down of a question for a job once the wait has made sure of a token. -/
lemma Awaits.of_job {reply : Reply TransferError (Await.call (.job jobId)).Answer}
    (awaits : Awaits g (.call (.job jobId)) (some t) D reply k')
    (lasting : Diary.Lasting (some t) true (D ++ D')) :
    k' = some t ∧ ∃ now answer, t.hasExpired now = false ∧ reply = .answered answer ∧
      ((∃ q o called, g.jobRequest? jobId t = some q ∧ D = .looked now :: .exchanged q o :: called ∧
          ∀ x ∈ called, x.Idle) ∨
        g.jobRequest? jobId t = none ∧ D = [.looked now] ∧
          ∃ e, answer = .error e ∧ ∀ what, e ≠ .notFound what) := by
  cases awaits with
  | call performs =>
    obtain ⟨rfl, now, live, ⟨q, o, x, sent, rfl, ⟨rfl⟩⟩ | ⟨unsent, rfl, ⟨rfl⟩⟩⟩ :=
      performs.of_job lasting
    · exact ⟨rfl, now, _, live, rfl, .inl ⟨q, o, [], sent, rfl, by simp⟩⟩
    · exact ⟨rfl, now, _, live, rfl, .inr ⟨unsent, rfl, _, rfl, by simp [TransferError.ofGateway]⟩⟩
  | callOverrun performs =>
    obtain ⟨-, _, -, ⟨_, _, _, -, -, ⟨⟩⟩ | ⟨-, -, ⟨⟩⟩⟩ := performs.of_job lasting
  | callCancelled quits =>
    rw [List.append_assoc] at lasting
    obtain ⟨rfl, now, q, o, live, sent, rfl⟩ := quits.of_job lasting
    exact ⟨rfl, now, _, live, rfl, .inl ⟨q, o, [.cancelled], sent, rfl, by simp⟩⟩

end

/-- A note of a pause or of what is done at once. -/
def Note.Pauses : Note → Prop
  | .asked _              => True
  | .awaited (.pause _) _ => True
  | .acted _ _            => True
  | _                     => False

lemma Tells.idle_of_pauses {g : Gateway} {k k' : Option AccessToken} {log : Log} {D : Diary}
    (h : Tells g k log D k') (pauses : ∀ note ∈ log, note.Pauses) :
    k' = k ∧ ∀ x ∈ D, x.Idle := by
  induction h with
  | nil => exact ⟨rfl, by simp⟩
  | cancelled _ ih =>
    obtain ⟨rfl, idle⟩ := ih fun note mem => pauses note (List.mem_cons_of_mem _ mem)
    refine ⟨rfl, fun x hx => ?_⟩
    rcases List.mem_cons.1 hx with rfl | hx
    · trivial
    · exact idle x hx
  | notCancelled _ ih => exact ih fun note mem => pauses note (List.mem_cons_of_mem _ mem)
  | acted _ _ _ ih => exact ih fun note mem => pauses note (List.mem_cons_of_mem _ mem)
  | chosen s c => exact (pauses (.chosen s c) (by simp)).elim
  | @awaited w _ _ _ _ _ _ _ awaits _ ih =>
    obtain ⟨rfl, idle⟩ := ih fun note mem => pauses note (List.mem_cons_of_mem _ mem)
    have head := pauses _ (List.mem_cons_self ..)
    cases awaits with
    | pause d k => exact ⟨rfl, by simpa [Entry.Idle] using idle⟩
    | pauseCancelled d k => exact ⟨rfl, by simpa [Entry.Idle] using idle⟩
    | _ => exact head.elim

namespace Activity

variable {w : WaitPlan} {jobId : Int64} {rounds left : Nat} {delay : Span} {log : Log}

lemma Waits.pauses {d : Span} {r : Except Stop Unit} (h : Waits (.pause d) log r) :
    ∀ note ∈ log, note.Pauses := by
  intro note mem
  rcases h.mem mem with ⟨_, rfl⟩ | ⟨_, rfl⟩ <;> trivial

/-- A round makes sure of the token, asks for the job and pauses. An error other than that the job
is not found ends it. -/
lemma Round.parts {next : Next} (round : Round w jobId left delay log next) :
    (∃ s, ensureToken.Course log (.error s) ∧ next = .ends (.error s)) ∨
      ∃ token asks, ensureToken.Course token (.ok ()) ∧ log = token ++ asks ∧
        ((asks = [.asked true] ∧ next = .ends (.error (.failed .cancelled))) ∨
          (∃ o, asks = [.asked false, .awaited (.call (.job jobId)) (.overrun o)]) ∨
          ∃ answer last, asks = askedJob jobId answer ++ last ∧ (∀ note ∈ last, note.Pauses) ∧
            ∀ e, answer = .error e → (∀ what, e ≠ .notFound what) →
              next = .ends (.error (.failed e)) ∧ last = []) := by
  cases round with
  | untokened h => exact .inl ⟨_, h, rfl⟩
  | unanswered h unasked =>
    refine .inr ⟨_, _, h, rfl, ?_⟩
    rcases unasked with ⟨rfl, rfl⟩ | ⟨o, rfl, rfl⟩
    · exact .inl ⟨rfl, rfl⟩
    · exact .inr (.inl ⟨o, rfl⟩)
  | refused h found =>
    refine .inr ⟨_, _, h, rfl, .inr (.inr ⟨_, [], (List.append_nil _).symm, by simp, ?_⟩)⟩
    rintro _ ⟨rfl⟩ -
    exact ⟨rfl, rfl⟩
  | malformed h state =>
    exact .inr ⟨_, _, h, rfl, .inr (.inr ⟨_, [], (List.append_nil _).symm, by simp, by simp⟩)⟩
  | ended h hs terminal =>
    refine .inr ⟨_, _, h, List.append_assoc .., .inr (.inr ⟨_, _, rfl, ?_, by simp⟩)⟩
    simp [Note.Pauses]
  | pending h hs terminal pause =>
    refine .inr ⟨_, _, h, List.append_assoc .., .inr (.inr ⟨_, _, rfl, ?_, by simp⟩)⟩
    simpa [Note.Pauses] using pause.pauses
  | exhausted h last =>
    refine .inr ⟨_, _, h, List.append_assoc .., .inr (.inr ⟨_, _, rfl, ?_, ?_⟩)⟩
    · simp [Note.Pauses]
    · rintro _ ⟨rfl⟩ found
      exact absurd rfl (found _)
  | missing h more pause =>
    refine .inr ⟨_, _, h, List.append_assoc .., .inr (.inr ⟨_, _, rfl, ?_, ?_⟩)⟩
    · simpa [Note.Pauses] using pause.pauses
    · rintro _ ⟨rfl⟩ found
      exact absurd rfl (found _)

end Activity

/-! ### The diary of a wait -/

section

variable {g : Gateway} {w : WaitPlan} {jobId : Int64} {rounds left : Nat} {delay : Span} {log : Log}
  {k k' : Option AccessToken} {D : Diary} {r : Except Stop SchedulerJob}

/-- What is written down of a round of a wait whose token lasts. -/
lemma Attempt.of_round {next : Next} {D' : Diary} (round : Round w jobId left delay log next)
    (h : Tells g k log D k') (lasting : Diary.Lasting k false (D ++ D'))
    (ended : ∀ r', next = .ends r' → D' = [] ∧ r = r') :
    Attempt (g.jobRequest? jobId) jobId k D D' r ∧
      ∀ left delay, next = .goesOn left delay →
        k' = Diary.token k D ∧ Diary.Lasting k' false D' := by
  rcases round.parts with ⟨s, course, rfl⟩ | ⟨token, asks, course, rfl, parts⟩
  · obtain ⟨rfl, rfl⟩ := ended _ rfl
    exact ⟨h.unsecured course, nofun⟩
  obtain ⟨first, second, k'', htoken, hasks, rfl⟩ := h.of_append
  obtain ⟨t, secures, rfl⟩ := htoken.secures course
  rw [List.append_assoc] at lasting
  have lasting := lasting.of_secures secures
  -- Given up before the question, ended by an overrun, or answered. The second does not happen
  -- while the token lasts.
  rcases parts with ⟨rfl, rfl⟩ | ⟨o, rfl⟩ | ⟨answer, last, rfl, pauses, refused⟩
  · obtain ⟨rfl, rfl⟩ := ended _ rfl
    cases hasks with
    | cancelled hnil =>
      obtain ⟨rfl, rfl⟩ := hnil.of_nil
      exact ⟨.withheld secures .cancelled, nofun⟩
  · cases hasks with
    | notCancelled hasks =>
      obtain ⟨D₁, D₂, _, awaits, -, rfl⟩ := hasks.of_awaited
      rw [List.append_assoc] at lasting
      obtain ⟨-, _, _, -, ⟨⟩, -⟩ := awaits.of_job lasting
  · obtain ⟨D₁, D₂, k'', hasked, hlast, rfl⟩ := hasks.of_append
    cases hasked with
    | notCancelled hasked =>
      obtain ⟨D₁, _, _, awaits, hnil, rfl⟩ := hasked.of_awaited
      obtain ⟨rfl, rfl⟩ := hnil.of_nil
      obtain ⟨rfl, idle'⟩ := hlast.idle_of_pauses pauses
      simp only [List.append_assoc, List.cons_append, List.nil_append] at lasting ⊢
      obtain ⟨rfl, now, _, live, ⟨rfl⟩, asked⟩ := awaits.of_job lasting
      rcases asked with ⟨q, o, called, sent, rfl, idle⟩ | ⟨unsent, rfl, e, rfl, found⟩
      · have later : Diary.Lasting (some t) false (called ++ _ :: (D₂ ++ D')) := lasting.2
        have last : Diary.Lasting (some t) false (D₂ ++ D') := later.of_idle idle
        refine ⟨.asked secures live sent idle idle', fun _ _ _ => ⟨?_, last.of_idle idle'⟩⟩
        rw [Diary.token_append, Diary.token_of_secures secures]
        change some t = Diary.token (some t) (called ++ _ :: D₂)
        rw [Diary.token_append, Diary.token_of_idle idle]
        exact (Diary.token_of_idle idle').symm
      · obtain ⟨rfl, rfl⟩ := refused e rfl found
        obtain ⟨rfl, rfl⟩ := ended _ rfl
        obtain ⟨rfl, -⟩ := hlast.of_nil
        exact ⟨.withheld secures (.unsendable unsent), nofun⟩

/-- The diary of a wait whose token lasts. -/
lemma Polls.of_waitFrom (course : (waitFrom w jobId rounds left delay).Course log r)
    (h : Tells g k log D k') (lasting : Diary.Lasting k false D) :
    Polls (g.jobRequest? jobId) jobId k D r := by
  -- On the rounds to come: a round hands on the token that it leaves, and that lasts as well.
  induction rounds generalizing left delay log k D with
  | zero =>
    cases course
    obtain ⟨rfl, rfl⟩ := h.of_nil
    exact .ended k' _
  | succ rounds ih =>
    rcases TakesRound.of_course course with round | ⟨first, rest, left', delay', round, next, rfl⟩
    · obtain ⟨last, -⟩ : Attempt (g.jobRequest? jobId) jobId k D [] r ∧ _ :=
        Attempt.of_round round h (by simpa using lasting) (by simp)
      have whole := Polls.attempt last (.ended _ r)
      rwa [List.append_nil] at whole
    · obtain ⟨D₁, D₂, k'', hfirst, hrest, rfl⟩ := h.of_append
      obtain ⟨attempt, later⟩ := Attempt.of_round round hfirst lasting (by simp)
      obtain ⟨rfl, lasting⟩ := later left' delay' rfl
      exact .attempt attempt (ih next hrest lasting)

end

end StagedTransfer
