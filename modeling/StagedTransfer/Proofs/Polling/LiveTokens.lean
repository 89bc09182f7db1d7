import StagedTransfer.Proofs.Polling.Attempts

/-!
# Tokens of a wait

Each question for a job carries a token that has not expired, and no token is asked for in vain. This
is read off the rounds of which the diary of a wait consists.
-/

namespace StagedTransfer

open Activity Http Wire

section

variable (ask : AccessToken → Option Request) (jobId : Int64)

/-- Why a wait that has looked at the token asks nothing more, with the token that is kept in the
end. -/
inductive Unasked (k : Option AccessToken) (after : Diary) : Except Stop SchedulerJob → Prop
  | cancelled (told : .cancelled ∈ after) : Unasked k after (.error (.failed .cancelled))
  | denied {e : TokenError} (denied : .granted (.fail e) ∈ after) :
    Unasked k after (.error (.failed (.auth e)))
  | overrun {o : Overrun} (overrun : .granted (.overrun o) ∈ after) :
    Unasked k after (.error (.overrun o))
  | unsendable {t : AccessToken} {e : TransferError} (kept : k = some t) (unsendable : ask t = none) :
    Unasked k after (.error (.failed e))

/-- Each question of a wait carries a token that is good, and no token is asked for in vain. -/
structure LiveTokens (k : Option AccessToken) (D : Diary) (r : Except Stop SchedulerJob) :
    Prop where
  /-- A request carries the token that the wait has made sure of right before, and that has not
  expired. -/
  asked : ∀ before q o after, D = before ++ .exchanged q o :: after →
    ∃ head first t now, before = head ++ first ++ [.looked now] ∧
      Secures (Diary.token k head) first t ∧ t.hasExpired now = false ∧ ask t = some q
  /-- The only calls are questions for the job, and the wait has made sure of the token before each
  of them. -/
  called : ∀ before (call : Call) reply after, D = before ++ .awaited (.call call) reply :: after →
    call = .job jobId ∧ ∃ head first t now between, before = head ++ first ++ .looked now :: between ∧
      Secures (Diary.token k head) first t ∧ ∀ x ∈ between, x.Idle ∨ ∃ q o, x = .exchanged q o
  /-- A token is asked for only when there is none or it has expired. -/
  granted : ∀ before reply after, D = before ++ .granted reply :: after →
    ∃ head now, before = head ++ [.looked now, .awaited .tokenExpired (.ok true)] ∧
      tokenMissing (Diary.token k head) now = true
  /-- After a look at the token that is there or has been asked for once, it goes out with a question,
  unless nothing is asked any more. -/
  checked : ∀ before reply after, D = before ++ .awaited .tokenExpired reply :: after →
    ∃ head now, before = head ++ [.looked now] ∧ reply = .ok (tokenMissing (Diary.token k head) now) ∧
      ((∃ rest t now' q o last, after = rest ++ .looked now' :: .exchanged q o :: last ∧
          Secures (Diary.token k head) (.looked now :: .awaited .tokenExpired reply :: rest) t ∧
          ask t = some q) ∨
        (∀ q o, .exchanged q o ∉ after) ∧ Unasked ask (Diary.token k D) after r)
  /-- If no token is to be had, the wait ends with that error and asks nothing more. -/
  denied : ∀ before e after, D = before ++ .granted (.fail e) :: after →
    (∀ q o, .exchanged q o ∉ after) ∧ (r = .error (.failed (.auth e)) ∨
      .cancelled ∈ after ∧ r = .error (.failed .cancelled))

end

section

variable {ask : AccessToken → Option Request} {jobId : Int64} {k : Option AccessToken}
  {B D here between : Diary} {t : AccessToken} {r : Except Stop SchedulerJob}

/-- An entry of a diary stands in one of the rounds. -/
lemma Polls.attempt_of_split (h : Polls ask jobId k D r) {before after : Diary} {x : Entry}
    (split : D = before ++ x :: after) :
    ∃ head here between rest, before = head ++ here ∧ after = between ++ rest ∧
      Attempt ask jobId (Diary.token k head) (here ++ x :: between) rest r := by
  induction h generalizing before with
  | ended => simp at split
  | @attempt k B D r attempt _ ih =>
    rcases Diary.append_split split with ⟨here, rfl, tail⟩ | ⟨between, rfl, rfl⟩
    · obtain ⟨head, here, between, rest, rfl, rfl, later⟩ := ih tail
      refine ⟨B ++ head, here, between, rest, by rw [List.append_assoc], rfl, ?_⟩
      rwa [Diary.token_append]
    · exact ⟨[], before, between, D, rfl, rfl, attempt⟩

lemma Secures.mem (h : Secures k D t) {x : Entry} (hx : x ∈ D) :
    (∃ now, x = .looked now) ∨ (∃ missing, x = .awaited .tokenExpired (.ok missing)) ∨
      x = .granted (.ok t) ∨ x = .awaited .refresh (.ok ()) := by
  cases h <;> simp only [List.mem_cons, List.not_mem_nil, or_false] at hx
  · rcases hx with rfl | rfl <;> simp
  · rcases hx with rfl | rfl | rfl | rfl <;> simp

lemma Withholds.mem (h : Withholds ask jobId t D r) {x : Entry} (hx : x ∈ D) :
    (∃ now, x = .looked now) ∨ x.Idle ∨ ∃ e, x = .awaited (.call (.job jobId)) (.fail e) := by
  cases h with
  | cancelled =>
    obtain rfl := List.mem_singleton.1 hx
    simp
  | @unsendable now e =>
    rcases List.mem_cons.1 hx with rfl | hx
    · simp
    · exact .inr (.inr ⟨e, List.mem_singleton.1 hx⟩)

lemma Denies.mem (h : Denies D r) {x : Entry} (hx : x ∈ D) :
    x.Idle ∨ (∃ reply, x = .granted reply) ∨ ∃ reply, x = .awaited .refresh reply := by
  cases h <;> simp only [List.mem_cons, List.not_mem_nil, or_false] at hx
  · simp [hx]
  · rcases hx with rfl | rfl <;> simp
  · rcases hx with rfl | rfl <;> simp
  · rcases hx with rfl | rfl | rfl <;> simp

/-- A round that makes sure of the token begins with a look at it. -/
lemma Secures.looks (h : Secures k D t) :
    ∃ now rest, D = .looked now :: .awaited .tokenExpired (.ok (tokenMissing k now)) :: rest ∧
      ∀ reply, .awaited .tokenExpired reply ∉ rest := by
  cases h with
  | @kept _ now live =>
    have missing : tokenMissing (some t) now = false := live
    exact ⟨now, [], by rw [missing], by simp⟩
  | @renewed _ now missing =>
    exact ⟨now, [.granted (.ok t), .awaited .refresh (.ok ())], by rw [missing], by simp⟩

namespace Attempt

variable (h : Attempt ask jobId k B D r)

include h

lemma of_exchanged {q : Request} {o : Outcome} (split : B = here ++ .exchanged q o :: between) :
    ∃ first t now, here = first ++ [.looked now] ∧ Secures k first t ∧ t.hasExpired now = false ∧
      ask t = some q := by
  have mem : .exchanged q o ∈ B := by simp [split]
  cases h with
  | cancelled => simp at mem
  | @denied _ last _ missing denies =>
    have mem : .exchanged q o ∈ last := by simpa using mem
    simpa using denies.mem mem
  | withheld secures withholds =>
    rcases List.mem_append.1 mem with mem | mem
    · simpa using secures.mem mem
    · simpa using withholds.mem mem
  | @asked first called last _ t now _ _ reply _ secures live sendable idle idle' =>
    have before : .exchanged q o ∉ first ++ [.looked now] := by
      simpa using fun mem => by simpa using secures.mem mem
    have after : .exchanged q o ∉ called ++ .awaited (.call (.job jobId)) reply :: last := by
      simpa using ⟨idle _, idle' _⟩
    rw [List.append_cons] at split
    obtain ⟨rfl, ⟨⟩, -⟩ := Diary.eq_of_split _ split before after
    exact ⟨first, t, now, rfl, secures, live, sendable⟩

lemma of_called {call : Call} {reply : Reply TransferError call.Answer}
    (split : B = here ++ .awaited (.call call) reply :: between) :
    call = .job jobId ∧ ∃ first t now asked, here = first ++ .looked now :: asked ∧
      Secures k first t ∧ ∀ x ∈ asked, x.Idle ∨ ∃ q o, x = .exchanged q o := by
  have mem : .awaited (.call call) reply ∈ B := by simp [split]
  cases h with
  | cancelled => simp at mem
  | @denied _ last _ missing denies =>
    have mem : .awaited (.call call) reply ∈ last := by simpa using mem
    simpa using denies.mem mem
  | @withheld first _ t _ secures withholds =>
    have outside : .awaited (.call call) reply ∉ first := fun mem => by
      simpa using secures.mem mem
    cases withholds with
    | cancelled => simp [outside] at mem
    | @unsendable now e =>
      have before : .awaited (.call call) reply ∉ first ++ [.looked now] := by simp [outside]
      rw [List.append_cons] at split
      obtain ⟨rfl, ⟨⟩, -⟩ := Diary.eq_of_split _ split before (by simp)
      exact ⟨rfl, first, t, now, [], rfl, secures, by simp⟩
  | @asked first called last _ t now q o _ _ secures live sendable idle idle' =>
    have before : .awaited (.call call) reply ∉
        first ++ .looked now :: .exchanged q o :: called := by
      simpa using ⟨fun mem => by simpa using secures.mem mem, idle _⟩
    rw [← List.cons_append, ← List.cons_append, ← List.append_assoc] at split
    obtain ⟨rfl, ⟨⟩, -⟩ := Diary.eq_of_split _ split before (idle' _)
    refine ⟨rfl, first, t, now, .exchanged q o :: called, rfl, secures, fun x hx => ?_⟩
    rcases List.mem_cons.1 hx with rfl | hx
    · exact .inr ⟨q, o, rfl⟩
    · exact .inl (idle x hx)

lemma of_granted {reply : Reply TokenError AccessToken}
    (split : B = here ++ .granted reply :: between) :
    ∃ now, here = [.looked now, .awaited .tokenExpired (.ok true)] ∧ tokenMissing k now = true := by
  have mem : .granted reply ∈ B := by simp [split]
  have of_secures {first last : Diary} {t : AccessToken} (secures : Secures k first t)
      (outside : .granted reply ∉ last) (split : first ++ last = here ++ .granted reply :: between) :
      ∃ now, here = [.looked now, .awaited .tokenExpired (.ok true)] ∧
        tokenMissing k now = true := by
    cases secures with
    | kept _ =>
      have mem : .granted reply ∈ _ ++ last := split ▸ List.mem_append_right here (by simp)
      simp [outside] at mem
    | @renewed _ now missing =>
      obtain ⟨rfl, -, -⟩ := Diary.eq_of_split [.looked now, .awaited .tokenExpired (.ok true)] split
        (by simp) (by simpa using outside)
      exact ⟨now, rfl, missing⟩
  cases h with
  | cancelled => simp at mem
  | @denied now last _ missing denies =>
    cases denies with
    | cancelled => simp at mem
    | _ =>
      obtain ⟨rfl, -, -⟩ := Diary.eq_of_split [.looked now, .awaited .tokenExpired (.ok true)] split
        (by simp) (by simp)
      exact ⟨now, rfl, missing⟩
  | withheld secures withholds =>
    exact of_secures secures (fun mem => by simpa using withholds.mem mem) split
  | asked secures live sendable idle idle' =>
    exact of_secures secures (by simpa using ⟨idle _, idle' _⟩) split

lemma of_checked {reply : Reply TransferError Bool}
    (split : B = here ++ .awaited .tokenExpired reply :: between) :
    ∃ now, here = [.looked now] ∧ reply = .ok (tokenMissing k now) ∧
      ((∃ rest t now' q o last, between = rest ++ .looked now' :: .exchanged q o :: last ∧
          Secures k (.looked now :: .awaited .tokenExpired reply :: rest) t ∧ ask t = some q) ∨
        D = [] ∧ (∀ q o, .exchanged q o ∉ between) ∧
          Unasked ask (Diary.token k B) between r) := by
  cases h with
  | cancelled => simpa using congrArg (Entry.awaited .tokenExpired reply ∈ ·) split
  | @denied now last _ missing denies =>
    have outside : .awaited .tokenExpired reply ∉ last := fun mem => by simpa using denies.mem mem
    obtain ⟨rfl, ⟨⟩, rfl⟩ := Diary.eq_of_split [.looked now] split (by simp) outside
    refine ⟨now, rfl, by rw [missing], .inr ⟨rfl, fun q o mem => by simpa using denies.mem mem, ?_⟩⟩
    cases denies with
    | cancelled => exact .cancelled (by simp)
    | failed e => exact .denied (e := e) (by simp)
    | overrun o => exact .overrun (o := o) (by simp)
    | abandoned x => exact .cancelled (by simp)
  | @withheld first last t _ secures withholds =>
    obtain ⟨now, rest, rfl, outside⟩ := secures.looks
    have outside' : .awaited .tokenExpired reply ∉ rest ++ last := by
      simpa [outside] using fun mem => by simpa using withholds.mem mem
    obtain ⟨rfl, ⟨⟩, rfl⟩ := Diary.eq_of_split [.looked now] split (by simp) outside'
    refine ⟨now, rfl, rfl, .inr ⟨rfl, fun q o mem => ?_, ?_⟩⟩
    · rcases List.mem_append.1 mem with mem | mem
      · simpa using secures.mem (x := .exchanged q o) (by simp [mem])
      · simpa using withholds.mem mem
    · cases withholds with
      | cancelled => exact .cancelled (by simp)
      | unsendable unsendable =>
        refine .unsendable ?_ unsendable
        rw [Diary.token_append, Diary.token_of_secures secures]
        rfl
  | @asked first called last _ t now' q o reply' _ secures live sendable idle idle' =>
    obtain ⟨now, rest, rfl, outside⟩ := secures.looks
    -- No entry of the question is a look, so the one in hand is the first.
    have apart : Entry.awaited .tokenExpired reply ≠ .awaited (.call (.job jobId)) reply' := nofun
    have unidle : .awaited .tokenExpired reply ∉ called := idle _
    have unidle' : .awaited .tokenExpired reply ∉ last := idle' _
    obtain ⟨rfl, ⟨⟩, rfl⟩ := Diary.eq_of_split [.looked now] split (by simp) (by
      simp [outside, apart, unidle, unidle'])
    exact ⟨now, rfl, rfl, .inl ⟨rest, t, now', q, o, _, rfl, secures, sendable⟩⟩

lemma of_denied {e : TokenError} (split : B = here ++ .granted (.fail e) :: between) :
    D = [] ∧ (∀ q o, .exchanged q o ∉ between) ∧ (r = .error (.failed (.auth e)) ∨
      .cancelled ∈ between ∧ r = .error (.failed .cancelled)) := by
  have mem : .granted (.fail e) ∈ B := by simp [split]
  have outside {first : Diary} {t : AccessToken} (secures : Secures k first t) :
      .granted (.fail e) ∉ first := fun mem => by
    simpa [Reply.ok, Reply.fail] using secures.mem mem
  cases h with
  | cancelled => simp at mem
  | @denied now last _ missing denies =>
    cases denies with
    | cancelled => simp at mem
    | failed e' =>
      obtain ⟨-, ⟨⟩, rfl⟩ := Diary.eq_of_split [.looked now, .awaited .tokenExpired (.ok true)] split
        (by simp) (by simp)
      exact ⟨rfl, by simp, .inl rfl⟩
    | overrun o => simp [Reply.fail] at mem
    | abandoned x =>
      obtain ⟨-, ⟨⟩, rfl⟩ := Diary.eq_of_split [.looked now, .awaited .tokenExpired (.ok true)] split
        (by simp) (by simp)
      exact ⟨rfl, by simp, .inr ⟨by simp, rfl⟩⟩
  | withheld secures withholds =>
    rcases List.mem_append.1 mem with mem | mem
    · exact (outside secures mem).elim
    · simpa using withholds.mem mem
  | asked secures live sendable idle idle' =>
    rcases List.mem_append.1 mem with mem | mem
    · exact (outside secures mem).elim
    · simp only [List.mem_cons, List.mem_append, reduceCtorEq, false_or] at mem
      exact (mem.elim (idle _) (idle' _)).elim

end Attempt

/-- The rounds of a wait, taken together. -/
lemma Polls.liveTokens (h : Polls ask jobId k D r) : LiveTokens ask jobId k D r where
  asked before q o after split := by
    obtain ⟨head, here, between, rest, rfl, rfl, attempt⟩ := h.attempt_of_split split
    obtain ⟨first, t, now, rfl, secures, live, sendable⟩ := attempt.of_exchanged rfl
    exact ⟨head, first, t, now, by rw [List.append_assoc], secures, live, sendable⟩
  called before call reply after split := by
    obtain ⟨head, here, between, rest, rfl, rfl, attempt⟩ := h.attempt_of_split split
    obtain ⟨rfl, first, t, now, asked, rfl, secures, only⟩ := attempt.of_called rfl
    exact ⟨rfl, head, first, t, now, asked, by rw [List.append_assoc], secures, only⟩
  granted before reply after split := by
    obtain ⟨head, here, between, rest, rfl, rfl, attempt⟩ := h.attempt_of_split split
    obtain ⟨now, rfl, missing⟩ := attempt.of_granted rfl
    exact ⟨head, now, rfl, missing⟩
  checked before reply after split := by
    obtain ⟨head, here, between, rest, rfl, rfl, attempt⟩ := h.attempt_of_split split
    obtain ⟨now, rfl, found, goesOn | ⟨rfl, unasked, ends⟩⟩ := attempt.of_checked rfl
    · obtain ⟨last, t, now', q, o, tail, rfl, secures, sendable⟩ := goesOn
      exact ⟨head, now, rfl, found,
        .inl ⟨last, t, now', q, o, tail ++ rest, by simp, secures, sendable⟩⟩
    · rw [← Diary.token_append, ← List.append_assoc] at ends
      rw [List.append_nil] at split ⊢
      exact ⟨head, now, rfl, found, .inr ⟨unasked, split ▸ ends⟩⟩
  denied before e after split := by
    obtain ⟨head, here, between, rest, rfl, rfl, attempt⟩ := h.attempt_of_split split
    obtain ⟨rfl, unasked, ends⟩ := attempt.of_denied rfl
    rw [List.append_nil]
    exact ⟨unasked, ends⟩

end

namespace Activity

/-- Each question of a wait carries a token that has not expired, one that is kept if it is still good
and a new one otherwise, provided that a token that the wait has made sure of lasts until the
question is sent. -/
theorem waitForJob_liveTokens {S : Type} (c : Client (StateM S)) (w : WaitPlan) (rounds : Nat)
    (jobId : Int64) (v : Session) (s : S)
    (lasting : Diary.Lasting v.token false (c.diary (waitForJob w rounds jobId) v s)) :
    LiveTokens (c.gateway.jobRequest? jobId) jobId v.token
      (c.diary (waitForJob w rounds jobId) v s) (c.run (waitForJob w rounds jobId) v s).1.1 := by
  obtain ⟨log, k, course, tells⟩ := c.tells (waitForJob w rounds jobId) v s
  exact (Polls.of_waitFrom course tells lasting).liveTokens

/-! ### A token that expires during a pause -/

/-- A client at a gateway that has not found a job at first and is gone later. Each token is good for
ten units of time, as long as a pause takes. -/
def latecomer : Client (StateM Nat) where
  around :=
    { exchange  := fun _ => return if (← get) = 0 then .answered ⟨404, [], [], true⟩ else .lost "gone"
      now       := return ⟨(← get)⟩
      pause     := fun _ => modify (· + 10)
      cancelled := pure false
      size      := fun _ => pure (.error .earlyEnd)
      content   := fun _ => pure (.error .earlyEnd)
      write     := fun _ _ => pure (.error .earlyEnd)
      prefer    := pure 0
      listen    := fun _ => pure ()
      enter     := fun _ => pure () }
  gateway := ⟨"http://gateway", "cluster", 0⟩
  source  := return .ok ⟨"t", ⟨(← get) + 10⟩⟩

/-- A wait in which a token is renewed before each of two questions. -/
theorem waitForJob_liveTokens_latecomer :
    let wait := waitForJob .default 2 7
    let D := latecomer.diary wait .start 0
    Diary.Lasting none false D ∧
      (D.filter fun x => x matches .granted _).length = 2 ∧
      (D.filter fun x => x matches .exchanged _ _).length = 2 ∧
      LiveTokens (latecomer.gateway.jobRequest? 7) 7 none D (latecomer.run wait .start 0).1.1 := by
  intro wait D
  have lasting : Diary.Lasting none false D := by decide +kernel
  exact ⟨lasting, by decide +kernel, by decide +kernel,
    waitForJob_liveTokens latecomer .default 2 7 .start 0 lasting⟩

end Activity

end StagedTransfer
