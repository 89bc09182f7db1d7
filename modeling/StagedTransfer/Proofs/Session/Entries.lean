import StagedTransfer.Proofs.Session.Calls

/-!
# The entries of a call

What may stand in a diary because of one call, whether it is answered or given up: the request that it
asks for and at most one of it, a token, and the file into which it fetches.
-/

namespace StagedTransfer

open Http

section

variable {d : Demand} {call : Call} {g : Gateway} {D : Diary} {k k' : Option AccessToken}

lemma Demand.authorization_of_request? {token : Option String} {q : Request}
    (h : d.request? token = some q) : q.authorization.isSome = token.isSome := by
  cases hurl : Url.parse? d.url with
  | none => simp [Demand.request?, hurl] at h
  | some url =>
    simp only [Demand.request?, hurl, Option.bind_eq_bind, Option.bind_some] at h
    split at h
    · cases h
      simp
    · cases h

lemma Sends.mem {token : Option String} {x : Except GatewayError Response} (h : Sends d token D x)
    {y : Entry} (hy : y ∈ D) :
    ∃ q o, y = .exchanged q o ∧ q.authorization.isSome = token.isSome := by
  cases h with
  | unsendable => simp at hy
  | lost h reason => exact ⟨_, _, List.mem_singleton.1 hy, Demand.authorization_of_request? h⟩
  | answered h r => exact ⟨_, _, List.mem_singleton.1 hy, Demand.authorization_of_request? h⟩

/-- What may be written down of a demand: a look at the time, a token, and a request that shows one if
it needs it. -/
inductive Entry.OfDemand (d : Demand) : Entry → Prop
  | looked (now : Instant) : OfDemand d (.looked now)
  | granted (reply : Reply TokenError AccessToken) : OfDemand d (.granted reply)
  | exchanged {q : Request} (h : q.authorization.isSome = d.authorized) (o : Outcome) :
    OfDemand d (.exchanged q o)

/-- What may be written down of a call: that of its demand, and the file that it fetches into. -/
inductive Entry.OfCall (g : Gateway) (call : Call) : Entry → Prop
  | demand {x : Entry} {content : Bytes} (h : x.OfDemand (g.demand content call)) : OfCall g call x
  | wrote {file : String} (h : call.destination? = some file) (content : Bytes)
    (result : Except IoError Unit) : OfCall g call (.wrote file content result)

lemma Obtains.mem {reply : Reply TokenError AccessToken} (h : Obtains k D reply k') {y : Entry}
    (hy : y ∈ D) : y.OfDemand d := by
  cases h <;> simp only [List.mem_cons, List.not_mem_nil, or_false] at hy
  · exact hy ▸ .looked _
  all_goals
    rcases hy with rfl | rfl
    · exact .looked _
    · exact .granted _

lemma Exchanges.mem {reply : Reply GatewayError Response} (h : Exchanges d k D reply k') {y : Entry}
    (hy : y ∈ D) : y.OfDemand d := by
  cases h with
  | plain plain sends =>
    obtain ⟨q, o, rfl, authorization⟩ := sends.mem hy
    exact .exchanged (authorization.trans plain.symm) o
  | authorized authorized obtains sends =>
    rcases List.mem_append.1 hy with hy | hy
    · exact obtains.mem hy
    · obtain ⟨q, o, rfl, authorization⟩ := sends.mem hy
      exact .exchanged (authorization.trans authorized.symm) o
  | denied _ obtains => exact obtains.mem hy
  | overrun _ obtains => exact obtains.mem hy

lemma Forgoes.mem (h : Forgoes d k D k') {y : Entry} (hy : y ∈ D) : y.OfDemand d := by
  cases h with
  | plain plain sent o =>
    obtain rfl := List.mem_singleton.1 hy
    exact .exchanged ((Demand.authorization_of_request? sent).trans plain.symm) o
  | untold =>
    rcases List.mem_pair.1 hy with rfl | rfl
    · exact .looked _
    · exact .granted _
  | unanswered authorized obtains sent o =>
    rcases List.mem_append.1 hy with hy | hy
    · exact obtains.mem hy
    · obtain rfl := List.mem_singleton.1 hy
      exact .exchanged ((Demand.authorization_of_request? sent).trans authorized.symm) o

lemma Performs.mem {reply : Reply GatewayError call.Answer} (h : Performs g call k D reply k')
    {y : Entry} (hy : y ∈ D) : y.OfCall g call := by
  cases h with
  | unread => simp at hy
  | answered _ exchanges receives =>
    rcases List.mem_append.1 hy with hy | hy
    · exact .demand (exchanges.mem hy)
    · cases receives with
      | read => simp at hy
      | wrote h | unwritten h =>
        obtain rfl := List.mem_singleton.1 hy
        exact .wrote h _ _
  | failed _ exchanges => exact .demand (exchanges.mem hy)
  | overrun _ exchanges => exact .demand (exchanges.mem hy)

lemma Quits.mem (h : Quits g call k D k') {y : Entry} (hy : y ∈ D) : y.OfCall g call := by
  cases h with
  | loading => simp at hy
  | exchanging _ forgoes => exact .demand (forgoes.mem hy)
  | writing _ exchanges destination _ result =>
    rcases List.mem_append.1 hy with hy | hy
    · exact .demand (exchanges.mem hy)
    · obtain rfl := List.mem_singleton.1 hy
      exact .wrote destination _ result

lemma Demand.body_of_request? {token : Option String} {q : Request}
    (h : d.request? token = some q) : q.body = d.body := by
  cases hurl : Url.parse? d.url with
  | none => simp [Demand.request?, hurl] at h
  | some url =>
    simp only [Demand.request?, hurl, Option.bind_eq_bind, Option.bind_some] at h
    split at h
    · cases h
      rfl
    · cases h

lemma Sends.requests_eq {token : Option String} {x : Except GatewayError Response}
    (h : Sends d token D x) : D.requests = (d.request? token).toList := by
  cases h with
  | unsendable h => rw [h]; rfl
  | lost h | answered h => rw [h]; rfl

lemma Obtains.requests_eq {reply : Reply TokenError AccessToken} (h : Obtains k D reply k') :
    D.requests = [] := by
  cases h <;> rfl

lemma Receives.requests_eq {r : Response} {reply : Reply GatewayError call.Answer}
    (h : Receives call r D reply) : D.requests = [] := by
  cases h <;> rfl

/-- No more than one request has been sent, and it is as told. -/
structure Diary.AtMostOne (P : Request → Prop) (D : Diary) : Prop where
  once : D.requests.length ≤ 1
  only : ∀ q ∈ D.requests, P q

namespace Diary.AtMostOne

variable {P Q : Request → Prop} {D' : Diary}

lemma of_nil (h : D.requests = []) : D.AtMostOne P :=
  ⟨by simp [h], by simp [h]⟩

lemma of_toList {q : Option Request} (h : D.requests = q.toList) (hP : ∀ r, q = some r → P r) :
    D.AtMostOne P := by
  refine ⟨?_, fun r mem => hP r ?_⟩
  · rw [h]
    exact Option.length_toList_le
  · rwa [h, Option.mem_toList] at mem

lemma imp (h : D.AtMostOne P) (hPQ : ∀ q, P q → Q q) : D.AtMostOne Q :=
  ⟨h.once, fun q mem => hPQ q (h.only q mem)⟩

lemma append (h : D.AtMostOne P) (none' : D'.requests = []) : (D ++ D').AtMostOne P := by
  have same : (D ++ D').requests = D.requests := by simp [none']
  exact ⟨same ▸ h.once, same ▸ h.only⟩

end Diary.AtMostOne

/-- What a demand sends is the request that it amounts to. -/
lemma Exchanges.atMostOne {reply : Reply GatewayError Response} (h : Exchanges d k D reply k') :
    D.AtMostOne fun q => ∃ token, d.request? token = some q := by
  cases h with
  | plain _ sends => exact .of_toList sends.requests_eq fun _ sent => ⟨_, sent⟩
  | @authorized _ _ t D D' _ _ obtains sends =>
    have sent : (D ++ D').requests = (d.request? (some t.text)).toList := by
      rw [Diary.requests_append, obtains.requests_eq, sends.requests_eq, List.nil_append]
    exact .of_toList sent fun _ sent => ⟨_, sent⟩
  | denied _ obtains => exact .of_nil obtains.requests_eq
  | overrun _ obtains => exact .of_nil obtains.requests_eq

/-- What a call sends is the request that it amounts to. -/
lemma Performs.atMostOne {reply : Reply GatewayError call.Answer} (h : Performs g call k D reply k') :
    D.AtMostOne fun q =>
      ∃ content token, Loads call (.ok content) ∧ (g.demand content call).request? token = some q := by
  cases h with
  | unread => exact .of_nil rfl
  | answered loads exchanges receives =>
    refine .append ?_ receives.requests_eq
    exact exchanges.atMostOne.imp fun _ ⟨token, sent⟩ => ⟨_, token, loads, sent⟩
  | failed loads exchanges | overrun loads exchanges =>
    exact exchanges.atMostOne.imp fun _ ⟨token, sent⟩ => ⟨_, token, loads, sent⟩

lemma Forgoes.atMostOne (h : Forgoes d k D k') :
    D.AtMostOne fun q => ∃ token, d.request? token = some q := by
  cases h with
  | @plain r _ sent =>
    refine .of_toList (q := some r) rfl ?_
    rintro _ ⟨rfl⟩
    exact ⟨_, sent⟩
  | untold => exact .of_nil rfl
  | @unanswered _ _ t D r _ obtains sent o =>
    have requests : Diary.requests (D ++ [.exchanged r o]) = (some r).toList := by
      rw [Diary.requests_append, obtains.requests_eq]
      rfl
    refine .of_toList requests ?_
    rintro _ ⟨rfl⟩
    exact ⟨_, sent⟩

/-- A call that is given up has sent no other request. -/
lemma Quits.atMostOne (h : Quits g call k D k') :
    D.AtMostOne fun q =>
      ∃ content token, Loads call (.ok content) ∧ (g.demand content call).request? token = some q := by
  cases h with
  | loading => exact .of_nil rfl
  | exchanging loads forgoes =>
    exact forgoes.atMostOne.imp fun _ ⟨token, sent⟩ => ⟨_, token, loads, sent⟩
  | writing loads exchanges =>
    exact .append (exchanges.atMostOne.imp fun _ ⟨token, sent⟩ => ⟨_, token, loads, sent⟩) rfl

/-- Only calls are waited for with a request. -/
lemma Awaits.atMostOne {w : Await} {reply : Reply TransferError w.Answer}
    (h : Awaits g w k D reply k') :
    D.AtMostOne fun q => ∃ call content token, w = .call call ∧ Loads call (.ok content) ∧
      (g.demand content call).request? token = some q := by
  cases h with
  | @call call _ _ _ _ performs | @callOverrun call _ _ _ _ performs =>
    exact performs.atMostOne.imp fun _ ⟨_, _, sent⟩ => ⟨call, _, _, rfl, sent⟩
  | @callCancelled call _ _ _ quits =>
    exact .append (quits.atMostOne.imp fun _ ⟨_, _, sent⟩ => ⟨call, _, _, rfl, sent⟩) rfl
  | _ => exact .of_nil rfl

/-- What has been given up has been so after a cancellation. -/
lemma Awaits.reply_of_cancelled {w : Await} {reply : Reply TransferError w.Answer}
    (h : Awaits g w k D reply k') (told : .cancelled ∈ D) : reply = .fail .cancelled := by
  cases h with
  | call performs | callOverrun performs =>
    cases performs.mem told with
    | demand h => cases h
  | callCancelled => rfl
  | refreshCancelled => rfl
  | pauseCancelled => rfl
  | _ => simp at told

/-- No error of a single wait names a file. -/
lemma Awaits.bare {w : Await} {e : TransferError} (h : Awaits g w k D (.fail e) k') (path : String)
    (source : TransferError) : e ≠ .download path source := by
  generalize failed : Reply.fail e = reply at h
  cases h with
  | @call _ _ _ _ x =>
    cases x with
    | ok x => cases failed
    | error e' =>
      cases failed
      cases e' <;> simp [TransferError.ofGateway]
  | callOverrun => cases failed
  | callCancelled =>
    cases failed
    simp
  | _ =>
    cases failed
    try simp

end

end StagedTransfer
