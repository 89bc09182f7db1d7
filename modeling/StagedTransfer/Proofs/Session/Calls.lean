import StagedTransfer.Proofs.Session.Errand

/-!
# What is written down of a call

Which request a call sends, with which token, where the token comes from and what the answer is made
of; and what there is of a call that is given up on the way. All of it is read off the errand.
-/

namespace StagedTransfer

open Http

/-! ### Requests -/

/-- What is written down when a demand is sent with a token or without, and what has come of it. -/
inductive Sends (d : Demand) (token : Option String) : Diary → Except GatewayError Response → Prop
  | unsendable (h : d.request? token = none) : Sends d token [] (.error (.http "builder error"))
  | lost {r : Request} (h : d.request? token = some r) (reason : String) :
    Sends d token [.exchanged r (.lost reason)] (.error (.http reason))
  | answered {r : Request} (h : d.request? token = some r) (response : Response) :
    Sends d token [.exchanged r (.answered response)] (.ok response)

/-- What is written down when a token is needed, with the tokens that are kept before and after. -/
inductive Obtains :
    Option AccessToken → Diary → Reply TokenError AccessToken → Option AccessToken → Prop
  | kept {k : Option AccessToken} {t : AccessToken} {now : Instant}
    (accepted : acceptedToken? k now = some t) : Obtains k [.looked now] (.ok t) k
  | granted {k : Option AccessToken} {now : Instant} (none' : acceptedToken? k now = none)
    (t : AccessToken) : Obtains k [.looked now, .granted (.ok t)] (.ok t) (some t)
  | denied {k : Option AccessToken} {now : Instant} (none' : acceptedToken? k now = none)
    (e : TokenError) : Obtains k [.looked now, .granted (.fail e)] (.fail e) k
  | overrun {k : Option AccessToken} {now : Instant} (none' : acceptedToken? k now = none)
    (o : Overrun) : Obtains k [.looked now, .granted (.overrun o)] (.overrun o) k

/-- What is written down of a demand and what has come of it. -/
inductive Exchanges (d : Demand) :
    Option AccessToken → Diary → Reply GatewayError Response → Option AccessToken → Prop
  | plain {D : Diary} {x : Except GatewayError Response} (plain : d.authorized = false)
    (sends : Sends d none D x) (k : Option AccessToken) : Exchanges d k D (.answered x) k
  | authorized {k k' : Option AccessToken} {t : AccessToken} {D D' : Diary}
    {x : Except GatewayError Response} (authorized : d.authorized = true)
    (obtains : Obtains k D (.ok t) k') (sends : Sends d (some t.text) D' x) :
    Exchanges d k (D ++ D') (.answered x) k'
  | denied {k k' : Option AccessToken} {D : Diary} {e : TokenError}
    (authorized : d.authorized = true) (obtains : Obtains k D (.fail e) k') :
    Exchanges d k D (.fail (.auth e)) k'
  | overrun {k k' : Option AccessToken} {D : Diary} {o : Overrun}
    (authorized : d.authorized = true) (obtains : Obtains k D (.overrun o) k') :
    Exchanges d k D (.overrun o) k'

/-! ### Calls -/

/-- The content that a call may send along. -/
inductive Loads : Call → Except GatewayError Bytes → Prop
  | nothing (call : Call) : Loads call (.ok [])
  | whole (file dir name : String) (x : Except GatewayError Bytes) :
    Loads (.uploadSmall file dir name) x

/-- What is written down of the response to a call, and the answer. -/
inductive Receives (call : Call) (r : Response) : Diary → Reply GatewayError call.Answer → Prop
  | read (h : call.destination? = none ∨ r.isSuccess = false) :
    Receives call r [] (.answered (call.read r))
  | wrote {file : String} (h : call.destination? = some file) (success : r.isSuccess = true) :
    Receives call r [.wrote file r.body (.ok ())] (.answered (call.read r))
  | unwritten {file : String} (h : call.destination? = some file) (success : r.isSuccess = true)
    (e : IoError) : Receives call r [.wrote file r.body (.error e)] (.fail (.io e))

/-- What is written down of a call, and the answer. -/
inductive Performs (g : Gateway) (call : Call) :
    Option AccessToken → Diary → Reply GatewayError call.Answer → Option AccessToken → Prop
  | unread {e : GatewayError} (loads : Loads call (.error e)) (k : Option AccessToken) :
    Performs g call k [] (.fail e) k
  | answered {content : Bytes} {k k' : Option AccessToken} {D D' : Diary} {r : Response}
    {reply : Reply GatewayError call.Answer} (loads : Loads call (.ok content))
    (exchanges : Exchanges (g.demand content call) k D (.ok r) k')
    (receives : Receives call r D' reply) : Performs g call k (D ++ D') reply k'
  | failed {content : Bytes} {k k' : Option AccessToken} {D : Diary} {e : GatewayError}
    (loads : Loads call (.ok content))
    (exchanges : Exchanges (g.demand content call) k D (.fail e) k') :
    Performs g call k D (.fail e) k'
  | overrun {content : Bytes} {k k' : Option AccessToken} {D : Diary} {o : Overrun}
    (loads : Loads call (.ok content))
    (exchanges : Exchanges (g.demand content call) k D (.overrun o) k') :
    Performs g call k D (.overrun o) k'

/-! ### Calls that are given up -/

/-- What is written down of a demand that is given up. -/
inductive Forgoes (d : Demand) : Option AccessToken → Diary → Option AccessToken → Prop
  | plain {r : Request} (plain : d.authorized = false) (sent : d.request? none = some r)
    (o : Outcome) (k : Option AccessToken) : Forgoes d k [.exchanged r o] k
  | untold {k : Option AccessToken} {now : Instant} (authorized : d.authorized = true)
    (none' : acceptedToken? k now = none) (reply : Reply TokenError AccessToken) :
    Forgoes d k [.looked now, .granted reply] k
  | unanswered {k k' : Option AccessToken} {t : AccessToken} {D : Diary} {r : Request}
    (authorized : d.authorized = true) (obtains : Obtains k D (.ok t) k')
    (sent : d.request? (some t.text) = some r) (o : Outcome) :
    Forgoes d k (D ++ [.exchanged r o]) k'

/-- What is written down of a call that is given up: before its request, after it or, if there is a
file to be written, after that. -/
inductive Quits (g : Gateway) : Call → Option AccessToken → Diary → Option AccessToken → Prop
  | loading (file dir name : String) (k : Option AccessToken) :
    Quits g (.uploadSmall file dir name) k [] k
  | exchanging {call : Call} {content : Bytes} {k k' : Option AccessToken} {D : Diary}
    (loads : Loads call (.ok content)) (forgoes : Forgoes (g.demand content call) k D k') :
    Quits g call k D k'
  | writing {call : Call} {content : Bytes} {k k' : Option AccessToken} {D : Diary} {r : Response}
    {file : String} (loads : Loads call (.ok content))
    (exchanges : Exchanges (g.demand content call) k D (.ok r) k')
    (destination : call.destination? = some file) (success : r.isSuccess = true)
    (result : Except IoError Unit) : Quits g call k (D ++ [.wrote file r.body result]) k'

/-! ### What is waited for -/

/-- What is written down of a wait before its end, and what has come of it. -/
inductive Awaits (g : Gateway) : (w : Await) → Option AccessToken → Diary →
    Reply TransferError w.Answer → Option AccessToken → Prop
  | call {call : Call} {k k' : Option AccessToken} {D : Diary} {x : Except GatewayError call.Answer}
    (performs : Performs g call k D (.answered x) k') :
    Awaits g (.call call) k D (.answered (x.mapError .ofGateway)) k'
  | callOverrun {call : Call} {k k' : Option AccessToken} {D : Diary} {o : Overrun}
    (performs : Performs g call k D (.overrun o) k') : Awaits g (.call call) k D (.overrun o) k'
  | callCancelled {call : Call} {k k' : Option AccessToken} {D : Diary}
    (quits : Quits g call k D k') :
    Awaits g (.call call) k (D ++ [.cancelled]) (.fail .cancelled) k'
  | tokenExpired (k : Option AccessToken) (now : Instant) :
    Awaits g .tokenExpired k [.looked now] (.ok (tokenMissing k now)) k
  | refresh (k : Option AccessToken) (t : AccessToken) :
    Awaits g .refresh k [.granted (.ok t)] (.ok ()) (some t)
  | denied (k : Option AccessToken) (e : TokenError) :
    Awaits g .refresh k [.granted (.fail e)] (.fail (.auth e)) k
  | refreshOverrun (k : Option AccessToken) (o : Overrun) :
    Awaits g .refresh k [.granted (.overrun o)] (.overrun o) k
  | refreshCancelled (k : Option AccessToken) (reply : Reply TokenError AccessToken) :
    Awaits g .refresh k [.granted reply, .cancelled] (.fail .cancelled) k
  | pause (d : Span) (k : Option AccessToken) : Awaits g (.pause d) k [] (.ok ()) k
  | pauseCancelled (d : Span) (k : Option AccessToken) :
    Awaits g (.pause d) k [.cancelled] (.fail .cancelled) k

/-! ### From errands -/

section

variable {g : Gateway} {D : Diary} {k k' : Option AccessToken}

lemma Sends.of_yields {d : Demand} {token : Option String} {x : Except GatewayError Response}
    (h : (Errand.ask d token).Yields k D x k') : Sends d token D x ∧ k' = k := by
  rw [Errand.ask] at h
  cases hr : d.request? token with
  | none =>
    rw [hr] at h
    obtain ⟨rfl, rfl, rfl⟩ := h.of_pure
    exact ⟨.unsendable hr, rfl⟩
  | some r =>
    rw [hr] at h
    obtain ⟨outcome, D, rfl, rest⟩ := h.of_leg
    cases outcome with
    | lost reason =>
      obtain ⟨rfl, rfl, rfl⟩ := rest.of_pure
      exact ⟨.lost hr reason, rfl⟩
    | answered response =>
      obtain ⟨rfl, rfl, rfl⟩ := rest.of_pure
      exact ⟨.answered hr response, rfl⟩

/-- What is written down when a new token is asked for. -/
lemma Errand.Yields.of_newToken {reply : Reply TokenError AccessToken}
    (h : Errand.newToken.Yields k D reply k') :
    D = [.granted reply] ∧ ((∃ t, reply = .ok t ∧ k' = some t) ∨ (∀ t, reply ≠ .ok t) ∧ k' = k) := by
  obtain ⟨granted, D, rfl, rest⟩ := h.of_leg
  rcases granted with (e | t) | o
  · obtain ⟨rfl, rfl, rfl⟩ := rest.of_pure
    exact ⟨rfl, .inr ⟨nofun, rfl⟩⟩
  · obtain ⟨rfl, rfl, rfl⟩ := rest.of_keep.of_pure
    exact ⟨rfl, .inl ⟨t, rfl, rfl⟩⟩
  · obtain ⟨rfl, rfl, rfl⟩ := rest.of_pure
    exact ⟨rfl, .inr ⟨nofun, rfl⟩⟩

lemma Errand.Drops.of_newToken (h : Errand.newToken.Drops k D k') :
    ∃ reply, D = [.granted reply] ∧ k' = k := by
  rcases h.of_leg with ⟨reply, rfl, rfl⟩ | ⟨reply, D, -, rest⟩
  · exact ⟨reply, rfl, rfl⟩
  · rcases reply with (e | t) | o
    · exact rest.of_pure.elim
    · cases rest with
      | keep rest => exact rest.of_pure.elim
    · exact rest.of_pure.elim

lemma Obtains.of_yields {reply : Reply TokenError AccessToken}
    (h : Errand.currentToken.Yields k D reply k') : Obtains k D reply k' := by
  obtain ⟨now, D, rfl, rest⟩ := h.of_consult
  cases accepted : acceptedToken? k now with
  | some t =>
    rw [accepted] at rest
    obtain ⟨rfl, rfl, rfl⟩ := rest.of_pure
    exact .kept accepted
  | none =>
    rw [accepted] at rest
    obtain ⟨rfl, ⟨t, rfl, rfl⟩ | ⟨refused, rfl⟩⟩ := Errand.Yields.of_newToken rest
    · exact .granted accepted t
    · rcases reply with (e | t) | o
      · exact .denied accepted e
      · exact absurd rfl (refused t)
      · exact .overrun accepted o

lemma Exchanges.of_yields {d : Demand} {reply : Reply GatewayError Response}
    (h : (Errand.exchange d).Yields k D reply k') : Exchanges d k D reply k' := by
  rw [Errand.exchange] at h
  cases authorized : d.authorized with
  | false =>
    rw [authorized, if_neg Bool.false_ne_true] at h
    obtain ⟨D, _, x, _, rfl, asks, rest⟩ := h.of_bind
    obtain ⟨sends, rfl⟩ := Sends.of_yields asks
    obtain ⟨rfl, rfl, rfl⟩ := rest.of_pure
    rw [List.append_nil]
    exact .plain authorized sends _
  | true =>
    rw [authorized, if_pos rfl] at h
    obtain ⟨D, D', granted, k₁, rfl, known, further⟩ := h.of_bind
    have obtains := Obtains.of_yields known
    rcases granted with (e | t) | o
    · obtain ⟨rfl, rfl, rfl⟩ := further.of_pure
      rw [List.append_nil]
      exact .denied authorized obtains
    · obtain ⟨D', _, x, _, rfl, asks, rest⟩ := Errand.Yields.of_bind further
      obtain ⟨sends, rfl⟩ := Sends.of_yields asks
      obtain ⟨rfl, rfl, rfl⟩ := rest.of_pure
      rw [List.append_nil]
      exact .authorized authorized obtains sends
    · obtain ⟨rfl, rfl, rfl⟩ := further.of_pure
      rw [List.append_nil]
      exact .overrun authorized obtains

lemma Loads.of_yields {call : Call} {x : Except GatewayError Bytes}
    (h : (Errand.load g call).Yields k D x k') : Loads call x ∧ D = [] ∧ k' = k := by
  cases call with
  | uploadSmall file dir name =>
    obtain ⟨size, D, rfl, rest⟩ := h.of_leg
    cases size with
    | error e =>
      obtain ⟨rfl, rfl, rfl⟩ := rest.of_pure
      exact ⟨.whole .., rfl, rfl⟩
    | ok size =>
      dsimp only at rest
      split at rest
      · obtain ⟨rfl, rfl, rfl⟩ := rest.of_pure
        exact ⟨.whole .., rfl, rfl⟩
      · obtain ⟨content, D, rfl, rest⟩ := rest.of_leg
        obtain ⟨rfl, rfl, rfl⟩ := rest.of_pure
        exact ⟨.whole .., rfl, rfl⟩
  | _ =>
    obtain ⟨rfl, rfl, rfl⟩ := h.of_pure
    exact ⟨.nothing _, rfl, rfl⟩

lemma Receives.of_yields {call : Call} {r : Response} {reply : Reply GatewayError call.Answer}
    (h : (Errand.receive call r).Yields k D reply k') : Receives call r D reply ∧ k' = k := by
  rw [Errand.receive] at h
  split at h
  · next file destination success =>
    obtain ⟨result, D, rfl, rest⟩ := h.of_leg
    cases result with
    | error e =>
      obtain ⟨rfl, rfl, rfl⟩ := rest.of_pure
      exact ⟨.unwritten destination success e, rfl⟩
    | ok _ =>
      obtain ⟨rfl, rfl, rfl⟩ := rest.of_pure
      exact ⟨.wrote destination success, rfl⟩
  · next elsewhere =>
    obtain ⟨rfl, rfl, rfl⟩ := h.of_pure
    refine ⟨.read ?_, rfl⟩
    cases destination : call.destination? with
    | none => exact .inl rfl
    | some file => exact .inr (Bool.eq_false_iff.2 fun success => elsewhere file destination success)

/-- What is written down of a call that comes to an answer. -/
theorem Performs.of_yields {call : Call} {reply : Reply GatewayError call.Answer}
    (h : (Errand.perform g call).Yields k D reply k') : Performs g call k D reply k' := by
  obtain ⟨_, D, x, _, rfl, load, rest⟩ := h.of_bind
  obtain ⟨loads, rfl, rfl⟩ := Loads.of_yields load
  rw [List.nil_append]
  cases x with
  | error e =>
    obtain ⟨rfl, rfl, rfl⟩ := rest.of_pure
    exact .unread loads _
  | ok content =>
    obtain ⟨D, D', response, _, rfl, exchanges, rest⟩ := Errand.Yields.of_bind rest
    have exchanges := Exchanges.of_yields exchanges
    rcases response with (e | r) | o
    · obtain ⟨rfl, rfl, rfl⟩ := rest.of_pure
      rw [List.append_nil]
      exact .failed loads exchanges
    · obtain ⟨receives, rfl⟩ := Receives.of_yields rest
      exact .answered loads exchanges receives
    · obtain ⟨rfl, rfl, rfl⟩ := rest.of_pure
      rw [List.append_nil]
      exact .overrun loads exchanges

lemma Forgoes.of_drops {d : Demand} (h : (Errand.exchange d).Drops k D k') : Forgoes d k D k' := by
  -- the only leg of a demand that can be sent is its request
  have asked {token : Option String} {D : Diary} {k : Option AccessToken}
      (h : (Errand.ask d token).Drops k D k') :
      ∃ r o, d.request? token = some r ∧ D = [.exchanged r o] ∧ k' = k := by
    rw [Errand.ask] at h
    cases sent : d.request? token with
    | none =>
      rw [sent] at h
      exact h.of_pure.elim
    | some r =>
      rw [sent] at h
      rcases h.of_leg with ⟨o, rfl, rfl⟩ | ⟨o, _, -, rest⟩
      · exact ⟨r, o, rfl, rfl, rfl⟩
      · cases o <;> exact rest.of_pure.elim
  rw [Errand.exchange] at h
  cases authorized : d.authorized with
  | false =>
    rw [authorized, if_neg Bool.false_ne_true] at h
    obtain ⟨r, o, sent, rfl, rfl⟩ := asked h.of_map
    exact .plain authorized sent o _
  | true =>
    rw [authorized, if_pos rfl] at h
    rcases h.of_bind with untold | ⟨D, D', reply, k₁, rfl, known, rest⟩
    · obtain ⟨now, D, rfl, rest⟩ := untold.of_consult
      cases accepted : acceptedToken? k now with
      | some t =>
        rw [accepted] at rest
        exact rest.of_pure.elim
      | none =>
        rw [accepted] at rest
        obtain ⟨reply, rfl, rfl⟩ := Errand.Drops.of_newToken rest
        exact .untold authorized accepted reply
    · rcases reply with (e | t) | o
      · exact rest.of_pure.elim
      · obtain ⟨r, o, sent, rfl, rfl⟩ := asked (Errand.Drops.of_map rest)
        exact .unanswered authorized (.of_yields known) sent o
      · exact rest.of_pure.elim

lemma Quits.of_loading {call : Call} (h : (Errand.load g call).Drops k D k') :
    Quits g call k D k' := by
  cases call with
  | uploadSmall file dir name =>
    rcases h.of_leg with ⟨_, rfl, rfl⟩ | ⟨size, D, rfl, rest⟩
    · exact .loading file dir name _
    cases size with
    | error e => exact rest.of_pure.elim
    | ok size =>
      dsimp only at rest
      split at rest
      · exact rest.of_pure.elim
      · rcases rest.of_leg with ⟨_, rfl, rfl⟩ | ⟨_, _, -, mapped⟩
        · exact .loading file dir name _
        · exact mapped.of_pure.elim
  | _ => exact h.of_pure.elim

lemma Quits.of_writing {call : Call} {content : Bytes} {r : Response} {D' : Diary}
    {k'' : Option AccessToken} (loads : Loads call (.ok content))
    (exchanges : Exchanges (g.demand content call) k D (.ok r) k')
    (h : (Errand.receive call r).Drops k' D' k'') : Quits g call k (D ++ D') k'' := by
  rw [Errand.receive] at h
  split at h
  · next file destination success =>
    rcases h.of_leg with ⟨result, rfl, rfl⟩ | ⟨result, _, -, rest⟩
    · exact .writing loads exchanges destination success result
    · cases result <;> exact rest.of_pure.elim
  · exact h.of_pure.elim

/-- What is written down of a call that is given up. -/
theorem Quits.of_drops {call : Call} (h : (Errand.perform g call).Drops k D k') :
    Quits g call k D k' := by
  rcases h.of_bind with loading | ⟨_, D, x, _, rfl, load, rest⟩
  · exact .of_loading loading
  obtain ⟨loads, rfl, rfl⟩ := Loads.of_yields load
  rw [List.nil_append]
  cases x with
  | error e => exact rest.of_pure.elim
  | ok content =>
    rcases Errand.Drops.of_bind rest with forgoes | ⟨D, D', reply, _, rfl, exchanges, writing⟩
    · exact .exchanging loads (.of_drops forgoes)
    · have exchanges := Exchanges.of_yields exchanges
      rcases reply with (e | r) | o
      · exact writing.of_pure.elim
      · exact .of_writing loads exchanges writing
      · exact writing.of_pure.elim

/-- What is written down of an errand of a transfer. -/
theorem Awaits.of_heeds {w : Await} {r : Option (Reply TransferError w.Answer)}
    (h : Client.Heeds (.await g w) k D r k') : Awaits g w k D (r.getD (.fail .cancelled)) k' := by
  cases w with
  | call call =>
    cases h with
    | done yields =>
      obtain ⟨D, _, reply, _, rfl, performs, rest⟩ := yields.of_bind
      obtain ⟨rfl, rfl, rfl⟩ := rest.of_pure
      have performs := Performs.of_yields performs
      rw [List.append_nil]
      rcases reply with (e | x) | o
      · exact .call performs
      · exact .call performs
      · exact .callOverrun performs
    | dropped drops => exact .callCancelled (.of_drops drops.of_map)
  | tokenExpired =>
    cases h with
    | done yields =>
      obtain ⟨now, D, rfl, rest⟩ := yields.of_consult
      obtain ⟨rfl, rfl, rfl⟩ := rest.of_pure
      exact .tokenExpired _ now
    | dropped drops =>
      cases drops with
      | consult now rest => exact rest.of_pure.elim
  | refresh =>
    cases h with
    | done yields =>
      obtain ⟨D, _, reply, _, rfl, asks, rest⟩ := yields.of_bind
      obtain ⟨rfl, rfl, rfl⟩ := rest.of_pure
      obtain ⟨rfl, ⟨t, rfl, rfl⟩ | ⟨refused, rfl⟩⟩ := Errand.Yields.of_newToken asks
      · exact .refresh k t
      · rcases reply with (e | t) | o
        · exact .denied _ e
        · exact absurd rfl (refused t)
        · exact .refreshOverrun _ o
    | dropped drops =>
      obtain ⟨reply, rfl, rfl⟩ := Errand.Drops.of_newToken drops.of_map
      exact .refreshCancelled _ reply
  | pause d =>
    cases h with
    | done yields =>
      obtain ⟨_, D, rfl, rest⟩ := yields.of_leg
      obtain ⟨rfl, rfl, rfl⟩ := rest.of_pure
      exact .pause d _
    | dropped drops =>
      cases drops with
      | here => exact .pauseCancelled d k
      | later _ rest => exact rest.of_pure.elim

end

end StagedTransfer
