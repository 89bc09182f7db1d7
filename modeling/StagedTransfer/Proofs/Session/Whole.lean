import StagedTransfer.Proofs.Session.Origins
import StagedTransfer.Proofs.Session.Storing
import StagedTransfer.Proofs.Token.Step
import StagedTransfer.Transfer.Operations

/-!
# Whole files

What is sent in a single request is what is found in the file, as long as the file stays as it is from
look to look. The request is sent if a token can be had for it, and no more than this one.
-/

namespace StagedTransfer

open Activity Http Wire

/-! ### Demands that need a token -/

/-- What comes of a demand that needs a token: its request is sent with a token that has been kept
or granted, and none is sent if no token has been granted. -/
inductive Demand.Asked (d : Demand) (k : Option AccessToken) (D : Diary) : Prop
  | sent {t : AccessToken} (known : k = some t ∨ .granted (.ok t) ∈ D)
    (requests : D.requests = (d.request? (some t.text)).toList)
  | denied {reply : Reply TokenError AccessToken} (granted : .granted reply ∈ D)
    (refused : ∀ t, reply ≠ .ok t) (requests : D.requests = [])

lemma Obtains.known {k k' : Option AccessToken} {D : Diary} {t : AccessToken}
    (h : Obtains k D (.ok t) k') : k = some t ∨ .granted (.ok t) ∈ D := by
  generalize same : Reply.ok t = reply at h
  cases h with
  | kept accepted =>
    cases same
    exact .inl (acceptedToken?_eq_some_iff.1 accepted).1
  | granted =>
    cases same
    exact .inr (by simp)
  | denied | overrun => cases same

lemma Obtains.granted_mem {k k' : Option AccessToken} {D : Diary}
    {reply : Reply TokenError AccessToken} (h : Obtains k D reply k')
    (refused : ∀ t, reply ≠ .ok t) : .granted reply ∈ D := by
  cases h with
  | kept | granted => exact absurd rfl (refused _)
  | denied | overrun => simp

lemma Exchanges.asked {d : Demand} {k k' : Option AccessToken} {D : Diary}
    {reply : Reply GatewayError Response} (h : Exchanges d k D reply k')
    (authorized : d.authorized = true) : d.Asked k D := by
  cases h with
  | plain plain => cases plain.symm.trans authorized
  | authorized _ obtains sends =>
    refine .sent (obtains.known.imp_right (List.mem_append_left _)) ?_
    rw [Diary.requests_append, obtains.requests_eq, sends.requests_eq, List.nil_append]
  | denied _ obtains | overrun _ obtains =>
    exact .denied (obtains.granted_mem (by nofun)) (by nofun) obtains.requests_eq

/-! ### Looks at a file -/

namespace Client

variable {S : Type} (c : Client (StateM S))

/-- What is found of a file by whoever chooses the way of it and then sends it as a whole: its size,
its size once more, and its content. -/
def looks (file : String) :
    StateM S (Except IoError Nat × Except IoError Nat × Except IoError Bytes) := do
  let size ← c.around.size file
  let _ ← c.around.cancelled
  let again ← c.around.size file
  let _ ← c.around.cancelled
  return (size, again, ← c.around.content file)

/-- A file of a size and with a content is found as it is from look to look. -/
def Finds (file : String) (size : Nat) (content : Except IoError Bytes) (s : S) : Prop :=
  (c.looks file s).1 = (.ok size, .ok size, content)

variable {c}

lemma Finds.each {file : String} {size : Nat} {content : Except IoError Bytes} {s : S}
    (found : c.Finds file size content s) :
    let next := (c.around.cancelled (c.around.size file s).2).2
    (c.around.size file s).1 = .ok size ∧ (c.around.size file next).1 = .ok size ∧
      (c.around.content file (c.around.cancelled (c.around.size file next).2).2).1 = content := by
  intro next
  have whole : ((c.around.size file s).1, (c.around.size file next).1,
      (c.around.content file (c.around.cancelled (c.around.size file next).2).2).1) =
        (.ok size, .ok size, content) := found
  simpa only [Prod.mk.injEq] using whole

end Client

lemma Disk.size_of_content {d : Disk} {path : String} {contents : Bytes}
    (held : d.content path = .ok contents) : d.size path = .ok contents.length := by
  simp only [content, size] at held ⊢
  cases found : d.entry path with
  | error e =>
    rw [found] at held
    cases held
  | ok entry =>
    rw [found] at held
    cases entry with
    | file _ =>
      obtain rfl := Except.ok.inj held
      rfl
    | folder => cases held

/-- A file on a disk on which nothing but the session writes is found as it is. -/
theorem FarSide.finds {σ : Type} (f : FarSide σ) (g : Gateway)
    (source : StateM (Site σ) (Reply TokenError AccessToken)) {file : String} {contents : Bytes}
    {x : Site σ} (held : x.disk.content file = .ok contents) :
    (f.client g source).Finds file contents.length (.ok contents) x := by
  change (x.disk.size file, x.disk.size file, x.disk.content file) = _
  rw [Disk.size_of_content held, held]

/-! ### A file in a request -/

/-- What is written down of a direct upload. -/
inductive Delivers (g : Gateway) (dir name : String) (k : Option AccessToken) :
    Except IoError Bytes → Diary → Prop
  | unread (e : IoError) : Delivers g dir name k (.error e) []
  | asked {contents : Bytes} {D : Diary} (asked : (g.sendWhole dir name contents).Asked k D) :
    Delivers g dir name k (.ok contents) D

/-- No request has been sent but one that sends the whole file. -/
def Diary.SendsOnly (g : Gateway) (dir name : String) (content : Except IoError Bytes) (D : Diary) :
    Prop :=
  D.AtMostOne fun q => ∃ contents token, content = .ok contents ∧
    (g.sendWhole dir name contents).request? token = some q

/-- What is written down of a call that sends a whole file until it is given up or answered, and the
answer. -/
inductive Conveys (g : Gateway) (dir name : String) (content : Except IoError Bytes)
    (k : Option AccessToken) : Diary → Option (Reply GatewayError Unit) → Prop
  | dropped {D : Diary} (told : .cancelled ∈ D) (only : D.SendsOnly g dir name content) :
    Conveys g dir name content k D none
  | answered {D : Diary} {reply : Reply GatewayError Unit}
    (delivers : Delivers g dir name k content D)
    (fits : ∀ size limit, reply ≠ .fail (.fileTooLarge size limit)) :
    Conveys g dir name content k D (some reply)

/-- What is written down of a call that sends a whole file, with the reply. -/
inductive SentWhole (g : Gateway) (dir name : String) (content : Except IoError Bytes)
    (k : Option AccessToken) : Diary → Except Stop Unit → Prop
  | cancelled {D : Diary} (told : .cancelled ∈ D) (only : D.SendsOnly g dir name content) :
    SentWhole g dir name content k D (.error (.failed .cancelled))
  | answered {D rest : Diary} {reply : Reply TransferError Unit}
    (delivers : Delivers g dir name k content D) (bare : rest.requests = [])
    (fits : ∀ size limit, reply ≠ .fail (.fileTooLarge size limit)) :
    SentWhole g dir name content k (D ++ rest) reply.ended

namespace Client

variable {S : Type} {c : Client (StateM S)} {file dir name : String} {n : Nat}
  {content : Except IoError Bytes} {v : Session} {s : S}

/-- A leg of which nothing is written down is the last one, or the errand goes on with its answer. -/
lemma comes_go {α : Type} {l : Leg} {next : l.Answer → Errand α} {D : Diary}
    {Q : Option α → Session → S × Diary → Prop} (silent : ∀ x, l.entries x = [])
    (dropped : Q none v ((c.around.cancelled (c.meet l s).2).2, D ++ [.cancelled]))
    (goesOn : (c.written.heed (next (c.meet l s).1)).Comes v
      ((c.around.cancelled (c.meet l s).2).2, D) Q) :
    (c.written.heed (.go l next)).Comes v (s, D) Q := by
  have met : c.written.meet l (s, D) = ((c.meet l s).1, (c.meet l s).2, D) := by
    have written : c.written.meet l (s, D) =
        ((c.meet l s).1, (c.meet l s).2, D ++ l.entries (c.meet l s).1) := by
      cases l <;> rfl
    rw [written, silent, List.append_nil]
  refine Visit.Comes.bind (P := fun x w p => x = (c.meet l s).1 ∧ w = v ∧ p = ((c.meet l s).2, D))
    ⟨congrArg Prod.fst met, rfl, congrArg Prod.snd met⟩ ?_
  rintro _ w _ ⟨rfl, rfl, rfl⟩
  refine Visit.Comes.bind (P := fun told u p => u = w ∧
    p = ((c.around.cancelled (c.meet l s).2).2, D ++ if told then [.cancelled] else []))
    ⟨rfl, rfl⟩ ?_
  rintro told u _ ⟨rfl, rfl⟩
  cases told with
  | true => exact dropped
  | false =>
    simpa using goesOn

/-- The content of a file that is not too large is that which is found. -/
lemma comes_load_uploadSmall (again : (c.around.size file s).1 = .ok n)
    (small : n ≤ c.gateway.smallLimit)
    (found : (c.around.content file (c.around.cancelled (c.around.size file s).2).2).1 = content)
    (D : Diary) :
    (c.written.heed (.load c.gateway (.uploadSmall file dir name))).Comes v (s, D) fun x w p =>
      w = v ∧ (x = none ∧ p.2 = D ++ [.cancelled] ∨ x = some (content.mapError .io) ∧ p.2 = D) := by
  -- the size is looked at once more before the content is
  refine comes_go (fun _ => rfl) ⟨rfl, .inl ⟨rfl, rfl⟩⟩ ?_
  have fits : ¬c.gateway.smallLimit < n := Nat.not_lt.2 small
  have size : (c.meet (.size file) s).1 = .ok n := again
  rw [size]
  change (c.written.heed (if c.gateway.smallLimit < n
    then pure (.error (GatewayError.fileTooLarge n c.gateway.smallLimit))
    else .go (.content file) fun x => pure (x.mapError GatewayError.io))).Comes _ _ _
  rw [if_neg fits]
  refine comes_go (fun _ => rfl) ⟨rfl, .inl ⟨rfl, rfl⟩⟩ ?_
  exact ⟨rfl, .inr ⟨congrArg (fun x => some (Except.mapError _ x)) found, rfl⟩⟩

/-- What is written down once the content has been found. -/
lemma comes_sendWhole (contents : Bytes) (D : Diary) :
    (c.written.heed (Errand.exchange (c.gateway.sendWhole dir name contents) >>= fun r =>
      r.andThen (Errand.receive (.uploadSmall file dir name)))).Comes v (s, D) fun x _ p =>
        ∃ D', p.2 = D ++ D' ∧ Conveys c.gateway dir name (.ok contents) v.token D' x := by
  refine (c.writes_heed v _ s D).imp ?_
  rintro x u p ⟨D', written, heeds⟩
  refine ⟨D', written, ?_⟩
  -- An errand that has been given up may have sent the file, but not more than once.
  cases heeds with
  | done yields =>
    obtain ⟨D₁, D₂, reply, _, rfl, exchanged, rest⟩ := yields.of_bind
    have exchanges := Exchanges.of_yields exchanged
    have asked : (c.gateway.sendWhole dir name contents).Asked v.token D₁ := exchanges.asked rfl
    rcases reply with (e | r) | o
    · obtain ⟨rfl, rfl, rfl⟩ := rest.of_pure
      rw [List.append_nil]
      refine .answered (.asked asked) fun size limit same => ?_
      cases same
      exact exchanges.fitting size limit rfl
    · obtain ⟨rfl, rfl, rfl⟩ := rest.of_pure
      rw [List.append_nil]
      refine .answered (.asked asked) fun size limit same => ?_
      exact Fitting.read r (.uploadSmall file dir name) size limit (Reply.answered.inj same)
    · obtain ⟨rfl, rfl, rfl⟩ := rest.of_pure
      rw [List.append_nil]
      exact .answered (.asked asked) nofun
  | @dropped D' _ drops =>
    have told : Entry.cancelled ∈ D' ++ [.cancelled] := by simp
    rcases drops.of_bind with forgoes | ⟨_, _, reply, _, -, -, received⟩
    · refine .dropped told (.append ?_ rfl)
      refine (Forgoes.of_drops forgoes).atMostOne.imp ?_
      rintro q ⟨token, sent⟩
      exact ⟨contents, token, rfl, sent⟩
    · rcases reply with (e | r) | o <;> exact received.of_pure.elim

/-- A whole file is sent as it is found, and is not too large. -/
lemma comes_perform (again : (c.around.size file s).1 = .ok n) (small : n ≤ c.gateway.smallLimit)
    (found : (c.around.content file (c.around.cancelled (c.around.size file s).2).2).1 = content)
    (D : Diary) :
    (c.written.heed (.perform c.gateway (.uploadSmall file dir name))).Comes v (s, D) fun x _ p =>
      ∃ D', p.2 = D ++ D' ∧ Conveys c.gateway dir name content v.token D' x := by
  rw [Errand.perform, heed_bind]
  apply (comes_load_uploadSmall again small found D).bind
  rintro _ w ⟨s, _⟩ ⟨rfl, ⟨rfl, rfl⟩ | ⟨rfl, rfl⟩⟩
  · exact ⟨[.cancelled], rfl, .dropped (List.mem_singleton_self _) (.of_nil rfl)⟩
  cases content with
  | error e =>
    refine ⟨[], (List.append_nil _).symm, .answered (.unread e) fun size limit same => ?_⟩
    cases same
  | ok contents => exact comes_sendWhole contents _

lemma comes_await_uploadSmall (again : (c.around.size file s).1 = .ok n)
    (small : n ≤ c.gateway.smallLimit)
    (found : (c.around.content file (c.around.cancelled (c.around.size file s).2).2).1 = content) :
    (c.keeping.await (.call (.uploadSmall file dir name))).Comes v (s, []) fun reply _ p =>
      SentWhole c.gateway dir name content v.token p.2 reply.ended := by
  have heeded : (c.written.heed (.await c.gateway (.call (.uploadSmall file dir name)))).Comes v (s, [])
      fun x _ p => ∀ note : Reply TransferError Unit,
        SentWhole c.gateway dir name content v.token
          (p.2 ++ [.awaited (.call (.uploadSmall file dir name)) note])
          (Reply.ended (x.getD (.fail .cancelled))) := by
    rw [Errand.await, heed_bind]
    apply (comes_perform again small found []).bind
    rintro x w ⟨s, _⟩ ⟨D, rfl, conveys⟩
    cases conveys with
    | dropped told only =>
      exact fun note => .cancelled (List.mem_append_left _ told) (.append only rfl)
    | @answered reply delivers fits =>
      have fits' (size limit : Nat) :
          reply.mapError TransferError.ofGateway ≠ .fail (.fileTooLarge size limit) := by
        intro same
        rcases reply with (e | x) | o
        · obtain rfl := TransferError.ofGateway_eq_fileTooLarge
            (Except.error.inj (Reply.answered.inj same))
          exact fits size limit rfl
        · cases same
        · cases same
      exact fun note => .answered delivers rfl fits'
  exact heeded _

/-- The call that sends a whole file among surroundings that leave the file as it is. -/
lemma sent_uploadSmall (again : (c.around.size file (c.around.cancelled s).2).1 = .ok n)
    (small : n ≤ c.gateway.smallLimit)
    (found : (c.around.content file
      (c.around.cancelled (c.around.size file (c.around.cancelled s).2).2).2).1 = content) :
    SentWhole c.gateway dir name content v.token
      (c.diary (Activity.call (.uploadSmall file dir name)) v s)
      (c.run (Activity.call (.uploadSmall file dir name)) v s).1.1 := by
  have sent : ((Activity.call (.uploadSmall file dir name)).run c.keeping).Comes v (s, [])
      fun r _ p => SentWhole c.gateway dir name content v.token p.2 r := by
    rw [Activity.call, awaiting, Activity.run]
    refine Visit.Comes.bind (P := fun told w p => w = v ∧
      p = ((c.around.cancelled s).2, if told then [.cancelled] else [])) ⟨rfl, rfl⟩ ?_
    rintro told w _ ⟨rfl, rfl⟩
    cases told with
    | true => exact .cancelled (List.mem_singleton_self _) (.of_nil rfl)
    | false =>
      refine Visit.Comes.bind (comes_await_uploadSmall again small found) ?_
      rintro ((e | x) | o) u p sent
      · exact sent
      · exact sent
      · exact sent
  rw [Visit.Comes, run_keeping] at sent
  exact sent

end Client

/-! ### What goes out -/

/-- Nothing has been cancelled, and no token refused that was asked for. -/
def Entry.allows : Entry → Bool
  | .cancelled                   => false
  | .granted (.answered (.ok _)) => true
  | .granted _                   => false
  | _                            => true

/-- What a diary tells of a file that goes as a whole: no more goes out than the file, and it does if
it has a remote name and can be read, if nothing is cancelled, and if there is a token with which the
request can be made. -/
structure GoesWhole {α : Type} (g : Gateway) (k : Option AccessToken) (remote : String)
    (content : Except IoError Bytes) (D : Diary) (r : Except Stop α) : Prop where
  requests : D.AtMostOne fun q => ∃ dir name contents token,
    RemotePath.split remote = .ok (dir, name) ∧ content = .ok contents ∧
      (g.sendWhole dir name contents).request? token = some q
  misnamed : ∀ e, RemotePath.split remote = .error e → D = [] ∧ r = .error (.failed (.chunk e))
  sent : ∀ dir name contents, RemotePath.split remote = .ok (dir, name) → content = .ok contents →
    (∀ x ∈ D, x.allows) →
    (∀ t, k = some t ∨ .granted (.ok t) ∈ D →
      ((g.sendWhole dir name contents).request? (some t.text)).isSome) →
    D.requests.length = 1
  fits : ∀ size limit, r ≠ outsized size limit

section

variable {g : Gateway} {remote dir name : String} {content : Except IoError Bytes}
  {k : Option AccessToken} {D : Diary} {r : Except Stop Unit}

lemma SentWhole.ne_outsized (h : SentWhole g dir name content k D r) (size limit : Nat) :
    r ≠ outsized size limit := by
  cases h with
  | cancelled => nofun
  | @answered _ _ reply _ _ fits =>
    intro failed
    rcases reply with (e | x) | o
    · cases failed
      exact fits size limit rfl
    · cases failed
    · cases failed

/-- A denied token is one that the diary does not allow. -/
lemma not_allows_of_refused {reply : Reply TokenError AccessToken} (refused : ∀ t, reply ≠ .ok t) :
    (Entry.granted reply).allows = false := by
  rcases reply with (e | t) | o
  · rfl
  · exact absurd rfl (refused t)
  · rfl

lemma SentWhole.goesWhole (h : SentWhole g dir name content k D r)
    (split : RemotePath.split remote = .ok (dir, name)) : GoesWhole g k remote content D r := by
  have misnamed (e : ChunkError) (failed : RemotePath.split remote = .error e) :
      D = [] ∧ r = .error (.failed (.chunk e)) := by
    cases split.symm.trans failed
  have fits := h.ne_outsized
  cases h with
  | cancelled told only =>
    refine ⟨only.imp ?_, misnamed, fun _ _ _ _ _ allowed => ?_, fits⟩
    · rintro q ⟨contents, token, rfl, sent⟩
      exact ⟨dir, name, contents, token, split, rfl, sent⟩
    · cases allowed _ told
  | @answered D rest _ delivers bare _ =>
    have requests : (D ++ rest).requests = D.requests := by
      rw [Diary.requests_append, bare, List.append_nil]
    cases delivers with
    | unread e => exact ⟨.of_nil requests, misnamed, nofun, fits⟩
    | @asked contents _ asked =>
      cases asked with
      | @sent t known sent =>
        refine ⟨.of_toList (requests.trans sent) fun q sent => ⟨_, _, _, _, split, rfl, sent⟩,
          misnamed, ?_, fits⟩
        rintro dir' name' _ split' ⟨⟩ - sendable
        cases split.symm.trans split'
        have made := sendable t (known.imp_right (List.mem_append_left _))
        obtain ⟨q, hq⟩ := Option.isSome_iff_exists.1 made
        rw [requests, sent, hq]
        rfl
      | denied granted refused sent =>
        refine ⟨.of_nil (requests.trans sent), misnamed, fun _ _ _ _ _ allowed => ?_, fits⟩
        have kept := allowed _ (List.mem_append_left _ granted)
        cases (not_allows_of_refused refused).symm.trans kept

variable {α β : Type} {r : Except Stop α}

/-- What is made of the value of a transfer changes nothing that goes out. -/
lemma GoesWhole.map (h : GoesWhole g k remote content D r) (f : α → β) :
    GoesWhole g k remote content D (r.map f) where
  requests := h.requests
  misnamed e failed := by
    obtain ⟨rfl, rfl⟩ := h.misnamed e failed
    exact ⟨rfl, rfl⟩
  sent := h.sent
  fits size limit failed := h.fits size limit (eq_outsized_of_map failed)

end

namespace Client

variable {S : Type} {c : Client (StateM S)} {file remote : String} {n : Nat}
  {content : Except IoError Bytes} {v : Session} {s : S}

/-- A file that is not too large goes as a whole, or not at all. -/
theorem goesWhole_uploadSmall
    (again : (c.around.size file (c.around.cancelled s).2).1 = .ok n)
    (small : n ≤ c.gateway.smallLimit)
    (found : (c.around.content file
      (c.around.cancelled (c.around.size file (c.around.cancelled s).2).2).2).1 = content) :
    GoesWhole c.gateway v.token remote content (c.diary (Profile.uploadSmall file remote) v s)
      (c.run (Profile.uploadSmall file remote) v s).1.1 := by
  cases split : RemotePath.split remote with
  | error e =>
    have misnamed : Profile.uploadSmall file remote = fail (.chunk e) := by
      rw [Profile.uploadSmall, split]
      rfl
    rw [misnamed]
    refine ⟨.of_nil rfl, fun e' failed => ⟨rfl, ?_⟩, by simp [split], nofun⟩
    obtain rfl := Except.error.inj (split.symm.trans failed)
    rfl
  | ok path =>
    have named : Profile.uploadSmall file remote =
        Activity.call (.uploadSmall file path.1 path.2) := by
      rw [Profile.uploadSmall, split]
      rfl
    rw [named]
    exact (sent_uploadSmall again small found).goesWhole split

end Client

end StagedTransfer
