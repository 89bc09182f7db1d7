import StagedTransfer.Proofs.Disk
import StagedTransfer.Proofs.Manifest
import StagedTransfer.Proofs.Session.Visit

/-!
# Sessions with an object store

A store keeps the body of each part at its address, puts an object together of the parts that a
manifest lists, and serves the object. What a session asks of it is answered, and nothing else
changes on either side.
-/

namespace StagedTransfer

open Http Wire

/-! ### Object stores -/

/-- What a far side keeps that stores objects and runs the job of one. -/
structure Depot where
  /-- The body that came to an address last, and the tag issued for it. -/
  kept   : Url → Option (Bytes × String)
  /-- What the last manifest listed, in document order. -/
  listed : List (Nat × String)
  /-- The object that has been put together last. -/
  object : Option Bytes
  /-- How often the job will be reported as not having ended. -/
  rounds : Nat

namespace Depot

/-- A body comes to an address and gets a tag. -/
def keep (d : Depot) (url : Url) (body : Bytes) (tag : String) : Depot :=
  { d with kept := fun u => if u = url then some (body, tag) else d.kept u }

/-- The body of the part with a number; the parts go to some places in order. -/
def body? (d : Depot) (places : List Url) : Nat → Option Bytes
  | 0     => none
  | n + 1 => do return (← d.kept (← places[n]?)).1

/-- The object is put together of the parts that a document lists, in document order. -/
def assemble? (d : Depot) (places : List Url) (document : Bytes) : Option Depot := do
  let manifest ← Manifest.ofXml? (← Utf8.decode? document)
  let bodies ← manifest.parts.mapM fun part => d.body? places part.1
  return { d with listed := manifest.parts, object := some bodies.flatten }

end Depot

/-- A far side that does not cancel the transfer, keeps each body that is put at one of some places
under a tag of its own choice, and serves the object that it puts together. -/
structure FarSide.Serves {σ : Type} (f : FarSide σ) (depot : σ → Depot) (places : List Url)
    (completion download : Url) : Prop where
  cancelled : ∀ x, (f.cancelled x).1 = false ∧ depot (f.cancelled x).2 = depot x
  prefer    : ∀ x, depot (f.prefer x).2 = depot x
  listen    : ∀ e x, depot (f.listen e x).2 = depot x
  enter     : ∀ p x, depot (f.enter p x).2 = depot x
  put       : ∀ url ∈ places, ∀ body x, ∃ r tag,
    (f.exchange ⟨.put, url, none, .content none body⟩ x).1 = .answered r ∧ r.isSuccess = true ∧
      r.header? "etag" = some tag ∧
      depot (f.exchange ⟨.put, url, none, .content none body⟩ x).2 = (depot x).keep url body tag
  complete  : ∀ document x d, (depot x).assemble? places document = some d → ∃ r,
    (f.exchange ⟨.post, completion, none, .content (some "application/xml") document⟩ x).1 =
        .answered r ∧ r.isSuccess = true ∧
      depot (f.exchange ⟨.post, completion, none, .content (some "application/xml") document⟩ x).2 =
        d
  fetch     : ∀ object x, (depot x).object = some object → ∃ r,
    (f.exchange ⟨.get, download, none, .empty⟩ x).1 = .answered r ∧ r.isSuccess = true ∧
      r.whole = true ∧ r.body = object ∧
      depot (f.exchange ⟨.get, download, none, .empty⟩ x).2 = depot x

/-- Two states of the surroundings in which the disk and the depot are the same. -/
structure Site.Alike {σ : Type} (depot : σ → Depot) (x y : Site σ) : Prop where
  disk  : y.disk = x.disk
  depot : depot y.far = depot x.far

namespace Site.Alike

variable {σ : Type} {depot : σ → Depot} {x y z : Site σ}

lemma refl (x : Site σ) : x.Alike depot x :=
  ⟨rfl, rfl⟩

lemma trans (h : x.Alike depot y) (h' : y.Alike depot z) : x.Alike depot z :=
  ⟨h'.disk.trans h.disk, h'.depot.trans h.depot⟩

end Site.Alike

/-! ### Sessions -/

/-- A client among the surroundings that a far side and a disk make up. -/
def FarSide.client {σ : Type} (f : FarSide σ) (g : Gateway)
    (source : StateM (Site σ) (Reply TokenError AccessToken)) : Client (StateM (Site σ)) :=
  ⟨f.surroundings, g, source⟩

/-- The environment of a session in which another one speaks to the gateway: the client itself
speaks to the store only. -/
def Client.behind {m : Type → Type} [Monad m] (c : Client m)
    (gateway : (w : Await) → Visit m (Reply TransferError w.Answer)) : Environment (Visit m) where
  cancelled := c.environment.cancelled
  await
    | .call (.complete url manifest) => c.await (.call (.complete url manifest))
    | .call (.fetch url file)        => c.await (.call (.fetch url file))
    | w                              => gateway w
  act := c.act
  choose := c.choose

/-- A client that speaks to the gateway itself has its usual environment. -/
lemma Client.behind_await {m : Type → Type} [Monad m] (c : Client m) :
    c.behind c.await = c.environment := by
  have same : (c.behind c.await).await = c.await := by
    funext w
    simp only [behind]
    split <;> rfl
  change Environment.mk _ (c.behind c.await).await _ _ = _
  rw [same]
  rfl

namespace FarSide.Serves

variable {σ : Type} {f : FarSide σ} {depot : σ → Depot} {places : List Url}
  {completion download : Url} (serves : f.Serves depot places completion download) (g : Gateway)
  (source : StateM (Site σ) (Reply TokenError AccessToken)) (v : Session) (x : Site σ)

section

variable (gateway : (w : Await) → Visit (StateM (Site σ)) (Reply TransferError w.Answer))

include serves

lemma comes_cancelled : ((f.client g source).behind gateway).cancelled.Comes v x fun b w y =>
    b = false ∧ w = v ∧ x.Alike depot y :=
  ⟨(serves.cancelled x.far).1, rfl, rfl, (serves.cancelled x.far).2⟩

lemma comes_emit (e : Event) : (((f.client g source).behind gateway).act (.emit e)).Comes v x
    fun _ w y => w = v ∧ x.Alike depot y :=
  ⟨rfl, rfl, serves.listen e x.far⟩

lemma comes_enter (p : Phase) : (((f.client g source).behind gateway).act (.enter p)).Comes v x
    fun _ w y => w = v ∧ x.Alike depot y :=
  ⟨rfl, rfl, serves.enter p x.far⟩

lemma comes_tell (e : Option Event) : (((f.client g source).behind gateway).tell e).Comes v x
    fun _ w y => w = v ∧ x.Alike depot y := by
  cases e with
  | none => exact ⟨rfl, .refl x⟩
  | some e => exact serves.comes_emit g source v x gateway e

end

/-! #### Requests -/

lemma meet_exchange {request : Request} {r : Response}
    (hr : (f.exchange request x.far).1 = .answered r) :
    (f.client g source).meet (.exchange request) x =
      (.answered r, ⟨x.disk, (f.exchange request x.far).2⟩) :=
  Prod.ext hr rfl

include serves

/-- A part that is sent to its place is kept there, and its tag is yielded. -/
lemma comes_sendPart {url : String} {u : Url} (hu : Url.parse? url = some u) (place : u ∈ places)
    (data : Bytes) : ((f.client g source).sendPart url data).Comes v x fun a w y =>
      w = v ∧ y.disk = x.disk ∧ ∃ tag, a = .ok tag ∧
        depot y.far = (depot x.far).keep u data tag := by
  obtain ⟨r, tag, hr, success, header, kept⟩ := serves.put u place data x.far
  have hd : (Store.put url data).request? none = some ⟨.put, u, none, .content none data⟩ := by
    simp only [Demand.request?, Store.put, hu]
    rfl
  have asked : ((f.client g source).carry (.ask (Store.put url data) none)).Comes v x fun a w y =>
      a = .ok r ∧ w = v ∧ y = ⟨x.disk, (f.exchange ⟨.put, u, none, .content none data⟩ x.far).2⟩ := by
    have exchanged : (liftM ((f.client g source).meet (.exchange ⟨.put, u, none, .content none data⟩)) :
        Visit (StateM (Site σ)) Outcome).Comes v x fun o w y => o = .answered r ∧ w = v ∧
          y = ⟨x.disk, (f.exchange ⟨.put, u, none, .content none data⟩ x.far).2⟩ :=
      ⟨hr, rfl, rfl⟩
    rw [Errand.ask, hd]
    apply exchanged.bind
    rintro _ w y ⟨rfl, rfl, rfl⟩
    exact ⟨rfl, rfl, rfl⟩
  apply asked.bind
  rintro _ w y ⟨rfl, rfl, rfl⟩
  refine ⟨rfl, rfl, tag, ?_, kept⟩
  have etag : r.etag = .ok tag := by
    rw [Response.etag, Response.checked, if_pos success]
    simp only [bind, Except.bind, header]
  change Except.mapError _ r.etag = _
  rw [etag]
  rfl

/-! #### Calls -/

/-- An errand is not given up after a leg. -/
lemma comes_leg (l : Leg) : ((f.client g source).heed (.leg l)).Comes v x fun r w y =>
    ∃ a, r = some a ∧ a = ((f.client g source).meet l x).1 ∧ w = v ∧
      ((f.client g source).meet l x).2.Alike depot y := by
  have met : (liftM ((f.client g source).meet l) : Visit (StateM (Site σ)) l.Answer).Comes v x
      fun a w y => a = ((f.client g source).meet l x).1 ∧ w = v ∧
        y = ((f.client g source).meet l x).2 :=
    ⟨rfl, rfl, rfl⟩
  apply met.bind
  rintro _ w y ⟨rfl, rfl, rfl⟩
  refine Visit.Comes.bind (serves.comes_cancelled g source w _ (f.client g source).await) ?_
  rintro _ w z ⟨rfl, rfl, alike⟩
  exact ⟨_, rfl, rfl, rfl, alike⟩

/-- A call for which no token and no file is sent is answered by what is received. -/
lemma comes_await (call : Call) (a : call.Answer) {request : Request} {r : Response}
    {P : Site σ → Prop} (load : Errand.load g call = pure (.ok []))
    (open' : (g.demand [] call).authorized = false)
    (hd : (g.demand [] call).request? none = some request)
    (hr : (f.exchange request x.far).1 = .answered r)
    (received : ∀ y, Site.Alike depot ⟨x.disk, (f.exchange request x.far).2⟩ y →
      ((f.client g source).heed (.receive call r)).Comes v y fun b w z =>
        ∃ reply, b = some reply ∧ reply = .ok a ∧ w = v ∧ P z) :
    ((f.client g source).await (.call call)).Comes v x fun b w y => b = .ok a ∧ w = v ∧ P y := by
  -- From the inside out: the request is asked, exchanged, performed and at last awaited.
  have asked : ((f.client g source).heed (.ask (g.demand [] call) none)).Comes v x fun b w y =>
      ∃ reply, b = some reply ∧ reply = .ok r ∧ w = v ∧
        Site.Alike depot ⟨x.disk, (f.exchange request x.far).2⟩ y := by
    rw [Errand.ask, hd]
    refine Client.comes_heed_bind (serves.comes_leg g source v x (.exchange request)) ?_
    rintro _ w y ⟨rfl, rfl, alike⟩
    rw [meet_exchange g source x hr] at alike ⊢
    exact ⟨_, rfl, rfl, rfl, alike⟩
  have exchanged : ((f.client g source).heed (.exchange (g.demand [] call))).Comes v x
      fun b w y => ∃ reply, b = some reply ∧ reply = .ok r ∧ w = v ∧
        Site.Alike depot ⟨x.disk, (f.exchange request x.far).2⟩ y := by
    rw [Errand.exchange, open', if_neg Bool.false_ne_true]
    refine Client.comes_heed_bind asked ?_
    rintro _ w y ⟨rfl, rfl, alike⟩
    exact ⟨_, rfl, rfl, rfl, alike⟩
  have performed : ((f.client g source).heed (.perform g call)).Comes v x fun b w y =>
      ∃ reply, b = some reply ∧ reply = .ok a ∧ w = v ∧ P y := by
    have whole : Errand.perform g call =
        Errand.exchange (g.demand [] call) >>= fun r => r.andThen (Errand.receive call) := by
      rw [Errand.perform, load]
      rfl
    rw [whole]
    refine Client.comes_heed_bind exchanged ?_
    rintro _ w y ⟨rfl, rfl, alike⟩
    exact received y alike
  have awaited : ((f.client g source).heed (.await g (.call call))).Comes v x fun b w y =>
      b = some (.ok a) ∧ w = v ∧ P y := by
    refine Client.comes_heed_bind performed ?_
    rintro _ w y ⟨rfl, rfl, hP⟩
    exact ⟨rfl, rfl, hP⟩
  rw [Client.await]
  apply awaited.bind
  rintro _ w y ⟨rfl, rfl, hP⟩
  exact ⟨rfl, rfl, hP⟩

variable (gateway : (w : Await) → Visit (StateM (Site σ)) (Reply TransferError w.Answer))

/-- The store puts an object together of the parts that it is told. -/
lemma comes_complete {url document : String} (hu : Url.parse? url = some completion) {d : Depot}
    (assembled : (depot x.far).assemble? places (Utf8.encode document) = some d) :
    (((f.client g source).behind gateway).await (.call (.complete url document))).Comes v x
      fun a w y => a = .ok () ∧ w = v ∧ y.disk = x.disk ∧ depot y.far = d := by
  obtain ⟨r, hr, success, depot'⟩ := serves.complete (Utf8.encode document) x.far d assembled
  have hd : (g.demand [] (.complete url document)).request? none =
      some ⟨.post, completion, none, .content (some "application/xml") (Utf8.encode document)⟩ := by
    simp only [Demand.request?, Gateway.demand, Store.complete, hu]
    rfl
  refine serves.comes_await g source v x (.complete url document) ()
    (P := fun y => y.disk = x.disk ∧ depot y.far = d) rfl rfl hd hr fun y alike => ?_
  refine ⟨_, rfl, ?_, rfl, alike.disk, alike.depot.trans depot'⟩
  change Reply.answered (r.checked.map fun _ => ()) = _
  rw [Response.checked, if_pos success]
  rfl

/-- The object of the store is fetched into a file. -/
lemma comes_fetch {url file : String} (hu : Url.parse? url = some download) {object : Bytes}
    (kept : (depot x.far).object = some object) {disk : Disk}
    (writes : x.disk.write file object = .ok disk) :
    (((f.client g source).behind gateway).await (.call (.fetch url file))).Comes v x
      fun a w y => a = .ok object.length ∧ w = v ∧ y.disk = disk ∧
        depot y.far = depot x.far := by
  obtain ⟨r, hr, success, whole, rfl, depot'⟩ := serves.fetch object x.far kept
  have hd : (g.demand [] (.fetch url file)).request? none =
      some ⟨.get, download, none, .empty⟩ := by
    simp only [Demand.request?, Gateway.demand, Store.fetch, hu]
    rfl
  have read : Call.read (.fetch url file) r = .ok r.body.length := by
    change r.successBody.map List.length = _
    rw [Response.successBody, Response.checked, if_pos success]
    change (r.bytes.mapError _).map List.length = _
    rw [Response.bytes, if_pos whole]
    rfl
  refine serves.comes_await g source v x (.fetch url file) r.body.length
    (P := fun y => y.disk = disk ∧ depot y.far = depot x.far) rfl rfl hd hr fun y alike => ?_
  have written : (f.client g source).meet (.write file r.body) y = (.ok (), ⟨disk, y.far⟩) := by
    change Site.write file r.body y = _
    rw [Site.write, alike.disk]
    simp only [writes]
  rw [Errand.receive, success]
  refine Client.comes_heed_bind (serves.comes_leg g source v y (.write file r.body)) ?_
  rintro _ w z ⟨rfl, rfl, alike'⟩
  rw [written] at alike' ⊢
  refine ⟨_, rfl, ?_, rfl, alike'.disk, alike'.depot.trans (alike.depot.trans depot')⟩
  rw [read]
  rfl

end FarSide.Serves

end StagedTransfer
