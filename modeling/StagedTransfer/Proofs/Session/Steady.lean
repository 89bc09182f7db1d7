import StagedTransfer.Proofs.Sending.Holding
import StagedTransfer.Proofs.Session.Replay
import StagedTransfer.Proofs.Session.Whole

/-!
# Files that stay as they are

A session that fetches nothing leaves its disk alone. So what it finds of a file on that disk, the
size as well as the content, is the same whenever it looks.
-/

namespace StagedTransfer

open Http

/-! ### Diaries that write nothing -/

section

variable {g : Gateway} {D : Diary} {k k' : Option AccessToken}

/-- A file is written only if something is fetched into it. -/
lemma Awaits.call_of_wrote {w : Await} {reply : Reply TransferError w.Answer}
    (h : Awaits g w k D reply k') {file : String} {content : Bytes} {result : Except IoError Unit}
    (mem : .wrote file content result ∈ D) :
    ∃ call, w = .call call ∧ call.destination? = some file := by
  have into {call : Call} (h : Entry.OfCall g call (.wrote file content result)) :
      call.destination? = some file := by
    cases h with
    | demand h => cases h
    | wrote h => exact h
  cases h with
  | call performs | callOverrun performs => exact ⟨_, rfl, into (performs.mem mem)⟩
  | callCancelled quits => exact ⟨_, rfl, into (quits.mem (by simpa using mem))⟩
  | _ => simp at mem

lemma Picks.not_mem_wrote {s : Sending.State} {v w : Session} {choice : Sending.Choice}
    (h : Picks s v D choice w) (file : String) (content : Bytes) (result : Except IoError Unit) :
    .wrote file content result ∉ D := by
  cases h with
  | proceed told | finish told => cases told <;> simp
  | begin told _ sends =>
    intro mem
    rcases List.mem_append.1 mem with mem | mem
    · cases told <;> simp at mem
    · obtain ⟨_, _, ⟨⟩, -⟩ := sends.mem mem

end

/-! ### Sessions on a disk -/

/-- A client that finds its files on a disk and changes it by writing only. -/
structure Client.LivesOn {S : Type} (c : Client (StateM S)) (disk : S → Disk) : Prop extends
    c.WritesOn disk where
  finds : ∀ file s, (c.around.size file s).1 = (disk s).size file ∧
    (c.around.content file s).1 = (disk s).content file

theorem FarSide.livesOn {σ : Type} (f : FarSide σ) (g : Gateway)
    {source : StateM (Site σ) (Reply TokenError AccessToken)}
    (keeps : ∀ x, (source x).2.disk = x.disk) : (f.client g source).LivesOn Site.disk :=
  ⟨f.writesOn g keeps, fun _ _ => ⟨rfl, rfl⟩⟩

/-- The disk stays as it is while a token is fetched. -/
lemma Credentials.disk_fetch {σ : Type} (c : Credentials) (f : FarSide σ) (x : Site σ) :
    (c.fetch f.surroundings x).2.disk = x.disk := by
  have leaves (request : Http.Request) : (f.surroundings.exchange request x).2.disk = x.disk := rfl
  unfold fetch
  cases c.request? with
  | none => rfl
  | some request =>
    have leaves := leaves request
    simp only [bind, StateT.bind]
    generalize f.surroundings.exchange request x = comes at leaves ⊢
    obtain ⟨outcome, y⟩ := comes
    cases outcome <;> exact leaves

/-- Nothing is fetched in a run. -/
def Log.FetchesNothing (log : Log) : Prop :=
  ∀ call reply, .awaited (.call call) reply ∈ log → call.destination? = none

namespace Client

variable {S : Type} {c : Client (StateM S)} {disk : S → Disk}

/-- The disk stays as it is while nothing is written. -/
lemma WritesOn.disk_eq {x y : Session × S × Diary} {log : Log} {D : Diary} (writes : c.WritesOn disk)
    (leads : c.keeping.flat.Leads x log y) (written : y.2.2 = x.2.2 ++ D)
    (none' : ∀ file content result, .wrote file content result ∉ D) :
    disk y.2.1 = disk x.2.1 := by
  obtain ⟨D', written', replays⟩ :=
    leads_telling writes.written_alike (fun _ _ _ => .of_eq rfl (by simp)) leads
  obtain rfl := List.append_cancel_left (written'.symm.trans written)
  exact Replays.eq_of_unwritten replays none'

/-- A step that fetches nothing leaves the disk as it is, and finds a file as it is. -/
lemma LivesOn.step {x y : Session × S × Diary} {note : Note} {file : String} {contents : Bytes}
    (lives : c.LivesOn disk) (leads : c.keeping.flat.Leads x [note] y)
    (nothing : Log.FetchesNothing [note]) (held : (disk x.2.1).content file = .ok contents) :
    disk y.2.1 = disk x.2.1 ∧ note.Agrees file contents := by
  cases leads with
  | asked rest =>
    cases rest
    obtain ⟨D, written, rfl, -⟩ := c.writes_cancelled x.1 x.2.1 x.2.2
    refine ⟨lives.disk_eq (.asked (.nil _)) written fun file content result => ?_, trivial⟩
    split <;> simp
  | awaited w rest =>
    cases rest
    obtain ⟨D, written, awaits⟩ := c.writes_await x.1 w x.2.1 x.2.2
    have noted : (c.keeping.flat.await w x).2.2.2 =
        x.2.2 ++ D ++ [.awaited w (c.keeping.flat.await w x).1] :=
      congrArg (· ++ [Entry.awaited w (c.keeping.flat.await w x).1]) written
    rw [List.append_assoc] at noted
    refine ⟨lives.disk_eq (.awaited w (.nil _)) noted fun file content result mem => ?_, trivial⟩
    obtain ⟨call, rfl, into⟩ := awaits.call_of_wrote (by simpa using mem)
    cases (nothing call _ (List.mem_singleton_self _)).symm.trans into
  | acted a rest =>
    cases rest
    obtain ⟨D, written, rfl, -⟩ := c.writes_act x.1 a x.2.1 x.2.2
    refine ⟨lives.disk_eq (.acted a (.nil _)) written (by simp), ?_⟩
    cases a with
    | size name =>
      rintro rfl
      exact (lives.finds name x.2.1).1.trans (Disk.size_of_content held)
    | content name =>
      rintro rfl
      exact (lives.finds name x.2.1).2.trans held
    | emit | enter => trivial
  | chosen s rest =>
    cases rest
    obtain ⟨D, written, picks⟩ := c.writes_choose x.1 s x.2.1 x.2.2
    exact ⟨lives.disk_eq (.chosen s (.nil _)) written picks.not_mem_wrote, trivial⟩

/-- A session that fetches nothing finds a file as it is, and leaves the disk so. -/
theorem LivesOn.unchanged {x y : Session × S × Diary} {log : Log} {file : String} {contents : Bytes}
    (lives : c.LivesOn disk) (leads : c.keeping.flat.Leads x log y) (nothing : log.FetchesNothing)
    (held : (disk x.2.1).content file = .ok contents) :
    disk y.2.1 = disk x.2.1 ∧ log.Unchanged file contents := by
  induction log generalizing x with
  | nil =>
    cases leads
    exact ⟨rfl, by simp [Log.Unchanged]⟩
  | cons note log ih =>
    have leads : c.keeping.flat.Leads x ([note] ++ log) y := leads
    obtain ⟨z, first, rest⟩ := leads.of_append
    obtain ⟨same, agrees⟩ := lives.step first
      (fun call reply mem => nothing call reply (by simp_all)) held
    obtain ⟨same', unchanged⟩ := ih rest
      (fun call reply mem => nothing call reply (List.mem_cons_of_mem _ mem)) (same ▸ held)
    exact ⟨same'.trans same, List.forall_mem_cons.2 ⟨agrees, unchanged⟩⟩

end Client

end StagedTransfer
