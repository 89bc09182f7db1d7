import StagedTransfer.Proofs.Session.Diary
import StagedTransfer.Proofs.Session.Storing

/-!
# Diaries and disks

If a session changes a disk by writing only, the disk after a run is the one before with the files
written that the diary tells of, and nothing else has touched it. A session between a disk and a far
side is one of that kind.
-/

namespace StagedTransfer

/-- What is written in a diary leads from one disk to another. A write that fails may leave anything
behind. -/
inductive Replays : Disk → Diary → Disk → Prop
  | nil (d : Disk) : Replays d [] d
  | wrote {d d' e : Disk} {file : String} {content : Bytes} {D : Diary}
    (h : d.write file content = .ok d') (rest : Replays d' D e) :
    Replays d (.wrote file content (.ok ()) :: D) e
  | unwritten {d d' e : Disk} {file : String} {content : Bytes} {error : IoError} {D : Diary}
    (rest : Replays d' D e) : Replays d (.wrote file content (.error error) :: D) e
  | other {d e : Disk} {x : Entry} {D : Diary}
    (h : ∀ file content result, x ≠ .wrote file content result) (rest : Replays d D e) :
    Replays d (x :: D) e

namespace Replays

variable {d d' e : Disk} {D D' : Diary}

lemma append (h : Replays d D d') (h' : Replays d' D' e) : Replays d (D ++ D') e := by
  induction h with
  | nil => exact h'
  | wrote h _ ih => exact .wrote h (ih h')
  | unwritten _ ih => exact .unwritten (ih h')
  | other h _ ih => exact .other h (ih h')

lemma of_append (h : Replays d (D ++ D') e) : ∃ d', Replays d D d' ∧ Replays d' D' e := by
  induction D generalizing d with
  | nil => exact ⟨d, .nil d, h⟩
  | cons x D ih =>
    cases h with
    | wrote h rest =>
      obtain ⟨d', first, last⟩ := ih rest
      exact ⟨d', .wrote h first, last⟩
    | unwritten rest =>
      obtain ⟨d', first, last⟩ := ih rest
      exact ⟨d', .unwritten first, last⟩
    | other h rest =>
      obtain ⟨d', first, last⟩ := ih rest
      exact ⟨d', .other h first, last⟩

/-- A disk on which nothing is written stays as it is. -/
lemma eq_of_unwritten (h : Replays d D e)
    (none' : ∀ file content result, .wrote file content result ∉ D) : e = d := by
  induction h with
  | nil => rfl
  | wrote => exact absurd (List.mem_cons_self ..) (none' _ _ _)
  | unwritten => exact absurd (List.mem_cons_self ..) (none' _ _ _)
  | other _ _ ih =>
    exact ih fun file content result mem => none' file content result (List.mem_cons_of_mem _ mem)

/-- A file that is the only one written holds what has been written. -/
lemma content_of_wrote {file : String} {content : Bytes}
    (h : Replays d (D ++ .wrote file content (.ok ()) :: D') e)
    (last : ∀ file content result, .wrote file content result ∉ D') :
    e.content file = .ok content := by
  obtain ⟨d', -, rest⟩ := h.of_append
  cases rest with
  | wrote written rest =>
    rw [rest.eq_of_unwritten last]
    exact Disk.content_write written
  | other h => exact absurd rfl (h _ _ _)

end Replays

/-! ### Sessions on a disk -/

section

variable {S α : Type} {c : Client (StateM S)} {disk : S → Disk}

/-- A client that changes a disk by writing only. What is left of a write that fails is not said. -/
structure Client.WritesOn (c : Client (StateM S)) (disk : S → Disk) : Prop where
  source    : ∀ s, disk (c.source s).2 = disk s
  exchange  : ∀ r s, disk (c.around.exchange r s).2 = disk s
  now       : ∀ s, disk (c.around.now s).2 = disk s
  pause     : ∀ d s, disk (c.around.pause d s).2 = disk s
  cancelled : ∀ s, disk (c.around.cancelled s).2 = disk s
  size      : ∀ file s, disk (c.around.size file s).2 = disk s
  content   : ∀ file s, disk (c.around.content file s).2 = disk s
  prefer    : ∀ s, disk (c.around.prefer s).2 = disk s
  listen    : ∀ e s, disk (c.around.listen e s).2 = disk s
  enter     : ∀ p s, disk (c.around.enter p s).2 = disk s
  write     : ∀ file content s, (c.around.write file content s).1 = .ok () →
    (disk s).write file content = .ok (disk (c.around.write file content s).2)

/-- What a diary tells of the disk. -/
def Replays.account (disk : S → Disk) : Diary.Account S where
  Holds s D t := Replays (disk s) D (disk t)
  nil s := .nil (disk s)
  append h h' := h.append h'

/-- A disk that stays as it is while no file is written. -/
lemma Replays.of_eq {d e : Disk} {D : Diary} (same : e = d)
    (none' : ∀ file content result, .wrote file content result ∉ D) : Replays d D e := by
  subst same
  induction D with
  | nil => exact .nil e
  | cons x D ih =>
    refine .other (fun file content result here => none' file content result (by simp [here])) ?_
    exact ih fun file content result mem => none' file content result (List.mem_cons_of_mem x mem)

namespace Client.WritesOn

variable (writes : c.WritesOn disk)

include writes

lemma written_alike : c.written.Alike (.telling (Replays.account disk)) c.written where
  gateway       := rfl
  source p      := ⟨_, rfl, .of_eq (writes.source p.1) (by simp)⟩
  exchange r p  := ⟨_, rfl, .of_eq (writes.exchange r p.1) (by simp)⟩
  now p         := ⟨_, rfl, .of_eq (writes.now p.1) (by simp)⟩
  pause d p     := ⟨_, rfl, .of_eq (writes.pause d p.1) (by simp)⟩
  cancelled p   := by
    refine ⟨_, rfl, .of_eq (writes.cancelled p.1) ?_⟩
    cases (c.around.cancelled p.1).1 <;> simp
  size file p   := ⟨_, rfl, .of_eq (writes.size file p.1) (by simp)⟩
  content file p := ⟨_, rfl, .of_eq (writes.content file p.1) (by simp)⟩
  write file content p := by
    refine ⟨_, rfl, ?_⟩
    cases result : (c.around.write file content p.1).1 with
    | ok => exact .wrote (writes.write file content p.1 result) (.nil _)
    | error e => exact .unwritten (.nil _)
  prefer p      := ⟨_, rfl, .of_eq (writes.prefer p.1) (by simp)⟩
  listen e p    := ⟨_, rfl, .of_eq (writes.listen e p.1) (by simp)⟩
  enter phase p := ⟨_, rfl, .of_eq (writes.enter phase p.1) (by simp)⟩

/-- The diary of a run tells all that has happened to the disk. -/
theorem replays (a : Activity α) (v : Session) (s : S) :
    Replays (disk s) (c.diary a v s) (disk (c.run a v s).2) :=
  Client.diary_telling writes.written_alike (fun _ _ _ => .of_eq rfl (by simp)) a v s

end Client.WritesOn

/-- A client that stands between a disk and a far side writes on that disk, if it gets its tokens from
somewhere else. -/
theorem FarSide.writesOn {σ : Type} (f : FarSide σ) (g : Gateway)
    {source : StateM (Site σ) (Reply TokenError AccessToken)}
    (keeps : ∀ x, (source x).2.disk = x.disk) : (f.client g source).WritesOn Site.disk where
  source      := keeps
  exchange _ _ := rfl
  now _       := rfl
  pause _ _   := rfl
  cancelled _ := rfl
  size _ _    := rfl
  content _ _ := rfl
  prefer _    := rfl
  listen _ _  := rfl
  enter _ _   := rfl
  write file content x ok := by
    change (Site.write file content x).1 = .ok () at ok
    change x.disk.write file content = .ok (Site.write file content x).2.disk
    rw [Site.write] at ok ⊢
    split at ok
    · next written => simp [written]
    · cases ok

end

end StagedTransfer
