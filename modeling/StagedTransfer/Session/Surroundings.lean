import StagedTransfer.Disk
import StagedTransfer.Http.Message
import StagedTransfer.Time.Instant
import StagedTransfer.Transfer.Activity

/-!
# Surroundings

What a session finds around it: the local files, the network, the time, and whoever watches or
cancels the transfer. Nothing is known of them but what they answer.
-/

namespace StagedTransfer

open Http

structure Surroundings (m : Type → Type) where
  exchange  : Request → m Outcome
  now       : m Instant
  pause     : Span → m Unit
  cancelled : m Bool
  size      : String → m (Except IoError Nat)
  content   : String → m (Except IoError Bytes)
  /-- Creates a local file, or empties it, and fills it. -/
  write     : String → Bytes → m (Except IoError Unit)
  /-- Which of several things that may happen next does. -/
  prefer    : m Nat
  listen    : Event → m Unit
  enter     : Phase → m Unit

/-! ### A disk and the far side -/

/-- A disk, and all else that surrounds a session in one state. -/
structure Site (σ : Type) where
  disk : Disk
  far  : σ

/-- All that surrounds a session but its disk. -/
structure FarSide (σ : Type) where
  exchange  : Request → StateM σ Outcome
  now       : StateM σ Instant
  pause     : Span → StateM σ Unit
  cancelled : StateM σ Bool
  prefer    : StateM σ Nat
  listen    : Event → StateM σ Unit
  enter     : Phase → StateM σ Unit

namespace Site

variable {σ α : Type}

/-- What the far side does leaves the disk alone. -/
def farther (a : StateM σ α) : StateM (Site σ) α := fun s =>
  let (x, far) := a s.far
  (x, { s with far })

def write (file : String) (content : Bytes) : StateM (Site σ) (Except IoError Unit) := fun s =>
  match s.disk.write file content with
  | .ok disk => (.ok (), { s with disk })
  | .error e => (.error e, s)

end Site

def FarSide.surroundings {σ : Type} (f : FarSide σ) : Surroundings (StateM (Site σ)) where
  exchange r   := Site.farther (f.exchange r)
  now          := Site.farther f.now
  pause d      := Site.farther (f.pause d)
  cancelled    := Site.farther f.cancelled
  size file    := return (← get).disk.size file
  content file := return (← get).disk.content file
  write        := Site.write
  prefer       := Site.farther f.prefer
  listen e     := Site.farther (f.listen e)
  enter p      := Site.farther (f.enter p)

end StagedTransfer
