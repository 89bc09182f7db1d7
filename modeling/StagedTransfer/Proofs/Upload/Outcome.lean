import StagedTransfer.Proofs.Json.Gathering
import StagedTransfer.Proofs.Session.Flight
import StagedTransfer.Proofs.Upload.Stages
import StagedTransfer.Settings

/-!
# How an upload ends

In a session every upload of a file comes to its end, with the tags of the parts or with an error,
whatever the plan, the file and the store are. The settings bound the number of slots from below
only, and what counts them knows a greatest number: with more slots than that the upload of every
file that fits its plan ends in an overrun, even if it has been cancelled.
-/

namespace StagedTransfer

open Activity Wire

/-! ### Activities that close -/

namespace Activity

variable {S α β : Type} (env : Environment (Visit (StateM S)))

/-- An activity ends with a value, and what it comes to is as told, or with an error. -/
def Closes (a : Activity α) (v : Session) (s : S) (Q : α → Prop) : Prop :=
  (a.run env).Comes v s fun r _ _ => (∃ x, r = .ok x ∧ Q x) ∨ ∃ e, r = .error (.failed e)

variable {env} {v : Session} {s : S} {Q : α → Prop}

lemma Closes.pure {x : α} (h : Q x) : (Pure.pure x : Activity α).Closes env v s Q :=
  .inl ⟨x, rfl, h⟩

lemma Closes.fail (e : TransferError) : (fail e : Activity α).Closes env v s Q :=
  .inr ⟨e, rfl⟩

lemma Closes.ofExcept {r : Except TransferError α} (h : ∀ x, r = .ok x → Q x) :
    (Activity.ofExcept r).Closes env v s Q := by
  cases r with
  | ok x => exact .pure (h x rfl)
  | error e => exact .fail e

lemma Closes.bind {R : β → Prop} {a : Activity α} {f : α → Activity β} (h : a.Closes env v s Q)
    (next : ∀ x v s, Q x → (f x).Closes env v s R) : (a >>= f).Closes env v s R := by
  rw [Closes, run_bind]
  refine Visit.Comes.bind h ?_
  rintro _ v s (⟨x, rfl, hQ⟩ | ⟨e, rfl⟩)
  · exact next x v s hQ
  · exact .inr ⟨e, rfl⟩

lemma Closes.perform {a : Act} {Q : a.Answer → Prop} (h : (env.act a).Comes v s fun x _ _ => Q x) :
    (perform a).Closes env v s Q :=
  .inl ⟨_, rfl, h⟩

/-- A wait is given up or answered, unless the answer is an overrun. -/
lemma Closes.awaiting {w : Await}
    (answer : ∀ v s, (env.await w).Comes v s fun r _ _ => ∃ x, r = .answered x) :
    (awaiting w).Closes env v s fun _ => True := by
  rw [Closes, Activity.awaiting, Activity.run]
  refine Visit.Comes.bind (P := fun _ _ _ => True) trivial ?_
  rintro (_ | _) v s -
  · refine (answer v s).bind ?_
    rintro _ v s ⟨x, rfl⟩
    exact Closes.ofExcept fun _ _ => trivial
  · exact .inr ⟨.cancelled, rfl⟩

/-- A sending is given up or yields its result, unless it stalls. -/
lemma Closes.send {b : Batch} (ends : ∀ v s, (env.send b).Comes v s fun r _ _ => r.isSome) :
    (Activity.send b Activity.ofExcept).Closes env v s fun _ => True := by
  rw [Closes, Activity.run]
  refine Visit.Comes.bind (P := fun _ _ _ => True) trivial ?_
  rintro (_ | _) v s -
  · refine (ends v s).bind ?_
    rintro r v s ended
    obtain ⟨x, rfl⟩ := Option.isSome_iff_exists.1 ended
    exact Closes.ofExcept fun _ _ => trivial
  · exact .inr ⟨.cancelled, rfl⟩

end Activity

/-! ### Answers of a store -/

namespace Client

variable {S α β : Type} (c : Client (StateM S)) (v : Session) (x : S)

/-- An errand is given up or comes to a value that is as told. -/
def Brings (e : Errand α) (Q : α → Prop) : Prop :=
  (c.heed e).Comes v x fun r _ _ => ∀ a, r = some a → Q a

variable {c v x}

lemma Brings.pure {a : α} {Q : α → Prop} (h : Q a) : c.Brings v x (Pure.pure a) Q :=
  fun _ same => Option.some.inj same ▸ h

lemma Brings.bind {e : Errand α} {f : α → Errand β} {P : α → Prop} {Q : β → Prop}
    (h : c.Brings v x e P) (next : ∀ a v x, P a → c.Brings v x (f a) Q) :
    c.Brings v x (e >>= f) Q := by
  rw [Brings, heed_bind]
  refine Visit.Comes.bind h ?_
  rintro (_ | a) w z hP
  · exact nofun
  · exact next a w z (hP a rfl)

/-- Without a token no quantity can leave its range. -/
lemma brings_exchange {d : Demand} (bare : d.authorized = false) :
    c.Brings v x (.exchange d) fun r => ∃ y, r = .answered y := by
  rw [Errand.exchange, if_neg (ne_true_of_eq_false bare)]
  exact Brings.bind (P := fun _ => True) (fun _ _ => trivial) fun y _ _ _ => .pure ⟨y, rfl⟩

lemma brings_complete (url document : String) :
    c.Brings v x (.perform c.gateway (.complete url document)) fun r => ∃ y, r = .answered y := by
  refine Brings.bind (P := fun r => r = .ok []) (.pure rfl) ?_
  rintro _ w z rfl
  refine (brings_exchange rfl).bind ?_
  rintro _ w z ⟨_ | r, rfl⟩
  · exact .pure ⟨_, rfl⟩
  · exact .pure ⟨Call.read (.complete url document) r, rfl⟩

lemma comes_complete (url document : String) :
    (c.await (.call (.complete url document))).Comes v x fun r _ _ => ∃ y, r = .answered y := by
  have brings : c.Brings v x (.await c.gateway (.call (.complete url document))) fun r =>
      ∃ y, r = .answered y := by
    refine (brings_complete url document).bind ?_
    rintro _ w z ⟨_ | _, rfl⟩ <;> exact .pure ⟨_, rfl⟩
  refine Visit.Comes.bind brings ?_
  rintro (_ | r) w z answered
  · exact ⟨_, rfl⟩
  · exact answered r rfl

end Client

/-! ### The sending of a file -/

namespace Profile

/-- A file fits its plan, and there are more slots than can be counted. -/
structure Crowded (p : Profile) (plan : UploadPlan) (size : Except IoError Nat) : Prop where
  many : slotLimit < p.slots
  fits : ∃ n, size = .ok n ∧ Fits plan n

section

variable {S : Type} {c : Client (StateM S)} {fired : S → Bool} (p : Profile) (file : String)
  (plan : UploadPlan) (v : Session) (x : S)

/-- Parts that are not crowded are sent until there is an answer to each of them, unless the
transfer is given up. -/
lemma closes_sendParts (cancellable : c.Cancellable fired)
    (free : ¬p.Crowded plan (c.around.size file x).1) :
    (p.sendParts file plan).Closes c.environment v x fun _ => True := by
  rw [sendParts]
  by_cases zero : plan.maxPartSize.toNat = 0
  · rw [if_pos zero]
    exact .fail _
  rw [if_neg zero]
  refine Closes.bind (Q := fun size => size = (c.around.size file x).1) (.perform rfl) ?_
  rintro size w y rfl
  generalize (c.around.size file x).1 = size at free
  cases size with
  | error e =>
    rw [PartReader.open, if_neg zero]
    exact .fail _
  | ok n =>
    rw [PartReader.open, if_neg zero]
    by_cases count : partCount n plan.maxPartSize.toNat = plan.partsUploadUrls.length
    · have few : ¬slotLimit < p.slots := fun many =>
        free ⟨many, n, rfl, ⟨Nat.pos_of_ne_zero zero, count.symm⟩⟩
      have some' : 0 < p.slots := Nat.lt_of_lt_of_le Nat.zero_lt_one (Nat.le_max_left 1 p.parallel)
      simp only [if_neg (Decidable.not_not.2 count), if_neg few]
      exact .send fun v s => cancellable.comes_send _ some' v s
    · simp only [ne_eq, if_pos count]
      exact .fail _

/-- What counts the slots is made before anyone asks whether the transfer has been cancelled. -/
lemma run_sendParts_of_crowded (crowded : p.Crowded plan (c.around.size file x).1) :
    ((p.sendParts file plan).run c.environment).Comes v x fun r _ _ =>
      r = .error (.overrun .slots) := by
  obtain ⟨many, n, size, positive, count⟩ := crowded
  rw [sendParts, if_neg (Nat.ne_of_gt positive), run_bind]
  refine Visit.Comes.bind (P := fun r _ _ => r = Except.ok (Except.ok n))
    (congrArg Except.ok size) ?_
  rintro _ w y rfl
  simp only [PartReader.open, if_neg (Nat.ne_of_gt positive), ne_eq, count.symm, not_true, if_false,
    if_pos many]
  rfl

lemma closes_sendFile (cancellable : c.Cancellable fired)
    (free : ¬p.Crowded plan (c.around.size file x).1) :
    (p.sendFile file plan).Closes c.environment v x fun _ => True := by
  rw [sendFile]
  refine (closes_sendParts p file plan v x cancellable free).bind ?_
  rintro etags w y -
  cases Manifest.ofEtags etags plan.partsUploadUrls.length with
  | error e => exact .fail _
  | ok manifest =>
    refine Closes.bind (.awaiting fun _ _ => c.comes_complete _ _) ?_
    rintro _ w y -
    refine Closes.bind (Q := fun _ => True) (.perform trivial) ?_
    exact fun _ _ _ _ => .pure trivial

lemma run_sendFile_of_crowded (crowded : p.Crowded plan (c.around.size file x).1) :
    ((p.sendFile file plan).run c.environment).Comes v x fun r _ _ =>
      r = .error (.overrun .slots) := by
  rw [sendFile, run_bind]
  refine (run_sendParts_of_crowded p file plan v x crowded).bind ?_
  rintro _ w y rfl
  rfl

end

end Profile

/-! ### Settings -/

namespace Settings

lemma exists_of_concurrency (home text : String) (n : UInt64)
    (h : (ofText home text).toOption.map concurrency = some n) :
    ∃ s, ofText home text = .ok s ∧ s.concurrency = n := by
  obtain ⟨s, read, rfl⟩ := Option.map_eq_some_iff.1 h
  exact ⟨s, Json.toOption_eq_some_iff.1 read, rfl⟩

/-- Under any settings the upload of a file ends with the tags of the parts or with an error, unless
the file fits the plan and the settings ask for more slots than can be counted. In that case, and in
no other, it ends in an overrun. -/
theorem sendFile_ends {S : Type} (c : Client (StateM S)) {fired : S → Bool}
    (cancellable : c.Cancellable fired) (s : Settings) (patience : Nat) (file : String)
    (plan : UploadPlan) (v : Session) (x : S) :
    let r := (c.run ((s.profile patience).sendFile file plan) v x).1.1
    let crowded := Profile.slotLimit < s.concurrency.toNat ∧
      ∃ n, (c.around.size file x).1 = .ok n ∧ Profile.Fits plan n
    (¬crowded → (∃ etags, r = .ok etags) ∨ ∃ e, r = .error (.failed e)) ∧
      (crowded → r = .error (.overrun .slots)) := by
  intro r crowded
  have slots : Profile.slotLimit < (s.profile patience).slots ↔
      Profile.slotLimit < s.concurrency.toNat := by
    have positive : 1 ≤ Profile.slotLimit := by decide
    simp only [Profile.slots, profile, parallel]
    omega
  refine ⟨fun free => ?_, fun ⟨many, fits⟩ => ?_⟩
  · have closes := Profile.closes_sendFile (s.profile patience) file plan v x cancellable
      fun ⟨many, fits⟩ => free ⟨slots.1 many, fits⟩
    exact closes.imp_left fun ⟨etags, ended, _⟩ => ⟨etags, ended⟩
  · exact Profile.run_sendFile_of_crowded (s.profile patience) file plan v x ⟨slots.2 many, fits⟩

/-- A store that takes every part, and a file of two bytes. -/
def taker : Client (StateM Unit) where
  around :=
    { exchange  := fun _ => pure (.answered ⟨200, [("etag", "tag".toUTF8.toList)], [], true⟩)
      now       := pure ⟨0⟩
      pause     := fun _ => pure ()
      cancelled := pure false
      size      := fun _ => pure (.ok 2)
      content   := fun _ => pure (.ok [1, 2])
      write     := fun _ _ => pure (.error .earlyEnd)
      prefer    := pure 0
      listen    := fun _ => pure ()
      enter     := fun _ => pure () }
  gateway := ⟨"http://gateway", "cluster", 0⟩
  source  := pure (.ok ⟨"t", ⟨5⟩⟩)

lemma taker_cancellable : taker.Cancellable fun _ => false where
  tells _ := rfl
  stays := by
    constructor
    case gateway => rfl
    all_goals
      intros
      intro s hs
      exact hs

/-- A file of two bytes under settings that ask for one slot too many, and under settings that ask
for all there are. -/
theorem sendFile_ends_lastSlot :
    let plan : UploadPlan :=
      ⟨["http://store/1", "http://store/2"], "http://store/done", 1, Inhabited.default⟩
    let send (s : Settings) := (taker.run ((s.profile 3).sendFile "file" plan) .start ()).1.1
    ∃ s t, ofText "/home/user" "upload_concurrency = 2305843009213693952" = .ok s ∧
      ofText "/home/user" "upload_concurrency = 2305843009213693951" = .ok t ∧
      send s = .error (.overrun .slots) ∧
      ((∃ etags, send t = .ok etags) ∨ ∃ e, send t = .error (.failed e)) := by
  intro plan send
  obtain ⟨s, read, many⟩ := exists_of_concurrency "/home/user"
    "upload_concurrency = 2305843009213693952" 2305843009213693952 (by decide +kernel)
  obtain ⟨t, read', few⟩ := exists_of_concurrency "/home/user"
    "upload_concurrency = 2305843009213693951" 2305843009213693951 (by decide +kernel)
  have ends s := sendFile_ends taker taker_cancellable s 3 "file" plan .start ()
  have fits : Profile.Fits plan 2 := ⟨by decide, by decide⟩
  refine ⟨s, t, read, read', ?_, ?_⟩
  · refine (ends s).2 ⟨?_, 2, rfl, fits⟩
    rw [many]
    decide
  · refine (ends t).1 ?_
    rintro ⟨many, -⟩
    rw [few] at many
    exact absurd many (by decide)

end Settings

end StagedTransfer
