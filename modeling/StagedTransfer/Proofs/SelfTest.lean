import StagedTransfer.Program
import StagedTransfer.Proofs.Digest.Pieces
import StagedTransfer.Proofs.Session.Overruns
import StagedTransfer.Proofs.Session.Success

/-!
# The self-test

The self-test passes exactly if a payload of the size asked for has gone to the remote path, has
been fetched back from there and has kept its digest on the way. A payload that comes back with
another digest is reported as such. What ends the test without a report is a size that cannot be
counted, or whatever ends one of its two transfers so.
-/

namespace StagedTransfer

open Activity

/-! ### Steps of the program -/

namespace Program

/-- A step of the program ends with a result and leaves a session and surroundings behind. -/
def Step.Yields {S α : Type} (a : Step (StateM S) α) (v : Session) (s : S) (r : Except Failure α)
    (w : Session) (u : S) : Prop :=
  a.run.run v s = ((r, w), u)

section

variable {S α β : Type} {a : Step (StateM S) α} {f : α → Step (StateM S) β} {v w v' : Session}
  {s u s' : S} {x : α} {e : Failure} {r : Except Failure β}

lemma Step.Yields.bind (h : a.Yields v s (.ok x) w u) (h' : (f x).Yields w u r v' s') :
    (a >>= f).Yields v s r v' s' := by
  have first : a.run.run v s = ((.ok x, w), u) := h
  rw [Step.Yields, ExceptT.run_bind, StateT.run_bind]
  simp only [Bind.bind, StateT.bind]
  rw [first]
  exact h'

lemma Step.Yields.bind_error (h : a.Yields v s (.error e) w u) :
    (a >>= f).Yields v s (.error e) w u := by
  have first : a.run.run v s = ((.error e, w), u) := h
  rw [Step.Yields, ExceptT.run_bind, StateT.run_bind]
  simp only [Bind.bind, StateT.bind]
  rw [first]
  rfl

end

section

variable {S α : Type} (p : Program (StateM S)) (v : Session) (s : S)

lemma yields_throw (e : Failure) : (throw e : Step (StateM S) α).Yields v s (.error e) v s :=
  rfl

lemma yields_pure (x : α) : (pure x : Step (StateM S) α).Yields v s (.ok x) v s :=
  rfl

variable {s} in
lemma yields_visit {a : Visit (StateM S) α} {x : α} {w : Session} {u : S}
    (h : a.run v s = ((x, w), u)) : (liftM a : Step (StateM S) α).Yields v s (.ok x) w u := by
  have lifted : (liftM a : Step (StateM S) α).Yields v s (.ok (a.run v s).1.1) (a.run v s).1.2
      (a.run v s).2 := rfl
  rwa [h] at lifted

lemma yields_lift (a : StateM S α) :
    (liftM a : Step (StateM S) α).Yields v s (.ok (a s).1) v (a s).2 :=
  rfl

lemma yields_report (r : Report) : (p.report r).Yields v s (.ok ()) v (p.host.report r s).2 :=
  rfl

variable {s} in
lemma yields_carry {a : Activity α} {x : Except Stop α} {w : Session} {u : S}
    (h : p.client.run a v s = ((x, w), u)) :
    (p.carry a).Yields v s (x.mapError .ofStop) w u := by
  refine (yields_visit v h).bind ?_
  cases x <;> rfl

variable {s} in
lemma yields_scratching {a : StateM S (Except IoError α)} {x : Except IoError α} {u : S}
    (h : a s = (x, u)) :
    (scratching a).Yields v s (x.mapError fun e => .error (.scratch e)) v u := by
  have first := yields_lift v s a
  rw [h] at first
  refine first.bind ?_
  cases x <;> rfl

end

end Program

/-! ### Self-tests -/

/-- A host whose files lie on a disk. -/
structure FarHost (σ : Type) extends FarSide σ where
  report  : Report → StateM σ Unit
  noise   : StateM σ (Nat → UInt8)
  scratch : StateM (Site σ) (Except IoError String)
  discard : String → StateM (Site σ) Unit

def FarHost.host {σ : Type} (f : FarHost σ) : Host (StateM (Site σ)) where
  toSurroundings := f.surroundings
  report r       := Site.farther (f.report r)
  noise          := Site.farther f.noise
  scratch        := f.scratch
  discard        := f.discard

/-- All that a self-test depends on but the state that it starts in. -/
structure SelfTest (σ : Type) where
  host        : FarHost σ
  settings    : Settings
  credentials : Credentials
  patience    : Nat
  mebibytes   : UInt64
  remote      : String

namespace SelfTest

variable {σ : Type} (t : SelfTest σ)

def program : Program (StateM (Site σ)) :=
  .ofSettings t.host.host t.settings t.credentials t.patience

def client : Client (StateM (Site σ)) :=
  t.program.client

def profile : Profile :=
  t.program.profile

/-- How the self-test ends. -/
def result (x : Site σ) : Except Failure Unit :=
  ((t.program.selfTest t.mebibytes t.remote).run.run .start x).1.1

/-- The number of bytes that are asked for. -/
def size : Nat :=
  t.mebibytes.toNat * Program.mebibyte

variable (folder : String)

/-- The file that the payload is sent from. -/
def sentFile : String :=
  folder ++ "/payload.bin"

/-- The file that it comes back to. -/
def receivedFile : String :=
  folder ++ "/roundtrip.bin"

def upload : Activity (Option Int64) :=
  t.profile.upload (sentFile folder) t.remote true

def download : Activity Nat :=
  t.profile.download t.remote (receivedFile folder)

/-- A payload of the size asked for, made of noise. -/
structure IsPayload (x : Site σ) (payload : Bytes) : Prop where
  length  : payload.length = t.size
  bounded : t.size < 2 ^ 64
  noise   : ∀ n (h : n < payload.length), payload[n] = (t.host.noise x.far).1 n

/-- What comes before the first transfer: a payload is written to its file and reported on. -/
structure Makes (x : Site σ) (payload : Bytes) (y : Site σ) : Prop extends
    t.IsPayload x payload where
  written  : x.disk.write (sentFile folder) payload = .ok y.disk
  reported : y.far = (t.host.report (.payloadGenerated t.size (Sha256.checksum payload))
    (t.host.noise x.far).2).2

/-- A payload goes to the remote path and comes back. -/
inductive RoundTrip (x : Site σ) (payload received : Bytes) : Prop
  | intro {y z final : Site σ} {v w : Session} {job : Option Int64} {size : Nat}
    (makes : t.Makes folder x payload y)
    (sent : t.client.run (t.upload folder) .start y = ((.ok job, v), z))
    (delivered : t.profile.Delivered t.client.gateway t.remote payload
      (t.client.diary (t.upload folder) .start y) job)
    (fetched : t.client.run (t.download folder) v z = ((.ok size, w), final))
    (collected : t.profile.Collected t.client.gateway t.remote (receivedFile folder) received
      (t.client.diary (t.download folder) v z))
    (holds : final.disk.content (receivedFile folder) = .ok received)

/-- How a self-test ends in its folder. -/
inductive Ends (x : Site σ) : Except Failure Unit → Prop
  | tooLarge (large : 2 ^ 64 ≤ t.size) : Ends x (.error (.overrun .payload))
  | unwritten {payload : Bytes} {e : IoError} (made : t.IsPayload x payload)
    (unwritten : x.disk.write (sentFile folder) payload = .error e) :
    Ends x (.error (.error (.scratch e)))
  | unsent {payload : Bytes} {y z : Site σ} {v : Session} {s : Stop}
    (makes : t.Makes folder x payload y)
    (unsent : t.client.run (t.upload folder) .start y = ((.error s, v), z)) :
    Ends x (.error (.ofStop s))
  | unfetched {payload : Bytes} {y z final : Site σ} {v w : Session} {job : Option Int64} {s : Stop}
    (makes : t.Makes folder x payload y)
    (sent : t.client.run (t.upload folder) .start y = ((.ok job, v), z))
    (unfetched : t.client.run (t.download folder) v z = ((.error s, w), final)) :
    Ends x (.error (.ofStop s))
  | passed {payload received : Bytes} (trip : t.RoundTrip folder x payload received)
    (same : Sha256.checksum received = Sha256.checksum payload) : Ends x (.ok ())
  | mismatched {payload received : Bytes} (trip : t.RoundTrip folder x payload received)
    (other : Sha256.checksum received ≠ Sha256.checksum payload) :
    Ends x (.error (.error (.mismatch (Sha256.checksum payload) (Sha256.checksum received))))

variable {t folder} {x : Site σ} {payload : Bytes}

lemma IsPayload.eq_map (h : t.IsPayload x payload) :
    payload = (List.range t.size).map (t.host.noise x.far).1 := by
  refine List.ext_getElem (by simp [h.length]) fun n hn _ => ?_
  simpa using h.noise n hn

lemma isPayload_map (bounded : t.size < 2 ^ 64) :
    t.IsPayload x ((List.range t.size).map (t.host.noise x.far).1) :=
  ⟨by simp, bounded, by simp⟩

/-! ### The course of a self-test -/

section

variable (t folder) (expected : String)

/-- What the self-test does once the payload has come back. -/
def compare (actual : String) : Program.Step (StateM (Site σ)) Unit := do
  if actual ≠ expected then throw (.error (.mismatch expected actual))
  t.program.report (.selfTestPassed actual)

/-- What it does once the payload has been made. -/
def sendAndCompare : Program.Step (StateM (Site σ)) Unit := do
  let _ ← t.program.carry (t.upload folder)
  let _ ← t.program.carry (t.download folder)
  t.compare expected (← t.program.checksum (receivedFile folder))

end

lemma selfTestIn_eq (bounded : t.size < 2 ^ 64) :
    t.program.selfTestIn folder t.mebibytes t.remote = (do
      let noise ← liftM t.program.host.noise
      Program.scratching (t.program.host.write (sentFile folder) ((List.range t.size).map noise))
      let expected ← t.program.checksum (sentFile folder)
      t.program.report (.payloadGenerated t.size expected)
      t.sendAndCompare folder expected) :=
  if_neg (Nat.not_le_of_lt bounded)

lemma yields_of_large (large : 2 ^ 64 ≤ t.size) :
    (t.program.selfTestIn folder t.mebibytes t.remote).Yields .start x
      (.error (.overrun .payload)) .start x := by
  obtain ⟨f, same⟩ : ∃ f : Unit → Program.Step (StateM (Site σ)) Unit,
      t.program.selfTestIn folder t.mebibytes t.remote = throw (.overrun .payload) >>= f :=
    ⟨_, if_pos large⟩
  rw [same]
  exact (Program.yields_throw _ _ _).bind_error

lemma yields_checksum {file : String} {content : Bytes} {v : Session}
    (holds : x.disk.content file = .ok content) :
    (t.program.checksum file).Yields v x (.ok (Sha256.checksum content)) v x := by
  have read : t.program.host.content file x = (.ok content, x) := Prod.ext holds rfl
  refine (Program.yields_scratching v read).bind ?_
  rw [Sha256.fileChecksum_eq]
  exact Program.yields_pure v x _

lemma IsPayload.yields_of_unwritten {e : IoError} (h : t.IsPayload x payload)
    (unwritten : x.disk.write (sentFile folder) payload = .error e) :
    ∃ y, (t.program.selfTestIn folder t.mebibytes t.remote).Yields .start x
      (.error (.error (.scratch e))) .start y := by
  have write : t.program.host.write (sentFile folder) payload ⟨x.disk, (t.host.noise x.far).2⟩ =
      (.error e, ⟨x.disk, (t.host.noise x.far).2⟩) := by
    change Site.write (sentFile folder) payload _ = _
    simp only [Site.write, unwritten]
  rw [h.eq_map] at write
  rw [selfTestIn_eq h.bounded]
  exact ⟨_, (Program.yields_lift .start x _).bind (Program.yields_scratching _ write).bind_error⟩

/-- The self-test goes on with the transfers once the payload has been made. -/
lemma Makes.yields {r : Except Failure Unit} {y z : Site σ} {w : Session}
    (makes : t.Makes folder x payload y)
    (rest : (t.sendAndCompare folder (Sha256.checksum payload)).Yields .start y r w z) :
    (t.program.selfTestIn folder t.mebibytes t.remote).Yields .start x r w z := by
  have write : t.program.host.write (sentFile folder) payload ⟨x.disk, (t.host.noise x.far).2⟩ =
      (.ok (), ⟨y.disk, (t.host.noise x.far).2⟩) := by
    change Site.write (sentFile folder) payload _ = _
    simp only [Site.write, makes.written]
  have holds : y.disk.content (sentFile folder) = .ok payload := Disk.content_write makes.written
  have report : (t.program.host.report (.payloadGenerated t.size (Sha256.checksum payload))
      ⟨y.disk, (t.host.noise x.far).2⟩).2 = y := by
    change Site.mk y.disk _ = y
    rw [← makes.reported]
  rw [makes.eq_map] at write
  rw [selfTestIn_eq makes.bounded]
  refine (Program.yields_lift .start x _).bind ?_
  refine (Program.yields_scratching _ write).bind ?_
  refine (yields_checksum (x := ⟨y.disk, (t.host.noise x.far).2⟩) holds).bind ?_
  refine (Program.yields_report _ _ _ _).bind ?_
  rwa [report]

lemma yields_of_unsent {y z : Site σ} {v : Session} {s : Stop} {expected : String}
    (unsent : t.client.run (t.upload folder) .start y = ((.error s, v), z)) :
    (t.sendAndCompare folder expected).Yields .start y (.error (.ofStop s)) v z :=
  (Program.yields_carry t.program .start unsent).bind_error

lemma yields_of_unfetched {y z final : Site σ} {v w : Session} {job : Option Int64} {s : Stop}
    {expected : String} (sent : t.client.run (t.upload folder) .start y = ((.ok job, v), z))
    (unfetched : t.client.run (t.download folder) v z = ((.error s, w), final)) :
    (t.sendAndCompare folder expected).Yields .start y (.error (.ofStop s)) w final :=
  (Program.yields_carry t.program .start sent).bind
    (Program.yields_carry t.program v unfetched).bind_error

lemma yields_compare (t : SelfTest σ) (v : Session) (x : Site σ) (expected actual : String) :
    ∃ y, (t.compare expected actual).Yields v x
      (if actual = expected then .ok () else .error (.error (.mismatch expected actual))) v y := by
  unfold compare
  by_cases same : actual = expected
  · rw [if_pos same, if_neg (not_not_intro same)]
    exact ⟨_, Program.yields_report t.program v x _⟩
  · rw [if_neg same, if_pos same]
    exact ⟨_, (Program.yields_throw v x _).bind_error⟩

lemma RoundTrip.yields {received : Bytes} (trip : t.RoundTrip folder x payload received) :
    ∃ w y, (t.program.selfTestIn folder t.mebibytes t.remote).Yields .start x
      (if Sha256.checksum received = Sha256.checksum payload then .ok ()
        else .error (.error (.mismatch (Sha256.checksum payload) (Sha256.checksum received))))
      w y := by
  obtain ⟨makes, sent, -, fetched, -, holds⟩ := trip
  obtain ⟨y, compare⟩ := yields_compare t _ _ (Sha256.checksum payload) (Sha256.checksum received)
  exact ⟨_, y, makes.yields ((Program.yields_carry t.program .start sent).bind
    ((Program.yields_carry t.program _ fetched).bind ((yields_checksum holds).bind compare)))⟩

lemma yields_of_ends {r : Except Failure Unit} (h : t.Ends folder x r) :
    ∃ w y, (t.program.selfTestIn folder t.mebibytes t.remote).Yields .start x r w y := by
  cases h with
  | tooLarge large => exact ⟨_, _, yields_of_large large⟩
  | unwritten made unwritten => exact ⟨_, made.yields_of_unwritten unwritten⟩
  | unsent makes unsent => exact ⟨_, _, makes.yields (yields_of_unsent unsent)⟩
  | unfetched makes sent unfetched =>
    exact ⟨_, _, makes.yields (yields_of_unfetched sent unfetched)⟩
  | passed trip same => simpa only [if_pos same] using trip.yields
  | mismatched trip other => simpa only [if_neg other] using trip.yields

/-! ### What the transfers have done -/

variable (t) in
lemma client_eq : t.client =
    t.host.client t.program.gateway (t.credentials.fetch t.host.surroundings) := by
  simp only [client, program, Program.client, Program.ofSettings, FarHost.host, FarSide.client]

variable (t) in
lemma client_livesOn : t.client.LivesOn Site.disk := by
  rw [client_eq]
  exact t.host.livesOn _ (t.credentials.disk_fetch t.host.toFarSide)

/-- Whatever the surroundings do, the two transfers of a self-test that comes so far are a round
trip. -/
lemma Makes.trip {y z final : Site σ} {v w : Session} {job : Option Int64} {size : Nat}
    (makes : t.Makes folder x payload y)
    (sent : t.client.run (t.upload folder) .start y = ((.ok job, v), z))
    (fetched : t.client.run (t.download folder) v z = ((.ok size, w), final)) :
    ∃ received, t.RoundTrip folder x payload received := by
  have lives := t.client_livesOn
  have agree : t.profile.smallLimit = t.client.gateway.smallLimit :=
    Program.smallLimit_ofSettings ..
  have delivered := lives.delivered agree rfl (Disk.content_write makes.written)
    (congrArg (fun r => r.1.1) sent)
  obtain ⟨received, collected, holds⟩ := lives.toWritesOn.collected agree
    (congrArg (fun r => r.1.1) fetched)
  change Disk.content (t.client.run (t.download folder) v z).2.disk _ = _ at holds
  rw [fetched] at holds
  exact ⟨received, .intro makes sent delivered fetched collected holds⟩

variable (t folder x) in
/-- A self-test ends in some way. -/
lemma exists_ends : ∃ r, t.Ends folder x r := by
  by_cases large : 2 ^ 64 ≤ t.size
  · exact ⟨_, .tooLarge large⟩
  have made := isPayload_map (x := x) (Nat.lt_of_not_le large)
  generalize (List.range t.size).map (t.host.noise x.far).1 = payload at made
  cases written : x.disk.write (sentFile folder) payload with
  | error e => exact ⟨_, .unwritten made written⟩
  | ok disk =>
    have makes : t.Makes folder x payload ⟨disk, (t.host.report
        (.payloadGenerated t.size (Sha256.checksum payload)) (t.host.noise x.far).2).2⟩ :=
      ⟨made, written, rfl⟩
    generalize Site.mk disk _ = y at makes
    rcases sent : t.client.run (t.upload folder) .start y with ⟨⟨s | job, v⟩, z⟩
    · exact ⟨_, .unsent makes sent⟩
    rcases fetched : t.client.run (t.download folder) v z with ⟨⟨s | size, w⟩, final⟩
    · exact ⟨_, .unfetched makes sent fetched⟩
    obtain ⟨received, trip⟩ := makes.trip sent fetched
    by_cases same : Sha256.checksum received = Sha256.checksum payload
    · exact ⟨_, .passed trip same⟩
    · exact ⟨_, .mismatched trip same⟩

/-! ### The result -/

lemma result_of_yields {r : Except Failure Unit} {w : Session} {y : Site σ}
    (h : (t.program.selfTest t.mebibytes t.remote).Yields .start x r w y) : t.result x = r := by
  have ends : (t.program.selfTest t.mebibytes t.remote).run.run .start x = ((r, w), y) := h
  rw [result, ends]

lemma result_of_unscratched {y : Site σ} {e : IoError} (made : t.host.scratch x = (.error e, y)) :
    t.result x = .error (.error (.scratch e)) :=
  result_of_yields (Program.yields_scratching .start made).bind_error

lemma result_of_ends {y : Site σ} {r : Except Failure Unit}
    (made : t.host.scratch x = (.ok folder, y)) (h : t.Ends folder y r) : t.result x = r := by
  obtain ⟨w, z, yields⟩ := yields_of_ends h
  have discard := Program.yields_lift w z (t.host.discard folder)
  refine result_of_yields (w := w) (y := (t.host.discard folder z).2)
    ((Program.yields_scratching .start made).bind
      ((Program.yields_visit .start yields).bind (discard.bind ?_)))
  cases r <;> rfl

/-- In its folder, a self-test ends in just one way. -/
lemma ends_iff {y : Site σ} {r : Except Failure Unit} (made : t.host.scratch x = (.ok folder, y)) :
    t.Ends folder y r ↔ t.result x = r := by
  refine ⟨result_of_ends made, ?_⟩
  rintro rfl
  obtain ⟨r, ends⟩ := t.exists_ends folder y
  rwa [result_of_ends made ends]

variable (t) in
lemma source_client : t.client.source = t.credentials.fetch t.client.around := by
  simp only [client_eq, FarSide.client]

lemma overruns_of_upload {y : Site σ} {o : Overrun}
    (ended : (t.client.run (t.upload folder) .start y).1.1 = .error (.overrun o)) :
    t.profile.Overruns (t.client.diary (t.upload folder) .start y) o :=
  Client.overruns_of_run t.source_client
    (fun _ _ (course : (t.profile.upload ..).Course ..) => Profile.exceeds_of_upload course) ended

lemma overruns_of_download {v : Session} {y : Site σ} {o : Overrun}
    (ended : (t.client.run (t.download folder) v y).1.1 = .error (.overrun o)) :
    t.profile.Overruns (t.client.diary (t.download folder) v y) o :=
  Client.overruns_of_run t.source_client
    (fun _ _ (course : (t.profile.download ..).Course ..) => Profile.exceeds_of_download course)
    ended

variable (t folder) in
/-- One of the two transfers leaves its range. -/
def TransferOverruns (x : Site σ) (o : Overrun) : Prop :=
  ∃ payload y, t.Makes folder x payload y ∧
    (t.profile.Overruns (t.client.diary (t.upload folder) .start y) o ∨ ∃ job v z,
      t.client.run (t.upload folder) .start y = ((.ok job, v), z) ∧
        t.profile.Overruns (t.client.diary (t.download folder) v z) o)

lemma TransferOverruns.ne_payload {o : Overrun} (h : t.TransferOverruns folder x o) :
    o ≠ .payload := by
  obtain ⟨_, _, -, overruns | ⟨_, _, _, -, overruns⟩⟩ := h
  all_goals cases overruns <;> simp

lemma Ends.of_ok (h : t.Ends folder x (.ok ())) : ∃ payload received,
    t.RoundTrip folder x payload received ∧ Sha256.digest received = Sha256.digest payload := by
  cases h with
  | passed trip same => exact ⟨_, _, trip, Sha256.checksum_inj.1 same⟩

lemma Ends.of_mismatch {expected actual : String}
    (h : t.Ends folder x (.error (.error (.mismatch expected actual)))) : ∃ payload received,
      t.RoundTrip folder x payload received ∧ Sha256.digest received ≠ Sha256.digest payload ∧
        expected = Sha256.checksum payload ∧ actual = Sha256.checksum received := by
  generalize same : Except.error (Failure.error (.mismatch expected actual)) = r at h
  cases h with
  | @unsent _ _ _ _ s => cases s <;> cases same
  | @unfetched _ _ _ _ _ _ _ s => cases s <;> cases same
  | mismatched trip other =>
    cases same
    exact ⟨_, _, trip, fun same => other (Sha256.checksum_inj.2 same), rfl, rfl⟩
  | _ => cases same

lemma Ends.of_overrun {o : Overrun} (h : t.Ends folder x (.error (.overrun o))) :
    o = .payload ∧ 2 ^ 64 ≤ t.size ∨ t.TransferOverruns folder x o := by
  generalize same : Except.error (Failure.overrun o) = r at h
  cases h with
  | tooLarge large =>
    cases same
    exact .inl ⟨rfl, large⟩
  | @unsent _ _ _ _ s makes unsent =>
    cases s <;> cases same
    exact .inr ⟨_, _, makes, .inl (overruns_of_upload (congrArg (fun r => r.1.1) unsent))⟩
  | @unfetched _ _ _ _ _ _ _ s makes sent unfetched =>
    cases s <;> cases same
    exact .inr ⟨_, _, makes,
      .inr ⟨_, _, _, sent, overruns_of_download (congrArg (fun r => r.1.1) unfetched)⟩⟩
  | _ => cases same

/-! ### What the result means -/

/-- A folder is made, and something holds there. -/
def InFolder (t : SelfTest σ) (x : Site σ) (P : String → Site σ → Prop) : Prop :=
  ∃ folder y, t.host.scratch x = (.ok folder, y) ∧ P folder y

lemma inFolder_iff {y : Site σ} {P : String → Site σ → Prop}
    (made : t.host.scratch x = (.ok folder, y)) : t.InFolder x P ↔ P folder y := by
  constructor
  · rintro ⟨folder', y', made', holds⟩
    cases made.symm.trans made'
    exact holds
  · exact fun holds => ⟨folder, y, made, holds⟩

lemma not_inFolder {y : Site σ} {e : IoError} {P : String → Site σ → Prop}
    (made : t.host.scratch x = (.error e, y)) : ¬t.InFolder x P := by
  rintro ⟨folder, y', made', -⟩
  cases made.symm.trans made'

/-- What the end of a self-test means. -/
structure Means (t : SelfTest σ) (x : Site σ) (r : Except Failure Unit) : Prop where
  /-- The test passes exactly if a payload has gone to the remote path and has come back with its
  digest. -/
  passed : r = .ok () ↔ t.InFolder x fun folder y => ∃ payload received,
    t.RoundTrip folder y payload received ∧ Sha256.digest received = Sha256.digest payload
  /-- What has come back with another digest is reported, and nothing else is reported so. -/
  mismatched : ∀ expected actual, r = .error (.error (.mismatch expected actual)) ↔
    t.InFolder x fun folder y => ∃ payload received, t.RoundTrip folder y payload received ∧
      Sha256.digest received ≠ Sha256.digest payload ∧
      expected = Sha256.checksum payload ∧ actual = Sha256.checksum received
  /-- There is no payload of a size that cannot be counted. -/
  uncounted : r = .error (.overrun .payload) ↔ t.InFolder x fun _ _ => 2 ^ 64 ≤ t.size
  /-- Nothing else leaves its range but in one of the two transfers. -/
  overrun : ∀ o, r = .error (.overrun o) → o ≠ .payload →
    t.InFolder x fun folder y => t.TransferOverruns folder y o

variable (t x) in
/-- A self-test passes exactly if its payload has kept its digest on the way to the remote path and
back, and it leaves its range only by the size of the payload or in one of its transfers. -/
theorem result_means : t.Means x (t.result x) := by
  rcases made : t.host.scratch x with ⟨e | folder, y⟩
  · rw [result_of_unscratched made]
    constructor <;> simp [not_inFolder made]
  · constructor <;> simp only [inFolder_iff made, ← ends_iff made]
    · refine ⟨Ends.of_ok, ?_⟩
      rintro ⟨payload, received, trip, same⟩
      exact .passed trip (Sha256.checksum_inj.2 same)
    · refine fun expected actual => ⟨Ends.of_mismatch, ?_⟩
      rintro ⟨payload, received, trip, other, rfl, rfl⟩
      exact .mismatched trip fun same => other (Sha256.checksum_inj.1 same)
    · refine ⟨fun ends => ?_, .tooLarge⟩
      rcases ends.of_overrun with ⟨-, large⟩ | overruns
      · exact large
      · exact absurd rfl overruns.ne_payload
    · exact fun o ends other => ends.of_overrun.resolve_left fun uncounted => other uncounted.1

/-- A self-test among surroundings that answer nothing. -/
def unanswered (mebibytes : UInt64) : SelfTest Unit where
  host        := {
    exchange  := fun _ => pure (.lost "no answer")
    now       := pure ⟨0⟩
    pause     := fun _ => pure ()
    cancelled := pure false
    prefer    := pure 0
    listen    := fun _ => pure ()
    enter     := fun _ => pure ()
    report    := fun _ => pure ()
    noise     := pure fun _ => 0
    scratch   := pure (.ok "")
    discard   := fun _ => pure () }
  settings    := .default ""
  credentials := ⟨"", "", ""⟩
  patience    := 0
  mebibytes   := mebibytes
  remote      := "/rt.bin"

/-- The least number of mebibytes whose bytes cannot be counted. -/
theorem result_means_uncounted :
    (unanswered 17592186044416).result ⟨.empty, ()⟩ = .error (.overrun .payload) :=
  (result_means _ _).uncounted.2 ⟨"", _, rfl, by decide⟩

end SelfTest

end StagedTransfer
