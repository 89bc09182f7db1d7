import StagedTransfer.Proofs.Json.Standing

/-!
# The members of a record

The members of an object are taken one after the other into the fields met so far. What is met in
the end depends on what stands under each key alone, not on the order of keys or on other members.
-/

namespace StagedTransfer.Json

variable {k key : String} {r : Reading} {members : List (Option String × Reading)}

/-! ### Results -/

lemma bind_eq_ok_iff {ε α β : Type} {x : Except ε α} {f : α → Except ε β} {b : β} :
    x >>= f = .ok b ↔ ∃ a, x = .ok a ∧ f a = .ok b := by
  cases x with
  | error e => exact ⟨nofun, fun ⟨_, h, _⟩ => nomatch h⟩
  | ok a => exact ⟨fun h => ⟨a, rfl, h⟩, fun ⟨_, rfl, h⟩ => h⟩

lemma map_eq_ok_iff {ε α β : Type} {x : Except ε α} {f : α → β} {b : β} :
    x.map f = .ok b ↔ ∃ a, x = .ok a ∧ f a = b := by
  cases x with
  | error e => exact ⟨nofun, fun ⟨_, h, _⟩ => nomatch h⟩
  | ok a => exact ⟨fun h => ⟨a, rfl, Except.ok.inj h⟩, fun ⟨_, rfl, h⟩ => congrArg Except.ok h⟩

lemma toOption_eq_some_iff {ε α : Type} {x : Except ε α} {a : α} :
    x.toOption = some a ↔ x = .ok a := by
  cases x with
  | error e => exact ⟨nofun, nofun⟩
  | ok b => exact ⟨fun h => congrArg Except.ok (Option.some.inj h), fun h => by rw [h]; rfl⟩

/-! ### What stands under a key -/

@[simp] lemma valuesAt_cons_self (key : String) (r : Reading)
    (members : List (Option String × Reading)) :
    valuesAt key ((some key, r) :: members) = r :: valuesAt key members := by
  simp [valuesAt]

lemma valuesAt_cons_of_ne (h : k ≠ key) :
    valuesAt key ((some k, r) :: members) = valuesAt key members := by
  simp [valuesAt, h]

lemma mem_of_mem_valuesAt (h : r ∈ valuesAt key members) : (some key, r) ∈ members := by
  obtain ⟨⟨k, r⟩, hm, rfl⟩ := List.mem_map.1 h
  obtain ⟨hm, hk⟩ := List.mem_filter.1 hm
  obtain rfl : k = some key := by simpa using hk
  exact hm

/-! ### Fields -/

/-- What is met of a field in the end, of what was met before and the readings that are still to
come. It is met once at most. -/
def Shape.Meets (s : Shape) : Option s.Carrier → List Reading → Option s.Carrier → Prop
  | a,           [],      b => b = a
  | some _,      _ :: _,  _ => False
  | Option.none, r :: rs, b => ∃ a, s.read r = .ok a ∧ s.Meets (some a) rs b

/-- What is met of each field in the end, of what was met before and the members that are still to
come. -/
def Fields.Met : (fields : Fields) → fields.Partial → List (Option String × Reading) →
    fields.Partial → Prop
  | .nil,               _,         _,       _          => True
  | .cons key _ s rest, (a, more), members, (b, more') =>
    s.Meets a (valuesAt key members) b ∧ rest.Met more members more'

/-- What each field carries: what stands under its key, or its default. -/
def Fields.ReadUnder : (fields : Fields) → List (Option String × Reading) → fields.Carrier → Prop
  | .nil,               _,       _      => True
  | .cons key p s rest, members, (a, b) =>
    (match valuesAt key members with
      | []  => p ≠ .required ∧ a = s.default
      | [r] => s.read r = .ok a
      | _   => False) ∧
    rest.ReadUnder members b

lemma Fields.met_nil_iff (fields : Fields) (acc met : fields.Partial) :
    fields.Met acc [] met ↔ met = acc := by
  match fields with
  | .nil => exact ⟨fun _ => rfl, fun _ => trivial⟩
  | .cons key p s rest =>
    obtain ⟨a, more⟩ := acc
    obtain ⟨b, more'⟩ := met
    have first : s.Meets a [] b ↔ b = a := by cases a <;> exact Iff.rfl
    exact (and_congr first (rest.met_nil_iff more more')).trans
      (Iff.of_eq (Prod.mk.injEq _ _ _ _)).symm

/-- A member is of no account to fields with other keys. -/
lemma Fields.met_cons_of_not_mem (fields : Fields) (hk : k ∉ fields.keys) (r : Reading)
    (members : List (Option String × Reading)) (acc met : fields.Partial) :
    fields.Met acc ((some k, r) :: members) met ↔ fields.Met acc members met := by
  match fields with
  | .nil => exact Iff.rfl
  | .cons key p s rest =>
    have hne : k ≠ key := fun h => hk (h ▸ List.mem_cons_self)
    have hk' : k ∉ rest.keys := fun h => hk (List.mem_cons_of_mem key h)
    obtain ⟨a, more⟩ := acc
    obtain ⟨b, more'⟩ := met
    rw [Fields.Met, Fields.Met, valuesAt_cons_of_ne hne, rest.met_cons_of_not_mem hk' r members]

lemma Fields.isSound_cons {p : Presence} {s : Shape} {rest : Fields} :
    (Fields.cons key p s rest).isSound = true ↔
      key ∉ rest.keys ∧ s.isSound = true ∧ rest.isSound = true := by
  simp [Fields.isSound, and_assoc]

/-- One member is taken as what is met in the end requires. -/
lemma Fields.met_cons_iff (fields : Fields) (sound : fields.isSound = true)
    (acc met : fields.Partial) :
    fields.Met acc ((some k, r) :: members) met ↔
      ∃ o, fields.take acc k r = .ok o ∧ fields.Met (o.getD acc) members met := by
  match fields with
  | .nil => exact ⟨fun _ => ⟨Option.none, rfl, trivial⟩, fun _ => trivial⟩
  | .cons key p s rest =>
    obtain ⟨a, more⟩ := acc
    obtain ⟨b, more'⟩ := met
    obtain ⟨apart, -, sound⟩ := isSound_cons.1 sound
    -- The member is for this field, which nothing was met for before, or for one of the rest.
    by_cases hk : k = key
    · subst hk
      have others := rest.met_cons_of_not_mem apart r members more more'
      rw [Fields.Met, others, valuesAt_cons_self, Fields.take, if_pos rfl]
      cases a with
      | some a => exact ⟨fun h => h.1.elim, fun ⟨_, h, _⟩ => nomatch h⟩
      | none =>
        rw [Option.isSome_none, if_neg Bool.false_ne_true]
        constructor
        · rintro ⟨⟨a, ha, first⟩, others⟩
          exact ⟨_, bind_eq_ok_iff.2 ⟨a, ha, rfl⟩, first, others⟩
        · rintro ⟨o, taken, h⟩
          obtain ⟨a, ha, ho⟩ := bind_eq_ok_iff.1 taken
          obtain rfl := Except.ok.inj ho
          exact ⟨⟨a, ha, h.1⟩, h.2⟩
    · rw [Fields.Met, rest.met_cons_iff sound, valuesAt_cons_of_ne hk, Fields.take, if_neg hk]
      constructor
      · rintro ⟨first, o, taken, others⟩
        refine ⟨_, bind_eq_ok_iff.2 ⟨o, taken, rfl⟩, ?_⟩
        cases o <;> exact ⟨first, others⟩
      · rintro ⟨o', taken', h⟩
        obtain ⟨o, taken, ho⟩ := bind_eq_ok_iff.1 taken'
        obtain rfl := Except.ok.inj ho
        cases o <;> exact ⟨h.1, _, taken, h.2⟩

/-- Whatever is gathered has been met. -/
lemma Fields.met_of_gather (fields : Fields) (sound : fields.isSound = true)
    {acc met : fields.Partial} (h : gather fields.take acc members = .ok met) :
    fields.Met acc members met := by
  induction members generalizing acc with
  | nil => exact (fields.met_nil_iff acc met).2 (Except.ok.inj h).symm
  | cons m members ih =>
    obtain ⟨_ | k, r⟩ := m
    · cases h
    obtain ⟨o, taken, h⟩ := bind_eq_ok_iff.1 h
    refine (fields.met_cons_iff sound acc met).2 ⟨o, taken, ih ?_⟩
    cases o with
    | some acc' => exact h
    | none =>
      cases skipped : r.skip with
      | some f => simp [skipped] at h
      | none => simpa [skipped] using h

/-- What is met in the end is gathered, unless something goes wrong in a member that nobody
knows. -/
lemma Fields.gather_of_met (fields : Fields) (sound : fields.isSound = true)
    (named : ∀ m ∈ members, m.1.isSome) (whole : ∀ m ∈ members, m.2.skip = Option.none)
    {acc met : fields.Partial} (h : fields.Met acc members met) :
    gather fields.take acc members = .ok met := by
  induction members generalizing acc with
  | nil => exact congrArg Except.ok ((fields.met_nil_iff acc met).1 h).symm
  | cons m members ih =>
    obtain ⟨_ | k, r⟩ := m
    · exact absurd (named _ List.mem_cons_self) (by simp)
    obtain ⟨o, taken, h⟩ := (fields.met_cons_iff sound acc met).1 h
    have rest := ih (fun m hm => named m (List.mem_cons_of_mem _ hm))
      (fun m hm => whole m (List.mem_cons_of_mem _ hm)) h
    have skipped : r.skip = Option.none := whole _ List.mem_cons_self
    refine bind_eq_ok_iff.2 ⟨o, taken, ?_⟩
    cases o with
    | some acc' => exact rest
    | none => simpa [skipped] using rest

/-- A field of which something has been met carries it; else it has its default, unless it is
required. -/
lemma Fields.complete_cons_iff {p : Presence} {s : Shape} {rest : Fields} {o : Option s.Carrier}
    {more : rest.Partial} {a : s.Carrier} {b : rest.Carrier} :
    (Fields.cons key p s rest).complete (o, more) = .ok (a, b) ↔
      (o = some a ∨ o = Option.none ∧ p ≠ .required ∧ a = s.default) ∧
        rest.complete more = .ok b := by
  have pair (a' : s.Carrier) :
      (rest.complete more >>= fun b => pure (a', b)) = Except.ok (a, b) ↔
        a' = a ∧ rest.complete more = .ok b := by
    rw [bind_eq_ok_iff]
    constructor
    · rintro ⟨b', done, h⟩
      obtain ⟨rfl, rfl⟩ := Prod.mk.inj (Except.ok.inj h)
      exact ⟨rfl, done⟩
    · rintro ⟨rfl, done⟩
      exact ⟨b, done, rfl⟩
  cases o with
  | some a' => exact (pair a').trans (by simp)
  | none =>
    by_cases required : p = .required
    · subst required
      exact ⟨nofun, fun h => by simp at h⟩
    · rw [Fields.complete.eq_4 _ _ _ _ _ required]
      exact (pair s.default).trans (by simp [required, eq_comm])

/-- The fields that have been met are completed to what each field carries. -/
lemma Fields.readUnder_iff (fields : Fields) (x : fields.Carrier) :
    fields.ReadUnder members x ↔
      ∃ met, fields.Met fields.none members met ∧ fields.complete met = .ok x := by
  match fields with
  | .nil => exact ⟨fun _ => ⟨(), trivial, rfl⟩, fun _ => trivial⟩
  | .cons key p s rest =>
    obtain ⟨a, b⟩ := x
    have first : (match valuesAt key members with
        | []  => p ≠ .required ∧ a = s.default
        | [r] => s.read r = .ok a
        | _   => False) ↔ ∃ o, s.Meets Option.none (valuesAt key members) o ∧
          (o = some a ∨ o = Option.none ∧ p ≠ .required ∧ a = s.default) := by
      match valuesAt key members with
      | [] => simp [Shape.Meets]
      | [r] => simp [Shape.Meets]
      | _ :: _ :: _ => simp [Shape.Meets]
    rw [Fields.ReadUnder, rest.readUnder_iff b, first]
    constructor
    · rintro ⟨⟨o, met, carried⟩, more, others, done⟩
      exact ⟨(o, more), ⟨met, others⟩, complete_cons_iff.2 ⟨carried, done⟩⟩
    · rintro ⟨⟨o, more⟩, ⟨met, others⟩, done⟩
      obtain ⟨carried, done⟩ := complete_cons_iff.1 done
      exact ⟨⟨o, met, carried⟩, more, others, done⟩

/-! ### Objects -/

/-- What is read of an object is what each field carries. -/
theorem Fields.readUnder_of_read {fields : Fields} (sound : fields.isSound = true) {name : String}
    {ending : Option Breach} {x : fields.Carrier}
    (h : (Shape.record name fields).read (.object members ending) = .ok x) :
    fields.ReadUnder members x := by
  obtain ⟨met, gathered, h⟩ := bind_eq_ok_iff.1 h
  obtain ⟨met', closed, done⟩ := bind_eq_ok_iff.1 h
  cases ending with
  | some b => cases closed
  | none =>
    obtain rfl := Except.ok.inj closed
    exact (fields.readUnder_iff x).2 ⟨met, fields.met_of_gather sound gathered, done⟩

/-- An object in which nothing goes wrong is read as what each field carries. -/
theorem Fields.read_of_readUnder {fields : Fields} (sound : fields.isSound = true) (name : String)
    (named : ∀ m ∈ members, m.1.isSome) (whole : ∀ m ∈ members, m.2.skip = Option.none)
    {x : fields.Carrier} (h : fields.ReadUnder members x) :
    (Shape.record name fields).read (.object members Option.none) = .ok x := by
  obtain ⟨met, h, done⟩ := (fields.readUnder_iff x).1 h
  have gathered := fields.gather_of_met sound named whole h
  exact bind_eq_ok_iff.2 ⟨met, gathered, bind_eq_ok_iff.2 ⟨met, rfl, done⟩⟩

end StagedTransfer.Json
