import StagedTransfer.Proofs.Json.Gathering
import StagedTransfer.Proofs.Json.Printing
import StagedTransfer.Proofs.Json.Reading

/-!
# Messages and their texts

Whatever stands for a message is read as it, and whatever may be written for a message stands for it.
What holds a known key twice is never read.
-/

namespace StagedTransfer.Json

/-! ### Integers -/

namespace Width

lemma ofInt_toInt (w : Width) (x : w.Carrier) : w.ofInt (w.toInt x) = x := by
  cases w with
  | i32 => exact Int32.ofInt_toInt x
  | u32 => exact UInt32.ofNat_toNat
  | i64 => exact Int64.ofInt_toInt x
  | u64 => exact UInt64.ofNat_toNat

lemma least_le_toInt (w : Width) (x : w.Carrier) : w.least ≤ w.toInt x := by
  cases w with
  | i32 => exact Int32.le_toInt x
  | u32 => exact Int.natCast_nonneg _
  | i64 => exact Int64.le_toInt x
  | u64 => exact Int.natCast_nonneg _

lemma toInt_le_greatest (w : Width) (x : w.Carrier) : w.toInt x ≤ w.greatest := by
  cases w with
  | i32 => exact Int.le_sub_one_of_lt (Int32.toInt_lt x)
  | u32 => exact Int.le_sub_one_of_lt (Int.ofNat_lt.2 (UInt32.toNat_lt x))
  | i64 => exact Int.le_sub_one_of_lt (Int64.toInt_lt x)
  | u64 => exact Int.le_sub_one_of_lt (Int.ofNat_lt.2 (UInt64.toNat_lt x))

lemma read_toInt (w : Width) (x : w.Carrier) :
    w.read (.number (.integer (w.toInt x))) = .ok x := by
  rw [Width.read, if_pos ⟨w.least_le_toInt x, w.toInt_le_greatest x⟩, w.ofInt_toInt]

/-- An integer of a width can be written. -/
lemma fits (w : Width) (x : w.Carrier) : (Number.integer (w.toInt x)).Fits := by
  have least := w.least_le_toInt x
  have greatest := w.toInt_le_greatest x
  refine ⟨Int.le_trans ?_ least, Int.le_trans greatest ?_⟩ <;> cases w <;> decide

end Width

/-! ### Tables and lists -/

lemma gather_takeEntry (entries : List (String × String)) (t : OrderedMap String String) :
    gather takeEntry t (entries.map fun e => (some e.1, .string e.2)) =
      .ok (entries.foldl (fun t e => t.insert e.1 e.2) t) := by
  induction entries generalizing t with
  | nil => rfl
  | cons e entries ih => exact ih (t.insert e.1 e.2)

/-- The entries of a table may be met in any order. -/
lemma ofList_eq_of_perm {entries : List (String × String)} {t : OrderedMap String String}
    (h : entries.Perm t.entries) : OrderedMap.ofList entries = t := by
  have keys : (entries.map (·.1)).Perm t.keys := h.map (·.1)
  have distinct : (entries.map (·.1)).Nodup := keys.nodup_iff.2 t.nodup_keys
  exact OrderedMap.eq_of_mem_iff fun e => (OrderedMap.mem_entries_ofList distinct).trans h.mem_iff

lemma readAll_eq_ok_iff {α : Type} {f : Reading → Except ReadError α} {items : List Reading}
    {as : List α} :
    readAll f items = .ok as ↔ List.Forall₂ (fun r a => f r = .ok a) items as := by
  induction items generalizing as with
  | nil =>
    rw [List.forall₂_nil_left_iff]
    exact ⟨fun h => (Except.ok.inj h).symm, fun h => h ▸ rfl⟩
  | cons r items ih =>
    rw [readAll, bind_eq_ok_iff, List.forall₂_cons_left_iff]
    constructor
    · rintro ⟨a, ha, h⟩
      obtain ⟨as', has, h⟩ := bind_eq_ok_iff.1 h
      exact ⟨a, as', ha, ih.1 has, (Except.ok.inj h).symm⟩
    · rintro ⟨a, as', ha, has, rfl⟩
      exact ⟨a, ha, bind_eq_ok_iff.2 ⟨as', ih.2 has, rfl⟩⟩

lemma exists_of_readAll {α : Type} {f : Reading → Except ReadError α} {items : List Reading}
    {as : List α} (h : readAll f items = .ok as) {r : Reading} (hr : r ∈ items) :
    ∃ a, f r = .ok a := by
  induction readAll_eq_ok_iff.1 h with
  | nil => simp at hr
  | cons first others ih =>
    rcases List.mem_cons.1 hr with rfl | hr
    · exact ⟨_, first⟩
    · exact ih (readAll_eq_ok_iff.2 others) hr

/-! ### Faults -/

lemma skip_eq_none_of_mem_items {items : List Reading} (h : skipItems items = none) :
    ∀ r ∈ items, r.skip = none := by
  induction items with
  | nil => simp
  | cons r items ih =>
    obtain ⟨first, others⟩ := Option.or_eq_none_iff.1 h
    exact List.forall_mem_cons.2 ⟨first, ih others⟩

lemma skip_eq_none_of_mem_members {members : List (Option String × Reading)}
    (h : skipMembers members = none) : ∀ m ∈ members, m.2.skip = none := by
  induction members with
  | nil => simp
  | cons m members ih =>
    obtain ⟨first, others⟩ := Option.or_eq_none_iff.1 h
    exact List.forall_mem_cons.2 ⟨first, ih others⟩

/-! ### What is read -/

lemma Shape.ne_null_of_standsFor (s : Shape) (plain : s.isNullable = false) {r : Reading}
    {x : s.Carrier} (h : s.StandsFor r x) : r ≠ .null := by
  rintro rfl
  cases s with
  | nullable s => cases plain
  | table =>
    obtain ⟨_, _, h⟩ := h
    cases h
  | list s =>
    obtain ⟨_, h, _⟩ := h
    cases h
  | record name fields =>
    rcases h with ⟨_, h, _⟩ | ⟨_, h, _⟩ <;> cases h
  | _ => cases h

lemma Shape.read_nullable (s : Shape) {r : Reading} (h : r ≠ .null) :
    (Shape.nullable s).read r = (s.read r).map some := by
  cases r <;> first | exact absurd rfl h | rfl

mutual

/-- Whatever stands for a message is read as it, if nothing goes wrong in it. -/
theorem Shape.read_of_standsFor (s : Shape) (sound : s.isSound = true) {r : Reading}
    (whole : r.skip = Option.none) {x : s.Carrier} (h : s.StandsFor r x) : s.read r = .ok x := by
  match s with
  | .integer w =>
    obtain rfl := h
    exact w.read_toInt x
  | .text =>
    obtain rfl := h
    rfl
  | .flag =>
    obtain rfl := h
    rfl
  | .table =>
    obtain ⟨entries, perm, rfl⟩ := h
    refine bind_eq_ok_iff.2 ⟨_, gather_takeEntry entries OrderedMap.empty, ?_⟩
    exact congrArg Except.ok (ofList_eq_of_perm perm)
  | .nullable s =>
    obtain ⟨plain, sound⟩ : s.isNullable = false ∧ s.isSound = true := by
      simpa [Shape.isSound] using sound
    cases x with
    | none =>
      obtain rfl := h
      rfl
    | some a =>
      have read := s.read_of_standsFor sound whole h
      rw [s.read_nullable (s.ne_null_of_standsFor plain h), read]
      rfl
  | .list s =>
    obtain ⟨items, rfl, h⟩ := h
    have each := skip_eq_none_of_mem_items (by simpa [Reading.skip] using whole)
    have read : List.Forall₂ (fun r a => s.read r = .ok a) items x :=
      ((List.forall₂_and_left items x).2 ⟨each, h⟩).imp fun _ _ hr =>
        s.read_of_standsFor sound hr.1 hr.2
    exact bind_eq_ok_iff.2 ⟨x, readAll_eq_ok_iff.2 read, rfl⟩
  | .record name fields =>
    rcases h with ⟨members, rfl, named, h⟩ | ⟨items, rfl, h⟩
    · have each := skip_eq_none_of_mem_members (by simpa [Reading.skip] using whole)
      exact Fields.read_of_readUnder sound name named each
        (fields.readUnder_of_standUnder sound each h)
    · have each := skip_eq_none_of_mem_items (by simpa [Reading.skip] using whole)
      exact fields.readItems_of_standAs sound name fields.size 0 each h

theorem Fields.readUnder_of_standUnder (fields : Fields) (sound : fields.isSound = true)
    {members : List (Option String × Reading)} (whole : ∀ m ∈ members, m.2.skip = Option.none)
    {x : fields.Carrier} (h : fields.StandUnder members x) : fields.ReadUnder members x := by
  match fields with
  | .nil => trivial
  | .cons key p s rest =>
    obtain ⟨a, b⟩ := x
    obtain ⟨-, sound, sound'⟩ := Fields.isSound_cons.1 sound
    obtain ⟨first, others⟩ := h
    refine ⟨?_, rest.readUnder_of_standUnder sound' whole others⟩
    have each : ∀ r ∈ valuesAt key members, r.skip = Option.none := fun r hr =>
      whole _ (mem_of_mem_valuesAt hr)
    match valuesAt key members, first, each with
    | [], first, _ => exact first
    | [r], first, each => exact s.read_of_standsFor sound (each r List.mem_cons_self) first

theorem Fields.readItems_of_standAs (fields : Fields) (sound : fields.isSound = true)
    (name : String) (size n : Nat) {items : List Reading}
    (whole : ∀ r ∈ items, r.skip = Option.none) {x : fields.Carrier} (h : fields.StandAs items x) :
    fields.readItems name size n items Option.none = .ok x := by
  match fields with
  | .nil =>
    obtain rfl := h
    rfl
  | .cons key p s rest =>
    obtain ⟨a, b⟩ := x
    obtain ⟨-, sound, sound'⟩ := Fields.isSound_cons.1 sound
    match items with
    | r :: items =>
      obtain ⟨first, others⟩ := h
      have read := s.read_of_standsFor sound (whole r List.mem_cons_self) first
      have read' := rest.readItems_of_standAs sound' name size (n + 1)
        (fun r hr => whole r (List.mem_cons_of_mem _ hr)) others
      exact bind_eq_ok_iff.2 ⟨a, read, bind_eq_ok_iff.2 ⟨b, read', rfl⟩⟩
    | [] =>
      obtain ⟨left, rfl, others⟩ := h
      have read := rest.readItems_of_standAs sound' name size (n + 1) (by simp) others
      have absent : ¬(p = .required ∨ p = .objectOnly) := by
        rcases left with rfl | rfl <;> simp
      exact bind_eq_ok_iff.2 ⟨(), rfl, (if_neg absent).trans (bind_eq_ok_iff.2 ⟨b, read, rfl⟩)⟩

end

/-! ### What is never read -/

lemma Shape.not_repeats_null (s : Shape) : ¬s.Repeats .null := by
  match s with
  | .nullable s => exact s.not_repeats_null
  | .integer _ | .text | .flag | .table | .list _ | .record _ _ => exact id

mutual

/-- What is read as a message holds no known key twice. -/
theorem Shape.not_repeats_of_read (s : Shape) (sound : s.isSound = true) {r : Reading}
    {x : s.Carrier} (h : s.read r = .ok x) : ¬s.Repeats r := by
  match s with
  | .integer w => exact id
  | .text => exact id
  | .flag => exact id
  | .table => exact id
  | .nullable s =>
    obtain ⟨-, sound⟩ : s.isNullable = false ∧ s.isSound = true := by
      simpa [Shape.isSound] using sound
    by_cases null : r = .null
    · subst null
      exact s.not_repeats_null
    · rw [s.read_nullable null] at h
      obtain ⟨a, ha, -⟩ := map_eq_ok_iff.1 h
      exact s.not_repeats_of_read sound ha
  | .list s =>
    match r with
    | .array items ending =>
      rintro ⟨item, hi, repeats⟩
      obtain ⟨as, has, -⟩ := bind_eq_ok_iff.1 h
      obtain ⟨a, ha⟩ := exists_of_readAll has hi
      exact s.not_repeats_of_read sound ha repeats
    | .null | .bool _ | .number _ | .string _ | .refused | .object _ _ | .broken _ => exact id
  | .record name fields =>
    match r with
    | .object members ending =>
      exact fields.not_repeatUnder_of_readUnder sound (Fields.readUnder_of_read sound h)
    | .array items ending => exact fields.not_repeatAmong_of_readItems sound h
    | .null | .bool _ | .number _ | .string _ | .refused | .broken _ => exact id

theorem Fields.not_repeatUnder_of_readUnder (fields : Fields) (sound : fields.isSound = true)
    {members : List (Option String × Reading)} {x : fields.Carrier}
    (h : fields.ReadUnder members x) : ¬fields.RepeatUnder members := by
  match fields with
  | .nil => exact id
  | .cons key p s rest =>
    obtain ⟨-, sound, sound'⟩ := Fields.isSound_cons.1 sound
    obtain ⟨first, others⟩ := h
    rintro (twice | ⟨r, hr, repeats⟩ | repeats)
    · match valuesAt key members, first, twice with
      | [], _, twice => simp at twice
      | [_], _, twice => simp at twice
    · match valuesAt key members, first, hr with
      | [_], first, hr =>
        obtain rfl := List.mem_singleton.1 hr
        exact s.not_repeats_of_read sound first repeats
    · exact rest.not_repeatUnder_of_readUnder sound' others repeats

theorem Fields.not_repeatAmong_of_readItems (fields : Fields) (sound : fields.isSound = true)
    {name : String} {size n : Nat} {items : List Reading} {ending : Option Fault}
    {x : fields.Carrier} (h : fields.readItems name size n items ending = .ok x) :
    ¬fields.RepeatAmong items := by
  match fields, items with
  | .nil, _ => exact id
  | .cons _ _ _ _, [] => exact id
  | .cons key p s rest, r :: items =>
    obtain ⟨-, sound, sound'⟩ := Fields.isSound_cons.1 sound
    obtain ⟨a, ha, h⟩ := bind_eq_ok_iff.1 h
    obtain ⟨b, hb, -⟩ := bind_eq_ok_iff.1 h
    rintro (repeats | repeats)
    · exact s.not_repeats_of_read sound ha repeats
    · exact rest.not_repeatAmong_of_readItems sound' hb repeats

end

/-! ### What is written -/

/-- Fields look at nothing but what stands under their keys. -/
lemma Fields.standUnder_congr (fields : Fields) {members members' : List (Option String × Reading)}
    (h : ∀ key ∈ fields.keys, valuesAt key members = valuesAt key members') {x : fields.Carrier}
    (stand : fields.StandUnder members x) : fields.StandUnder members' x := by
  match fields with
  | .nil => trivial
  | .cons key p s rest =>
    obtain ⟨a, b⟩ := x
    refine ⟨h key List.mem_cons_self ▸ stand.1, ?_⟩
    exact rest.standUnder_congr (fun key hk => h key (List.mem_cons_of_mem _ hk)) stand.2

/-- Nothing is written under other keys. -/
lemma Fields.valuesAt_of_writes (fields : Fields) {members : List (String × Value)}
    {x : fields.Carrier} (h : fields.Writes members x) {key : String} (hk : key ∉ fields.keys) :
    valuesAt key (membersAsWritten members) = [] := by
  match fields with
  | .nil =>
    obtain rfl := h
    rfl
  | .cons key' p s rest =>
    obtain ⟨a, b⟩ := x
    have apart : key' ≠ key := fun h => hk (h ▸ List.mem_cons_self)
    have absent : key ∉ rest.keys := fun h => hk (List.mem_cons_of_mem _ h)
    rw [Fields.Writes] at h
    split at h
    · exact rest.valuesAt_of_writes h absent
    · obtain ⟨v, others, rfl, -, h⟩ := h
      exact (valuesAt_cons_of_ne apart).trans (rest.valuesAt_of_writes h absent)

lemma Shape.eq_default_of_isVoid (s : Shape) {x : s.Carrier} (h : s.isVoid x = true) :
    x = s.default := by
  cases s with
  | nullable s => exact Option.isNone_iff_eq_none.1 h
  | _ => cases h

mutual

/-- What may be written for a message stands for it. -/
theorem Shape.standsFor_of_writes (s : Shape) (sound : s.isSound = true) {v : Value} {x : s.Carrier}
    (h : s.Writes v x) : s.StandsFor v.asWritten x := by
  match s with
  | .integer w =>
    obtain rfl := h
    rfl
  | .text =>
    obtain rfl := h
    rfl
  | .flag =>
    obtain rfl := h
    rfl
  | .table =>
    obtain ⟨entries, perm, rfl⟩ := h
    refine ⟨entries, perm, ?_⟩
    rw [Value.asWritten, membersAsWritten_eq_map, List.map_map]
    rfl
  | .nullable s =>
    obtain ⟨-, sound⟩ : s.isNullable = false ∧ s.isSound = true := by
      simpa [Shape.isSound] using sound
    cases x with
    | none =>
      obtain rfl := h
      rfl
    | some a => exact s.standsFor_of_writes sound h
  | .list s =>
    obtain ⟨items, rfl, h⟩ := h
    have each (as : List s.Carrier) (h : List.Forall₂ s.Writes items as) :
        List.Forall₂ s.StandsFor (itemsAsWritten items) as := by
      rw [itemsAsWritten_eq_map, List.forall₂_map_left_iff]
      exact h.imp fun _ _ hv => s.standsFor_of_writes sound hv
    exact ⟨_, rfl, each x h⟩
  | .record name fields =>
    obtain ⟨members, rfl, h⟩ := h
    refine .inl ⟨_, rfl, fun m hm => ?_, fields.standUnder_of_writes sound h⟩
    rw [membersAsWritten_eq_map] at hm
    obtain ⟨m, -, rfl⟩ := List.mem_map.1 hm
    rfl

theorem Fields.standUnder_of_writes (fields : Fields) (sound : fields.isSound = true)
    {members : List (String × Value)} {x : fields.Carrier} (h : fields.Writes members x) :
    fields.StandUnder (membersAsWritten members) x := by
  match fields with
  | .nil => trivial
  | .cons key p s rest =>
    obtain ⟨a, b⟩ := x
    obtain ⟨apart, sound, sound'⟩ := Fields.isSound_cons.1 sound
    rw [Fields.Writes] at h
    split at h
    next void =>
      rw [Fields.StandUnder, rest.valuesAt_of_writes h apart]
      refine ⟨⟨by simp [void.1], s.eq_default_of_isVoid void.2⟩, ?_⟩
      exact rest.standUnder_of_writes sound' h
    next =>
      obtain ⟨v, others, rfl, first, h⟩ := h
      rw [membersAsWritten, Fields.StandUnder, valuesAt_cons_self, rest.valuesAt_of_writes h apart]
      refine ⟨s.standsFor_of_writes sound first, ?_⟩
      refine rest.standUnder_congr (fun key' hk => ?_) (rest.standUnder_of_writes sound' h)
      -- The keys of a record differ, so that what is written for one field is met by no other.
      have hne : key ≠ key' := by
        rintro rfl
        exact apart hk
      exact (valuesAt_cons_of_ne hne).symm

end

mutual

/-- What may be written for a message has no number that cannot be written. -/
lemma Shape.fits_of_writes (s : Shape) {v : Value} {x : s.Carrier} (h : s.Writes v x) :
    v.Fits := by
  match s with
  | .integer w =>
    obtain rfl := h
    exact w.fits x
  | .text =>
    obtain rfl := h
    trivial
  | .flag =>
    obtain rfl := h
    trivial
  | .table =>
    obtain ⟨entries, -, rfl⟩ := h
    refine membersFit_iff.2 fun m hm => ?_
    obtain ⟨e, -, rfl⟩ := List.mem_map.1 hm
    trivial
  | .nullable s =>
    cases x with
    | none =>
      obtain rfl := h
      trivial
    | some a => exact s.fits_of_writes h
  | .list s =>
    obtain ⟨items, rfl, h⟩ := h
    have each (vs : List Value) (as : List s.Carrier) (written : List.Forall₂ s.Writes vs as) :
        ItemsFit vs := by
      induction written with
      | nil => trivial
      | cons first _ ih => exact ⟨s.fits_of_writes first, ih⟩
    exact each items x h
  | .record name fields =>
    obtain ⟨members, rfl, h⟩ := h
    exact fields.fits_of_writes h

lemma Fields.fits_of_writes (fields : Fields) {members : List (String × Value)}
    {x : fields.Carrier} (h : fields.Writes members x) : MembersFit members := by
  match fields with
  | .nil =>
    obtain rfl := h
    trivial
  | .cons key p s rest =>
    obtain ⟨a, b⟩ := x
    rw [Fields.Writes] at h
    split at h
    · exact rest.fits_of_writes h
    · obtain ⟨v, others, rfl, first, h⟩ := h
      exact ⟨s.fits_of_writes first, rest.fits_of_writes h⟩

end

mutual

/-- What is written for a message may be. -/
lemma Shape.writes_write (s : Shape) (x : s.Carrier) : s.Writes (s.write x) x := by
  match s with
  | .integer w => rfl
  | .text => rfl
  | .flag => rfl
  | .table => exact ⟨x.entries, .refl _, rfl⟩
  | .nullable s =>
    cases x with
    | none => rfl
    | some a => exact s.writes_write a
  | .list s =>
    have each (as : List s.Carrier) : List.Forall₂ s.Writes (as.map s.write) as := by
      rw [List.forall₂_map_left_iff, List.forall₂_same]
      exact fun a _ => s.writes_write a
    exact ⟨_, rfl, each x⟩
  | .record name fields => exact ⟨_, rfl, fields.writes_write x⟩

lemma Fields.writes_write (fields : Fields) (x : fields.Carrier) :
    fields.Writes (fields.write x) x := by
  match fields with
  | .nil => rfl
  | .cons key p s rest =>
    obtain ⟨a, b⟩ := x
    have others := rest.writes_write b
    rw [Fields.write, Fields.Writes]
    split
    · exact others
    · exact ⟨_, _, rfl, s.writes_write a, others⟩

end

/-! ### Texts -/

lemma skip_numberRead (t : NumberText) : (numberRead t).skip = none := by
  rw [numberRead]
  split <;> rfl

mutual

/-- Nothing goes wrong in a text that spells a reading. -/
lemma Spells.skip {text : List Char} {r : Reading} (h : Spells text r) : r.skip = none := by
  match h with
  | .null | .bool _ | .string _ | .refused _ => rfl
  | .positive _ | .negative _ => exact skip_numberRead _
  | .emptyArray _ | .emptyObject _ => rfl
  | .array list => exact Option.or_eq_none_iff.2 ⟨list.skip, rfl⟩
  | .object list => exact Option.or_eq_none_iff.2 ⟨list.skip, rfl⟩

lemma SpellsText.skip {cs : List Char} {r : Reading} (h : SpellsText cs r) : r.skip = none := by
  match h with
  | .intro _ value _ => exact value.skip

lemma SpellsItems.skip {cs : List Char} {items : List Reading} (h : SpellsItems cs items) :
    skipItems items = none := by
  match h with
  | .last value => exact Option.or_eq_none_iff.2 ⟨value.skip, rfl⟩
  | .more value others => exact Option.or_eq_none_iff.2 ⟨value.skip, others.skip⟩

lemma SpellsMembers.skip {cs : List Char} {members : List (Option String × Reading)}
    (h : SpellsMembers cs members) : skipMembers members = none := by
  match h with
  | .last _ value => exact Option.or_eq_none_iff.2 ⟨value.skip, rfl⟩
  | .more _ value others => exact Option.or_eq_none_iff.2 ⟨value.skip, others.skip⟩

end

variable {s : Shape} {text : List Char} {r : Reading}

/-- A text that spells a reading is decoded as what the reading carries. -/
lemma Shape.decode_of_spells (h : SpellsText text r) :
    s.decode (text.map .char) = (s.read r).mapError .inText := by
  rw [Shape.decode, read_of_spells h]
  cases s.read r <;> rfl

/-- A text of whatever stands for a message is decoded as it. -/
theorem Shape.decode_of_standsFor (sound : s.isSound = true) (h : SpellsText text r) {x : s.Carrier}
    (stands : s.StandsFor r x) : s.decode (text.map .char) = .ok x := by
  rw [decode_of_spells h, s.read_of_standsFor sound h.skip stands]
  rfl

/-- No text is decoded that holds a known key twice. -/
theorem Shape.decode_of_repeats (sound : s.isSound = true) (h : SpellsText text r)
    (repeats : s.Repeats r) : ∃ e, s.decode (text.map .char) = .error e := by
  cases read : s.read r with
  | ok x => exact absurd repeats (s.not_repeats_of_read sound read)
  | error e => exact ⟨_, by rw [decode_of_spells h, read]; rfl⟩

/-- The text of a value that may be written for a message spells what stands for the message. -/
theorem Shape.spells_of_writes {v : Value} {x : s.Carrier} (h : s.Writes v x) :
    SpellsText v.render.toList v.asWritten := by
  rw [Value.render, String.toList_ofList]
  exact (v.spells (s.fits_of_writes h)).alone

end StagedTransfer.Json
