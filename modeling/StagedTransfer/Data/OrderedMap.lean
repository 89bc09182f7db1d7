/-!
# Ordered maps

A map gives a value to each of finitely many keys. Its entries are kept in the order of the keys,
each key once, so that two maps with the same entries are equal.
-/

namespace StagedTransfer

/-- Two keys are the same or one of them lies before the other. -/
class KeyOrder (κ : Type) [LT κ] : Prop where
  trans : ∀ {a b c : κ}, a < b → b < c → a < c
  irrefl : ∀ {a : κ}, ¬a < a
  eq_of_not_lt : ∀ {a b : κ}, ¬a < b → ¬b < a → a = b

instance : KeyOrder Nat where
  trans := Nat.lt_trans
  irrefl := Nat.lt_irrefl _
  eq_of_not_lt h h' := Nat.le_antisymm (Nat.not_lt.1 h') (Nat.not_lt.1 h)

instance : KeyOrder String where
  trans := String.lt_trans
  irrefl := String.lt_irrefl _
  eq_of_not_lt h h' := String.le_antisymm (String.not_lt.1 h') (String.not_lt.1 h)

/-- The key of an entry lies before that of another. -/
def entryBefore {κ α : Type} [LT κ] (a b : κ × α) : Prop :=
  a.1 < b.1

structure OrderedMap (κ α : Type) [LT κ] where
  entries : List (κ × α)
  ordered : entries.Pairwise entryBefore

namespace OrderedMap

variable {κ α : Type} [LT κ]

@[ext]
theorem ext {s t : OrderedMap κ α} (h : s.entries = t.entries) : s = t := by
  cases s
  cases t
  simp_all

instance [DecidableEq κ] [DecidableEq α] : DecidableEq (OrderedMap κ α) := fun _ _ =>
  decidable_of_iff _ ⟨ext, fun h => h ▸ rfl⟩

def empty : OrderedMap κ α := ⟨[], .nil⟩

instance : Inhabited (OrderedMap κ α) := ⟨empty⟩

def isEmpty (t : OrderedMap κ α) : Bool :=
  t.entries.isEmpty

def size (t : OrderedMap κ α) : Nat :=
  t.entries.length

def keys (t : OrderedMap κ α) : List κ :=
  t.entries.map (·.1)

def find? [DecidableEq κ] (t : OrderedMap κ α) (key : κ) : Option α :=
  (t.entries.find? (·.1 = key)).map (·.2)

variable [DecidableLT κ]

/-- The entries with one more; an earlier one of the same key gives way. -/
def insertEntry (key : κ) (value : α) : List (κ × α) → List (κ × α)
  | []          => [(key, value)]
  | (k, v) :: s =>
    if key < k then (key, value) :: (k, v) :: s
    else if k < key then (k, v) :: insertEntry key value s
    else (key, value) :: s

theorem mem_insertEntry {key : κ} {value : α} {s : List (κ × α)} {e : κ × α}
    (h : e ∈ insertEntry key value s) : e = (key, value) ∨ e ∈ s := by
  induction s with
  | nil => simpa [insertEntry] using h
  | cons a s ih =>
    obtain ⟨k, v⟩ := a
    simp only [insertEntry] at h
    split at h
    · simpa using h
    · split at h
      · rcases List.mem_cons.1 h with h | h
        · exact .inr (h ▸ List.mem_cons_self)
        · exact (ih h).imp_right (List.mem_cons_of_mem _)
      · rcases List.mem_cons.1 h with h | h
        · exact .inl h
        · exact .inr (List.mem_cons_of_mem _ h)

variable [KeyOrder κ]

theorem pairwise_insertEntry {key : κ} {value : α} {s : List (κ × α)}
    (h : s.Pairwise entryBefore) : (insertEntry key value s).Pairwise entryBefore := by
  induction s with
  | nil => simp [insertEntry]
  | cons a s ih =>
    obtain ⟨k, v⟩ := a
    obtain ⟨ha, hs⟩ := List.pairwise_cons.1 h
    simp only [insertEntry]
    split
    · rename_i hk
      refine List.pairwise_cons.2 ⟨fun e he => ?_, h⟩
      rcases List.mem_cons.1 he with rfl | he
      · exact hk
      · exact KeyOrder.trans hk (ha e he)
    · split
      · rename_i hk
        refine List.pairwise_cons.2 ⟨fun e he => ?_, ih hs⟩
        rcases mem_insertEntry he with rfl | he
        · exact hk
        · exact ha e he
      · rename_i hk hk'
        obtain rfl := KeyOrder.eq_of_not_lt hk hk'
        exact List.pairwise_cons.2 ⟨ha, hs⟩

def insert (t : OrderedMap κ α) (key : κ) (value : α) : OrderedMap κ α :=
  ⟨insertEntry key value t.entries, pairwise_insertEntry t.ordered⟩

/-- The map of the entries, of which the last with a key counts. -/
def ofList (s : List (κ × α)) : OrderedMap κ α :=
  s.foldl (fun t e => t.insert e.1 e.2) empty

end OrderedMap

end StagedTransfer
