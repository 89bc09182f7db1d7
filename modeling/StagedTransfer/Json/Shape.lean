import StagedTransfer.Data.OrderedMap
import StagedTransfer.Json.Error

/-!
# Shapes of messages

A shape says which values a message may hold. From a shape follow the type of what is carried, the
value that is written for it and the way it is read back. A record may be read from an object,
whose unknown members are skipped, or from an array of its fields in order.
-/

namespace StagedTransfer.Json

/-! ### Integers of fixed width -/

inductive Width
  | i32
  | u32
  | i64
  | u64
  deriving DecidableEq, Repr

namespace Width

abbrev Carrier : Width → Type
  | i32 => Int32
  | u32 => UInt32
  | i64 => Int64
  | u64 => UInt64

def name : Width → String
  | i32 => "i32"
  | u32 => "u32"
  | i64 => "i64"
  | u64 => "u64"

def least : Width → Int
  | i32 => -Int.pow 2 31
  | u32 => 0
  | i64 => -Int.pow 2 63
  | u64 => 0

def greatest : Width → Int
  | i32 => Int.pow 2 31 - 1
  | u32 => Int.pow 2 32 - 1
  | i64 => Int.pow 2 63 - 1
  | u64 => Int.pow 2 64 - 1

def toInt : (w : Width) → w.Carrier → Int
  | i32, x => Int32.toInt x
  | u32, x => (UInt32.toNat x : Int)
  | i64, x => Int64.toInt x
  | u64, x => (UInt64.toNat x : Int)

/-- The integer of this width, for one that fits. -/
def ofInt : (w : Width) → Int → w.Carrier
  | i32, n => Int32.ofInt n
  | u32, n => UInt32.ofNat n.toNat
  | i64, n => Int64.ofInt n
  | u64, n => UInt64.ofNat n.toNat

def zero : (w : Width) → w.Carrier
  | i32 => (0 : Int32)
  | u32 => (0 : UInt32)
  | i64 => (0 : Int64)
  | u64 => (0 : UInt64)

end Width

/-! ### Shapes -/

/-- How a field of a record may be left out. -/
inductive Presence
  | required
  /-- It may be left out of an object, though not of an array. -/
  | objectOnly
  /-- It may be left out when read and is always written. -/
  | defaulted
  /-- It may be left out when read and is not written if it has its default. -/
  | optional
  deriving DecidableEq, Repr

mutual

inductive Shape
  | integer (w : Width)
  | text
  | flag
  /-- A table of texts, read from an object. -/
  | table
  | nullable (s : Shape)
  | list (s : Shape)
  | record (name : String) (fields : Fields)

inductive Fields
  | nil
  | cons (key : String) (presence : Presence) (s : Shape) (rest : Fields)

end

mutual

/-- What a message of the shape carries. -/
def Shape.Carrier : Shape → Type
  | .integer w       => w.Carrier
  | .text            => String
  | .flag            => Bool
  | .table           => OrderedMap String String
  | .nullable s      => Option s.Carrier
  | .list s          => List s.Carrier
  | .record _ fields => fields.Carrier

def Fields.Carrier : Fields → Type
  | .nil             => Unit
  | .cons _ _ s rest => s.Carrier × rest.Carrier

end

/-- The fields of a record that have been met so far. -/
def Fields.Partial : Fields → Type
  | .nil             => Unit
  | .cons _ _ s rest => Option s.Carrier × rest.Partial

mutual

/-- What stands for a field that is left out. -/
def Shape.default : (s : Shape) → s.Carrier
  | .integer w       => w.zero
  | .text            => ("" : String)
  | .flag            => false
  | .table           => OrderedMap.empty
  | .nullable _      => none
  | .list _          => []
  | .record _ fields => fields.default

def Fields.default : (fields : Fields) → fields.Carrier
  | .nil             => ()
  | .cons _ _ s rest => (s.default, rest.default)

end

def Fields.none : (fields : Fields) → fields.Partial
  | .nil              => ()
  | .cons _ _ _ rest  => (Option.none, rest.none)

def Fields.size : Fields → Nat
  | .nil             => 0
  | .cons _ _ _ rest => rest.size + 1

/-- What is said to be expected where the shape is not met. -/
def Shape.expectation : Shape → String
  | .integer w     => w.name
  | .text          => "a string"
  | .flag          => "a boolean"
  | .table         => "a map"
  | .nullable s    => s.expectation
  | .list _        => "a sequence"
  | .record name _ => "struct " ++ name

/-! ### Reading -/

def Width.read (w : Width) : Reading → Except ReadError w.Carrier
  | .number (.integer n) =>
    if w.least ≤ n ∧ n ≤ w.greatest then .ok (w.ofInt n) else .error (.invalidValue n w.name)
  | r => .error (mismatch w.name r)

mutual

/-- The first fault, in text order, that a reader meets which skips a reading. -/
def Reading.skip : Reading → Option Fault
  | .array items ending    => (skipItems items).or ending
  | .object members ending => (skipMembers members).or (ending.map (·.skipped))
  | .broken b              => some b.skipped
  | _                      => none
termination_by structural r => r

def skipItems : List Reading → Option Fault
  | []      => none
  | r :: rs => r.skip.or (skipItems rs)
termination_by structural rs => rs

def skipMembers : List (Option String × Reading) → Option Fault
  | []           => none
  | (_, r) :: rs => r.skip.or (skipMembers rs)
termination_by structural rs => rs

end

def readAll {α : Type} (f : Reading → Except ReadError α) :
    List Reading → Except ReadError (List α)
  | []      => .ok []
  | r :: rs => do
    let a ← f r
    return a :: (← readAll f rs)

/-- The members taken one after the other into what has been gathered. A member that is not wanted
is skipped. -/
def gather {α : Type} (take : α → String → Reading → Except ReadError (Option α)) :
    α → List (Option String × Reading) → Except ReadError α
  | a, []                => .ok a
  | _, (none, _) :: _    => .error (.fault .malformed)
  | a, (some k, r) :: rs => do
    match ← take a k r with
    | some b => gather take b rs
    | none   =>
      match r.skip with
      | some f => .error (.fault f)
      | none   => gather take a rs

def takeEntry (t : OrderedMap String String) (key : String) : Reading → Except ReadError (Option (OrderedMap String String))
  | .string s => .ok (some (t.insert key s))
  | r         => .error (mismatch Shape.text.expectation r)

/-- The record of the fields that have been met, the rest having their defaults. -/
def Fields.complete : (fields : Fields) → fields.Partial → Except ReadError fields.Carrier
  | .nil,               _           => .ok ()
  | .cons key p s rest, (met, more) => do
    let a ← match met, p with
      | some a,      _         => Except.ok a
      | Option.none, .required => .error (.missingField key)
      | Option.none, _         => .ok s.default
    return (a, ← rest.complete more)

mutual

/-- What a reading carries, if it is of the shape. -/
def Shape.read : (s : Shape) → Reading → Except ReadError s.Carrier
  | .integer w,          r => w.read r
  | .text,               r => match r with
    | .string s => .ok s
    | r         => .error (mismatch Shape.text.expectation r)
  | .flag,               r => match r with
    | .bool b => .ok b
    | r       => .error (mismatch Shape.flag.expectation r)
  | .table,              r => match r with
    | .object members ending => do
      closeWith (ending.map (·.needed)) (← gather takeEntry OrderedMap.empty members)
    | r => .error (mismatch Shape.table.expectation r)
  | .nullable s,         r => match r with
    | .null => .ok none
    | r     => (s.read r).map some
  | .list s,             r => match r with
    | .array items ending => do closeWith ending (← readAll s.read items)
    | r                   => .error (mismatch (Shape.list s).expectation r)
  | .record name fields, r => match r with
    | .object members ending => do
      let met ← gather fields.take fields.none members
      fields.complete (← closeWith (ending.map (·.needed)) met)
    | .array items ending => fields.readItems name fields.size 0 items ending
    | r                   => .error (mismatch ("struct " ++ name) r)

/-- The fields met, with one more member. A field may not be met twice, whatever it holds. -/
def Fields.take : (fields : Fields) → fields.Partial → String → Reading →
    Except ReadError (Option fields.Partial)
  | .nil,               _,           _, _ => .ok Option.none
  | .cons key _ s rest, (met, more), k, r =>
    if k = key then
      if met.isSome then .error (.duplicateField key)
      else do return some (some (← s.read r), more)
    else do return (← rest.take more k r).map (met, ·)

/-- The fields from the one numbered `n`, of `size` in all, as the items that remain of an array. -/
def Fields.readItems : (fields : Fields) → (name : String) → (size n : Nat) → List Reading →
    (ending : Option Fault) → Except ReadError fields.Carrier
  | .nil,             _,    _,    n, items, ending =>
    if items.isEmpty then closeWith ending () else .error (.surplus (n + items.length))
  | .cons _ p s rest, name, size, n, items, ending => match items with
    | r :: items => do
      let a ← s.read r
      return (a, ← rest.readItems name size (n + 1) items ending)
    | [] => do
      -- the array has ended, and what is wrong with its end comes first
      let _ ← closeWith ending ()
      if p = .required ∨ p = .objectOnly then .error (.invalidLength n name size)
      else return (s.default, ← rest.readItems name size (n + 1) [] ending)

end

def Shape.decode (s : Shape) (text : List Utf8.Glyph) : Except ReadError s.Carrier := do
  let d := Json.read text
  -- what is wrong with the value is met before what follows it
  let a ← (s.read d.root).mapError .inText
  if d.trailing then .error (.fault .malformed) else .ok a

/-! ### Writing -/

/-- A value that need not be written: nothing where there may be something. -/
def Shape.isVoid : (s : Shape) → s.Carrier → Bool
  | .nullable _, x => Option.isNone x
  | _,           _ => false

mutual

def Shape.write : (s : Shape) → s.Carrier → Value
  | .integer w,       x => .number (.integer (w.toInt x))
  | .text,            x => .string x
  | .flag,            x => .bool x
  | .table,           x => .object (x.entries.map fun e => (e.1, .string e.2))
  | .nullable s,      x => match x with
    | Option.none => .null
    | some a      => s.write a
  | .list s,          x => .array (List.map s.write x)
  | .record _ fields, x => .object (fields.write x)

/-- The members written for a record, in the order of its fields. -/
def Fields.write : (fields : Fields) → fields.Carrier → List (String × Value)
  | .nil,               _      => []
  | .cons key p s rest, (a, b) =>
    (if p = .optional ∧ s.isVoid a then [] else [(key, s.write a)]) ++ rest.write b

end

def Shape.encode (s : Shape) (x : s.Carrier) : String :=
  (s.write x).render

end StagedTransfer.Json
