import Mathlib.Tactic.Lemma
import StagedTransfer.Proofs.OrderedMap
import StagedTransfer.Json.Shape

/-!
# What stands for a message

One message may be written in many ways: the members of an object in any order and among others
that nobody knows, a field that has its default or is left out, a record as the array of its
fields. Each of these readings stands for the message, and each is read as it. What is really
written for a message is the same from time to time but for the order of the entries of its tables.
-/

namespace StagedTransfer.Json

/-! ### Readings of a shape -/

/-- What stands under a key, in order. -/
def valuesAt (key : String) (members : List (Option String × Reading)) : List Reading :=
  (members.filter (·.1 = some key)).map (·.2)

mutual

/-- The reading stands for what is carried. -/
def Shape.StandsFor : (s : Shape) → Reading → s.Carrier → Prop
  | .integer w,       r, x => r = .number (.integer (w.toInt x))
  | .text,            r, x => r = .string x
  | .flag,            r, x => r = .bool x
  | .table,           r, x => ∃ entries : List (String × String), entries.Perm x.entries ∧
    r = .object (entries.map fun e => (some e.1, .string e.2)) none
  | .nullable s,      r, x => match x with
    | Option.none => r = .null
    | some a      => s.StandsFor r a
  | .list s,          r, x => ∃ items, r = .array items none ∧ List.Forall₂ s.StandsFor items x
  | .record _ fields, r, x =>
    (∃ members, r = .object members none ∧ (∀ m ∈ members, m.1.isSome) ∧
      fields.StandUnder members x) ∨
    ∃ items, r = .array items none ∧ fields.StandAs items x

/-- Each field stands under its key, once; one that has its default may be left out. Nothing is
said of members with other keys. -/
def Fields.StandUnder : (fields : Fields) → List (Option String × Reading) → fields.Carrier → Prop
  | .nil,               _,       _      => True
  | .cons key p s rest, members, (a, b) =>
    (match valuesAt key members with
      | []  => p ≠ .required ∧ a = s.default
      | [r] => s.StandsFor r a
      | _   => False) ∧
    rest.StandUnder members b

/-- The items stand for the fields, in order. Fields at the end that have their defaults may be left
out. -/
def Fields.StandAs : (fields : Fields) → List Reading → fields.Carrier → Prop
  | .nil,             items, _      => items = []
  | .cons _ p s rest, items, (a, b) => match items with
    | r :: items => s.StandsFor r a ∧ rest.StandAs items b
    | []         => (p = .defaulted ∨ p = .optional) ∧ a = s.default ∧ rest.StandAs [] b

end

mutual

/-- The value may be written for what is carried: the entries of a table stand in any order. -/
def Shape.Writes : (s : Shape) → Value → s.Carrier → Prop
  | .integer w,       v, x => v = .number (.integer (w.toInt x))
  | .text,            v, x => v = .string x
  | .flag,            v, x => v = .bool x
  | .table,           v, x => ∃ entries : List (String × String), entries.Perm x.entries ∧
    v = .object (entries.map fun e => (e.1, .string e.2))
  | .nullable s,      v, x => match x with
    | Option.none => v = .null
    | some a      => s.Writes v a
  | .list s,          v, x => ∃ items, v = .array items ∧ List.Forall₂ s.Writes items x
  | .record _ fields, v, x => ∃ members, v = .object members ∧ fields.Writes members x

/-- The members may be written for the fields, in the order of these. -/
def Fields.Writes : (fields : Fields) → List (String × Value) → fields.Carrier → Prop
  | .nil,               members, _      => members = []
  | .cons key p s rest, members, (a, b) =>
    if p = .optional ∧ s.isVoid a then rest.Writes members b
    else ∃ v others, members = (key, v) :: others ∧ s.Writes v a ∧ rest.Writes others b

end

mutual

/-- A record that is read here has two members of one known key. -/
def Shape.Repeats : Shape → Reading → Prop
  | .nullable s,      r => s.Repeats r
  | .list s,          r => match r with
    | .array items _ => ∃ item ∈ items, s.Repeats item
    | _              => False
  | .record _ fields, r => match r with
    | .object members _ => fields.RepeatUnder members
    | .array items _    => fields.RepeatAmong items
    | _                 => False
  | _,                _ => False

/-- Some key stands twice, or under it there is a record with such a key. -/
def Fields.RepeatUnder : Fields → List (Option String × Reading) → Prop
  | .nil,             _       => False
  | .cons key _ s rest, members =>
    1 < (valuesAt key members).length ∨ (∃ r ∈ valuesAt key members, s.Repeats r) ∨
      rest.RepeatUnder members

/-- Some field is a record with such a key. -/
def Fields.RepeatAmong : Fields → List Reading → Prop
  | .cons _ _ s rest, r :: items => s.Repeats r ∨ rest.RepeatAmong items
  | _,                _          => False

end

def Fields.keys : Fields → List String
  | .nil               => []
  | .cons key _ _ rest => key :: rest.keys

def Shape.isNullable : Shape → Bool
  | .nullable _ => true
  | _           => false

mutual

/-- No two fields of a record share a key, and what may be null is not twice so. -/
def Shape.isSound : Shape → Bool
  | .nullable s      => !s.isNullable && s.isSound
  | .list s          => s.isSound
  | .record _ fields => fields.isSound
  | _                => true

def Fields.isSound : Fields → Bool
  | .nil               => true
  | .cons key _ s rest => !rest.keys.contains key && s.isSound && rest.isSound

end

end StagedTransfer.Json
