import StagedTransfer.Json.Shape

/-!
# Messages

A type of messages has a shape, and its values are in one-to-one correspondence with what the shape
carries. So a message is written and read as its shape says.
-/

namespace StagedTransfer.Json

class Message (α : Type) where
  shape : Shape
  carry : α → shape.Carrier
  ofCarried : shape.Carrier → α
  ofCarried_carry : ∀ a, ofCarried (carry a) = a
  carry_ofCarried : ∀ c, carry (ofCarried c) = c

/-! ### Plain messages -/

instance : Message String where
  shape := .text
  carry a := a
  ofCarried c := c
  ofCarried_carry _ := rfl
  carry_ofCarried _ := rfl

instance : Message Bool where
  shape := .flag
  carry a := a
  ofCarried c := c
  ofCarried_carry _ := rfl
  carry_ofCarried _ := rfl

instance : Message (OrderedMap String String) where
  shape := .table
  carry a := a
  ofCarried c := c
  ofCarried_carry _ := rfl
  carry_ofCarried _ := rfl

instance : Message Int32 where
  shape := .integer .i32
  carry a := a
  ofCarried c := c
  ofCarried_carry _ := rfl
  carry_ofCarried _ := rfl

instance : Message UInt32 where
  shape := .integer .u32
  carry a := a
  ofCarried c := c
  ofCarried_carry _ := rfl
  carry_ofCarried _ := rfl

instance : Message Int64 where
  shape := .integer .i64
  carry a := a
  ofCarried c := c
  ofCarried_carry _ := rfl
  carry_ofCarried _ := rfl

instance : Message UInt64 where
  shape := .integer .u64
  carry a := a
  ofCarried c := c
  ofCarried_carry _ := rfl
  carry_ofCarried _ := rfl

instance {α : Type} [Message α] : Message (Option α) where
  shape := .nullable (Message.shape α)
  carry a := Option.map Message.carry a
  ofCarried c := Option.map Message.ofCarried c
  ofCarried_carry a := by
    cases a with
    | none => rfl
    | some a => exact congrArg some (Message.ofCarried_carry a)
  carry_ofCarried c := by
    cases c with
    | none => rfl
    | some c => exact congrArg some (Message.carry_ofCarried c)

instance {α : Type} [Message α] : Message (List α) where
  shape := .list (Message.shape α)
  carry a := List.map Message.carry a
  ofCarried c := List.map Message.ofCarried c
  ofCarried_carry a := by
    induction a with
    | nil => rfl
    | cons a as ih => exact congr (congrArg List.cons (Message.ofCarried_carry a)) ih
  carry_ofCarried c := by
    induction c with
    | nil => rfl
    | cons c cs ih => exact congr (congrArg List.cons (Message.carry_ofCarried c)) ih

/-! ### Writing and reading -/

namespace Message

variable {α : Type} [Message α]

def toValue (a : α) : Value :=
  (shape α).write (carry a)

def encode (a : α) : String :=
  (toValue a).render

def decode (text : List Utf8.Glyph) : Except ReadError α :=
  ((shape α).decode text).map ofCarried

def decodeBytes (bytes : Bytes) : Except ReadError α :=
  decode (Utf8.glyphs bytes)

end Message

/-! ### Messages held by a value -/

mutual

/-- A value as what a text would hold. Of several members with one key the last counts, and members
are met in the order of their keys. -/
def Value.toReading : Value → Reading
  | .null           => .null
  | .bool b         => .bool b
  | .number n       => .number n
  | .string s       => .string s
  | .array items    => .array (readingsOf items) none
  | .object members =>
    .object ((OrderedMap.ofList (memberReadingsOf members)).entries.map fun e => (some e.1, e.2))
      none
termination_by structural v => v

def readingsOf : List Value → List Reading
  | []      => []
  | v :: vs => v.toReading :: readingsOf vs
termination_by structural vs => vs

def memberReadingsOf : List (String × Value) → List (String × Reading)
  | []           => []
  | (k, v) :: vs => (k, v.toReading) :: memberReadingsOf vs
termination_by structural vs => vs

end

def Message.ofValue {α : Type} [Message α] (v : Value) : Except ReadError α :=
  ((shape α).read v.toReading).map ofCarried

end StagedTransfer.Json
