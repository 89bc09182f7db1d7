import StagedTransfer.Json.Error

/-!
# Values of texts

A text stands for a value if nothing is wrong with it and its arrays and objects are not nested too
deep. An object that begins with a certain key is another way to write a value: its only member
holds the text of that value as a string.
-/

namespace StagedTransfer.Json

open Utf8 (Glyph)

/-- The key of a member that holds the text of a value. -/
def embeddingKey : String := "$serde_json::private::RawValue"

/-- What an embedded text is called where another value stands. -/
def embeddingName : String := "raw value"

/-- The embedded text that an object begins with, and the members after it. -/
def embedding? : List (Option String × Reading) → Option (Reading × List (Option String × Reading))
  | (some k, r) :: rest => if k = embeddingKey then some (r, rest) else none
  | _                   => none

/-- The value of an embedded text, after which no member may follow. -/
def embedded (parse : String → Except ReadError Value) (r : Reading)
    (rest : List (Option String × Reading)) (ending : Option Breach) : Except ReadError Value :=
  match r with
  | .string text => do
    let v ← parse text
    if rest.isEmpty then closeWith (ending.map (·.needed)) v else .error (.fault .malformed)
  | r            => .error (mismatch embeddingName r)

mutual

/-- The value that a reading stands for, if nothing is wrong with it and no more than `depth`
arrays and objects stand inside each other. Embedded texts are read by `parse`. -/
def Reading.toValue (parse : String → Except ReadError Value) :
    Reading → (depth : Nat) → Except ReadError Value
  | .null,                  _         => .ok .null
  | .bool b,                _         => .ok (.bool b)
  | .number n,              _         => .ok (.number n)
  | .string s,              _         => .ok (.string s)
  | .refused,               _         => .error (.fault .malformed)
  | .broken b,              _         => .error (.fault b.needed)
  | .array _ _,             0         => .error (.fault .malformed)
  | .object _ _,            0         => .error (.fault .malformed)
  | .array items ending,    depth + 1 => do
    closeWith ending (.array (← valuesOf parse items depth))
  | .object members ending, depth + 1 =>
    match embedding? members with
    | some (r, rest) => embedded parse r rest ending
    | none           => do
      closeWith (ending.map (·.needed)) (.object (← memberValuesOf parse members depth))
termination_by structural r => r

def valuesOf (parse : String → Except ReadError Value) :
    List Reading → (depth : Nat) → Except ReadError (List Value)
  | [],      _     => .ok []
  | r :: rs, depth => do return (← r.toValue parse depth) :: (← valuesOf parse rs depth)
termination_by structural rs => rs

def memberValuesOf (parse : String → Except ReadError Value) :
    List (Option String × Reading) → (depth : Nat) → Except ReadError (List (String × Value))
  | [],                _     => .ok []
  | (none, _) :: _,    _     => .error (.fault .malformed)
  | (some k, r) :: rs, depth => do
    return (k, ← r.toValue parse depth) :: (← memberValuesOf parse rs depth)
termination_by structural rs => rs

end

/-- The greatest nesting of a value that is kept as such. -/
def depthLimit : Nat := 127

/-- The value of a whole text, in which texts are embedded less than `fuel` deep. -/
def parseUpTo : (fuel : Nat) → List Glyph → Except ReadError Value
  | 0,     _ => .error (.fault .malformed)
  | n + 1, s => do
    let d := read s
    let parse (text : String) := (parseUpTo n (Utf8.glyphsOf text)).mapError .embedded
    let v ← d.root.toValue parse depthLimit
    if d.trailing then .error (.fault .malformed) else .ok v

/-- The value of a whole text. An embedded text is shorter than the text around it, which bounds how
deep texts are embedded in each other. -/
def parse (s : List Glyph) : Except ReadError Value :=
  parseUpTo (s.length + 1) s

/-- The last of the members with a key. -/
def Value.member? (key : String) : Value → Option Value
  | .object members => (members.reverse.find? (·.1 = key)).map (·.2)
  | _               => none

end StagedTransfer.Json
