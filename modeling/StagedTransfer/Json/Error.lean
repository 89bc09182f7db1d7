import StagedTransfer.Json.Reading
import StagedTransfer.Text.Quoted

/-!
# What is wrong with a JSON text

A text may be no JSON, or it may be JSON and not what is looked for. The first error in text order
is told.
-/

namespace StagedTransfer.Json

inductive Found
  | null
  | bool (b : Bool)
  | number (n : Number)
  | string (s : String)
  | array
  | object
  deriving DecidableEq, Repr

inductive ReadError
  | fault (f : Fault)
  | missingField (key : String)
  | duplicateField (key : String)
  | invalidType (found : Found) (expected : String)
  | invalidValue (n : Int) (expected : String)
  /-- An array of `n` items stands for a record of more fields. -/
  | invalidLength (n : Nat) (name : String) (size : Nat)
  /-- An array of `n` items stands for a record of fewer fields. -/
  | surplus (n : Nat)
  /-- A text that is embedded as a string goes wrong. -/
  | embedded (e : ReadError)
  deriving DecidableEq, Repr

def Found.text : Found → String
  | .null                => "null"
  | .bool b              => "boolean `" ++ (if b then "true" else "false") ++ "`"
  | .number (.integer n) => "integer `" ++ toString n ++ "`"
  | .number (.real x)    => "floating point `" ++ x.text ++ "`"
  | .string s            => "string " ++ Text.quoted s
  | .array               => "sequence"
  | .object              => "map"

def ReadError.message : ReadError → String
  | .fault .malformed          => "malformed JSON"
  | .fault .unfinished         => "unfinished JSON"
  | .missingField key          => "missing field `" ++ key ++ "`"
  | .duplicateField key        => "duplicate field `" ++ key ++ "`"
  | .invalidType found e       => "invalid type: " ++ found.text ++ ", expected " ++ e
  | .invalidValue n e          => "invalid value: integer `" ++ toString n ++ "`, expected " ++ e
  | .invalidLength n name size =>
    "invalid length " ++ toString n ++ ", expected struct " ++ name ++ " with " ++ toString size
      ++ (if size = 1 then " element" else " elements")
  | .surplus n                 =>
    "invalid length " ++ toString n ++ ", expected fewer elements in array"
  | .embedded e                => e.message

/-- How an error is told of a text. There an array has to end where its record has all fields, so
that whatever follows is out of place. -/
def ReadError.inText : ReadError → ReadError
  | .surplus _ => .fault .malformed
  | e          => e

/-- The error for a reading that is not of the kind expected. -/
def mismatch (expected : String) : Reading → ReadError
  | .null       => .invalidType .null expected
  | .bool b     => .invalidType (.bool b) expected
  | .number n   => .invalidType (.number n) expected
  | .string s   => .invalidType (.string s) expected
  | .refused    => .fault .malformed
  | .array _ _  => .invalidType .array expected
  | .object _ _ => .invalidType .object expected
  | .broken b   => .fault b.needed

/-- What has been read up to an end, unless there is a fault at that end. -/
def closeWith {α : Type} (ending : Option Fault) (a : α) : Except ReadError α :=
  match ending with
  | some f => .error (.fault f)
  | none   => .ok a

end StagedTransfer.Json
