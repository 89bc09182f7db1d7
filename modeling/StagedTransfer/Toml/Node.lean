import StagedTransfer.Number.Binary64

/-!
# TOML documents

A document is a tree of tables. It grows by one header or one pair at a time, and each may be
refused: a table is opened by a header once, a table written between braces is closed, and a key
stands for one thing only.
-/

namespace StagedTransfer.Toml

/-- How a table came to be. -/
inductive TableForm
  /-- A header has opened it, or it is the root. -/
  | opened
  /-- The header of a table inside it has been met, but not its own. -/
  | implied
  /-- A dotted key goes through it. -/
  | dotted
  /-- It was written between braces. -/
  | inline
  deriving DecidableEq, Repr

inductive Node
  | string (s : String)
  | integer (n : Int)
  | float (x : Binary64)
  | bool (b : Bool)
  /-- A date, a time or both. -/
  | moment
  | array (items : List Node)
  | table (form : TableForm) (entries : List (String × Node))
  /-- The tables that one header has opened one after the other. -/
  | tables (elements : List (List (String × Node)))

abbrev Entries := List (String × Node)

namespace Entries

def find? (es : Entries) (key : String) : Option Node :=
  (List.find? (·.1 = key) es).map (·.2)

def set (es : Entries) (key : String) (n : Node) : Entries :=
  if es.any (·.1 = key) then es.map fun e => if e.1 = key then (key, n) else e
  else es ++ [(key, n)]

/-- The entries after a change to the table that a path leads to; tables that are missing on the way
come to be. The change is told how that table came to be. -/
def changeAt (dotted : Bool) (change : TableForm → Entries → Option Entries) :
    (path : List String) → TableForm → Entries → Option Entries
  | [],          form, es => change form es
  | key :: path, _,    es =>
    match find? es key with
    | none => do
      let form := if dotted then TableForm.dotted else .implied
      return es.set key (.table form (← changeAt dotted change path form []))
    | some (.table form sub) =>
      if form = .inline ∨ (dotted ∧ form = .opened) then none
      else do return es.set key (.table form (← changeAt dotted change path form sub))
    | some (.tables elements) => do
      let last ← elements.getLast?
      return es.set key (.tables (elements.dropLast ++ [← changeAt dotted change path .opened last]))
    | some _ => none

/-- The entries of a table with one more pair. A dotted key may only go through tables that dotted
keys have made. -/
def insertPair (path : List String) (key : String) (n : Node) (form : TableForm) (es : Entries) :
    Option Entries :=
  changeAt true (fun reached sub =>
    if (reached = .dotted) = path.isEmpty then none
    else if (find? sub key).isSome then none
    else some (sub.set key n)) path form es

/-- The root after the header of a table. -/
def openTable (path : List String) (key : String) (root : Entries) : Option Entries :=
  changeAt false (fun _ es =>
    match find? es key with
    | none                      => some (es.set key (.table .opened []))
    | some (.table .implied sub) => some (es.set key (.table .opened sub))
    | some _                    => none) path .opened root

/-- The root after the header of a further table of several. -/
def openElement (path : List String) (key : String) (root : Entries) : Option Entries :=
  changeAt false (fun _ es =>
    match find? es key with
    | none                    => some (es.set key (.tables [[]]))
    | some (.tables elements) => some (es.set key (.tables (elements ++ [[]])))
    | some _                  => none) path .opened root

/-- The root after a pair below a header. -/
def insertBelow (header path : List String) (key : String) (n : Node) (root : Entries) :
    Option Entries :=
  changeAt false (insertPair path key n) header .opened root

end Entries

/-- The table written between braces from its pairs. -/
def inlineTable (pairs : List (List String × String × Node)) : Option Node :=
  (pairs.foldlM (fun es (path, key, n) => Entries.insertPair path key n .opened es) []).map
    (Node.table .inline)

end StagedTransfer.Toml
