import FleetSearch.Json.Basic
import FleetSearch.Table

/-! # Payloads

What a client sent: the tree of a JSON text with the members of every object as they were written,
repeated ones too. A part that is well formed and yet stands for no value is kept as unreadable,
since a part that nobody asks for is never read. -/
namespace FleetSearch

inductive Payload where
  | null
  | bool (b : Bool)
  | number (n : Number)
  | string (s : String)
  | array (items : List Payload)
  | object (members : List (String × Payload))
  | unreadable
  deriving Repr, Inhabited

namespace Payload

mutual

/-- The value of a payload: members in the order of their names, of repeated ones the last. -/
def value? : Payload → Option Json
  | .null => some .null
  | .bool b => some (.bool b)
  | .number n => some (.number n)
  | .string s => some (.string s)
  | .array items => (values? items).map .array
  | .object members => (memberValues? members).map (fun values => .object (Table.ofList values))
  | .unreadable => none

def values? : List Payload → Option (List Json)
  | [] => some []
  | item :: rest => do return (← value? item) :: (← values? rest)

def memberValues? : List (String × Payload) → Option (List (String × Json))
  | [] => some []
  | (name, item) :: rest => do return (name, ← value? item) :: (← memberValues? rest)

end

mutual

/-- The payload that a written document is read as. -/
def ofJson : Json → Payload
  | .null => .null
  | .bool b => .bool b
  | .number n => .number n
  | .string s => .string s
  | .array items => .array (ofItems items)
  | .object members => .object (ofMembers members)

def ofItems : List Json → List Payload
  | [] => []
  | item :: rest => ofJson item :: ofItems rest

def ofMembers : List (String × Json) → List (String × Payload)
  | [] => []
  | (name, item) :: rest => (name, ofJson item) :: ofMembers rest

end

def string? : Payload → Option String
  | .string s => some s
  | _ => none

def bool? : Payload → Option Bool
  | .bool b => some b
  | _ => none

/-- A whole number that fits 64 bits with a sign. -/
def int64? : Payload → Option Int
  | .number (.int n) =>
    if Number.leastInt64 ≤ n ∧ n ≤ Number.greatestInt64 then some n else none
  | _ => none

def list? {α : Type} (read : Payload → Option α) : Payload → Option (List α)
  | .array items => items.mapM read
  | _ => none

/-- A null stands for nothing given. -/
def optional? {α : Type} (read : Payload → Option α) : Payload → Option (Option α)
  | .null => some none
  | other => (read other).map some

end Payload

end FleetSearch
