import FleetSearch.FilterError
import FleetSearch.Json.Payload
import FleetSearch.Json.Printer

/-! # Operands

What a filter compares with: a string, a number or a boolean, or an array of one of these kinds. Any
other value is kept as it came and blamed when the filter is built. -/
namespace FleetSearch

namespace Json

/-- The type of a value as errors name it. -/
def typeName : Json → String
  | .null => "<nil>"
  | .bool _ => "bool"
  | .number _ => "number"
  | .string _ => "string"
  | .array _ => "array"
  | .object _ => "object"

/-- A value as errors quote it: strings bare, containers compact. -/
def quoted : Json → String
  | .null => "<nil>"
  | .string s => s
  | other => other.compact

end Json

inductive Operand where
  | string (s : String)
  | number (n : Number)
  | boolean (b : Bool)
  | strings (items : List String)
  | numbers (items : List Number)
  | booleans (items : List Bool)
  | unusable (value : Json)
  deriving Repr

instance : Inhabited Operand := ⟨.unusable .null⟩

namespace Operand

/-- The first item decides on the kind; an empty array is one of strings. -/
def ofItems (items : List Json) : Operand :=
  let read : Option Operand :=
    match items with
    | [] => some (.strings [])
    | .string _ :: _ => (items.mapM Json.string?).map .strings
    | .number _ :: _ => (items.mapM Json.number?).map .numbers
    | .bool _ :: _ => (items.mapM Json.bool?).map .booleans
    | _ :: _ => none
  read.getD (.unusable (.array items))

def ofJson : Json → Operand
  | .string s => .string s
  | .number n => .number n
  | .bool b => .boolean b
  | .array items => ofItems items
  | other => .unusable other

/-- A double that is not finite is no value at all. -/
def ofDouble? : Option Decimal.Binary → Operand
  | some x => .number (.double x)
  | none => .unusable .null

def toJson : Operand → Json
  | string s => .string s
  | number n => .number n
  | boolean b => .bool b
  | strings items => Json.strings items
  | numbers items => .array (items.map .number)
  | booleans items => .array (items.map .bool)
  | unusable value => value

def isNull : Operand → Bool
  | unusable .null => true
  | _ => false

def asBool? : Operand → Option Bool
  | boolean b => some b
  | _ => none

/-- In an array, the item that is of no kind or of another kind than the first. -/
def offending : Json → Json
  | .array (first :: rest) =>
    ((first :: rest).find? fun item => !item.isScalar || item.typeName != first.typeName).getD first
  | value => value

def blame (value : Json) : FilterError := .unknownOperand value.quoted value.typeName

/-- The kind of the operand or of its items, and whether it is an array. -/
def kind : Operand → Except FilterError (ValueKind × Bool)
  | string _ => .ok (.string, false)
  | number _ => .ok (.number, false)
  | boolean _ => .ok (.boolean, false)
  | strings _ => .ok (.string, true)
  | numbers _ => .ok (.number, true)
  | booleans _ => .ok (.boolean, true)
  | unusable value => .error (blame (offending value))

/-- Any readable value is an operand. -/
def ofPayload? (payload : Payload) : Option Operand := payload.value?.map ofJson

end Operand

end FleetSearch
