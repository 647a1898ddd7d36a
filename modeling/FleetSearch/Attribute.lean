import FleetSearch.FieldName
import FleetSearch.Json.Record
import FleetSearch.Rule
import FleetSearch.Violation

/-! # Attributes

Requests speak of attributes. On devices an attribute lies in a scope, which the request has to
name; documents of deployments are flat and their attributes have none. -/
namespace FleetSearch

/-- How a request says in which scope an attribute lies. -/
class Scoping (σ : Type) where
  /-- Whether requests carry a field for the scope. -/
  carried : Bool
  ofText : String → σ
  text : σ → String

/-- The scope of a device attribute. -/
structure Scope where
  name : String
  deriving DecidableEq, Repr, Inhabited

/-- The place of a deployment attribute: no scope. -/
inductive Flat where
  | flat
  deriving DecidableEq, Repr, Inhabited

instance : Scoping Scope := ⟨true, Scope.mk, Scope.name⟩

instance : Scoping Flat := ⟨false, fun _ => .flat, fun _ => ""⟩

structure Attribute (σ : Type) where
  scope : σ
  name : String
  deriving DecidableEq, Repr, Inhabited

namespace Scoping

variable {σ : Type} [Scoping σ]

/-- The record fields that carry the scope. -/
def fields (σ : Type) [Scoping σ] : List String := if carried σ then ["scope"] else []

def read? (r : Record) : Option σ :=
  if carried σ then (r.string "scope").map ofText else some (ofText "")

def members (scope : σ) : List (String × Json) :=
  if carried σ then [("scope", .string (text scope))] else []

def check (violations : Violations) (scope : σ) : Violations :=
  if carried σ then violations.check "scope" [Rule.required (text scope)] else violations

end Scoping

namespace Attribute

variable {σ : Type} [Scoping σ]

/-- The record fields of an attribute. -/
def fields (σ : Type) [Scoping σ] : List String := Scoping.fields σ ++ ["attribute"]

def read? (r : Record) : Option (Attribute σ) := do
  return ⟨← Scoping.read? r, ← r.string "attribute"⟩

def members (a : Attribute σ) : List (String × Json) :=
  Scoping.members a.scope ++ [("attribute", .string a.name)]

def check (violations : Violations) (a : Attribute σ) : Violations :=
  Violations.check (Scoping.check violations a.scope) "attribute" [Rule.required a.name]

/-! A selected attribute is a record of its own. -/

def ofPayload? (payload : Payload) : Option (Attribute σ) := payload.record? (fields σ) >>= read?

def toJson (a : Attribute σ) : Json := .object a.members

def violations (a : Attribute σ) : Violations := check [] a

/-- The field of the attribute for one kind of value. -/
def field (a : Attribute σ) (kind : ValueKind) : String :=
  FieldName.of (Scoping.text a.scope) a.name kind

def variants (a : Attribute σ) : FieldName.Variants :=
  FieldName.variants (Scoping.text a.scope) a.name

end Attribute

end FleetSearch
