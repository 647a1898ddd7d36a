/-! # Field names

An attribute may hold a string on one device and a number on another, so the index keeps it under
one field for each kind of value: `<scope>_<name>_<str|num|bool>`. A dot in a name would be read as
a path by the index and is written as two backslashes. -/
namespace FleetSearch

/-- The kinds of values that an attribute can hold. -/
inductive ValueKind where
  | string
  | number
  | boolean
  deriving DecidableEq, Repr, Inhabited

namespace ValueKind

def all : List ValueKind := [string, number, boolean]

def suffix : ValueKind → String
  | string => "str"
  | number => "num"
  | boolean => "bool"

def name : ValueKind → String
  | string => "string"
  | number => "number"
  | boolean => "boolean"

def ofSuffix? (text : String) : Option ValueKind := all.find? (fun kind => kind.suffix == text)

def ofName? (text : String) : Option ValueKind := all.find? (fun kind => kind.name == text)

theorem ofSuffix?_suffix (kind : ValueKind) : ofSuffix? kind.suffix = some kind := by
  cases kind <;> decide

theorem ofName?_name (kind : ValueKind) : ofName? kind.name = some kind := by
  cases kind <;> decide

end ValueKind

/-- The kinds that an operator takes. -/
inductive KindPolicy where
  | any
  | only (kind : ValueKind)
  deriving DecidableEq, Repr

def KindPolicy.accepts : KindPolicy → ValueKind → Bool
  | any, _ => true
  | only required, kind => required == kind

namespace FieldName

def systemScope : String := "system"

def scopes : List String := ["identity", "inventory", "monitor", systemScope, "tags"]

/-! Fields that every document has, under one fixed name. -/

def id : String := "id"

def tenant : String := "tenant_id"

def location : String := "location"

def checkIn : String := "check_in_time"

def device : String := "device_id"

def deployment : String := "deployment_id"

def deploymentGroups : String := "deployment_groups"

def group : String := "group"

/-- What a dot is written as. -/
def dotMark : String := "\\\\"

def escapeDots (name : String) : String :=
  String.ofList (name.toList.flatMap fun c => if c = '.' then dotMark.toList else [c])

/-- Reads pairs of backslashes from the left as dots. -/
def restoreDotsIn : List Char → List Char
  | '\\' :: '\\' :: rest => '.' :: restoreDotsIn rest
  | c :: rest => c :: restoreDotsIn rest
  | [] => []

def restoreDots (name : String) : String := String.ofList (restoreDotsIn name.toList)

/-- The field of an attribute for one kind of value. Without a scope there is one field for all. -/
def of (scope name : String) (kind : ValueKind) : String :=
  if scope = "" then escapeDots name
  else scope ++ "_" ++ escapeDots name ++ "_" ++ kind.suffix

/-- The attribute `id` is the document's own field in every scope. -/
def special? (name : String) : Option String := if name = "id" then some id else none

/-- The parts around the last occurrence of a character. -/
def splitLast? (mark : Char) : List Char → Option (List Char × List Char)
  | [] => none
  | c :: rest =>
    match splitLast? mark rest with
    | some (before, after) => some (c :: before, after)
    | none => if c = mark then some ([], rest) else none

/-- The scope and the name of the attribute that a field is for. -/
def parse? (field : String) : Option (String × String) := do
  let cs := field.toList
  let scope ← scopes.find? (fun scope => (scope ++ "_").toList.isPrefixOf cs)
  let (name, suffix) ← splitLast? '_' (cs.drop (scope.length + 1))
  if name.isEmpty then none
  else
    let _ ← ValueKind.ofSuffix? (String.ofList suffix)
    return (scope, String.ofList (restoreDotsIn name))

/-- The fields of an attribute, one for each kind. -/
structure Variants where
  string : String
  number : String
  boolean : String
  deriving DecidableEq, Repr

def variants (scope name : String) : Variants :=
  ⟨of scope name .string, of scope name .number, of scope name .boolean⟩

def Variants.toList (v : Variants) : List String := [v.string, v.number, v.boolean]

end FieldName

end FleetSearch
