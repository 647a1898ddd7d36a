/-! # Arguments

Reading a command line: long options with a value, as their own argument or after an equals sign,
switches, and positional arguments. -/
namespace FleetSearch

/-- Why a command line is not run as it stands. -/
inductive ArgumentError where
  | unknownArgument
  | missingValue
  | malformedValue
  | unlistedValue
  | repeatedOption
  | surplusValue
  | helpWanted
  | versionWanted
  deriving DecidableEq, Repr

/-- An option. Its value may also come from a variable of the environment. -/
structure OptionSpec where
  name : String
  takesValue : Bool
  repeatable : Bool
  environmentName : Option String
  check : String → Option ArgumentError

structure Grammar where
  options : List OptionSpec
  /-- How many positional arguments are taken. -/
  positionals : Nat
  checkPositional : String → Option ArgumentError
  /-- Whether there is a version to ask for. -/
  versioned : Bool

/-- What a command line gives. Options are in the order in which they were given. -/
structure Arguments where
  options : List (String × String)
  positionals : List String
  deriving DecidableEq, Repr

/-- The state between two arguments: the last option may still wait for its value, or its value for
being looked at. -/
structure Scan where
  given : Arguments
  pending : Option (OptionSpec × Option String)
  onlyPositionals : Bool

namespace Scan

def start : Scan := ⟨⟨[], []⟩, none, false⟩

/-- Takes up an option with its value. -/
def accept (scan : Scan) (option : OptionSpec) (value : String) : Except ArgumentError Scan :=
  if !option.repeatable && (scan.given.options.lookup option.name).isSome then
    .error .repeatedOption
  else
    match option.check value with
    | some problem => .error problem
    | none =>
      .ok { scan with
        given := { scan.given with options := scan.given.options ++ [(option.name, value)] }
        pending := none }

/-- Takes up the option that is pending. -/
def settle (scan : Scan) : Except ArgumentError Scan :=
  match scan.pending with
  | none => .ok scan
  | some (_, none) => .error .missingValue
  | some (option, some value) => scan.accept option value

/-- An argument too many hides what is wrong with a pending option. -/
def positional (grammar : Grammar) (scan : Scan) (argument : String) :
    Except ArgumentError Scan := do
  if scan.given.positionals.length < grammar.positionals then
    let scan ← scan.settle
    match grammar.checkPositional argument with
    | some problem => throw problem
    | none =>
      return { scan with
        given := { scan.given with positionals := scan.given.positionals ++ [argument] } }
  else throw .unknownArgument

/-- An option, given by its name and what follows an equals sign. An unknown name hides what is
wrong with a pending option. -/
def long (grammar : Grammar) (scan : Scan) (name : String) (attached : Option String) :
    Except ArgumentError Scan :=
  let demand (problem : ArgumentError) : Except ArgumentError Scan :=
    match attached with
    | some _ => .error .surplusValue
    | none => do
      let _ ← scan.settle
      throw problem
  match grammar.options.find? (fun option => option.name == name) with
  | some option =>
    match option.takesValue, attached with
    | true, some value => do (← scan.settle).accept option value
    | true, none => do return { (← scan.settle) with pending := some (option, none) }
    | false, some _ => .error .surplusValue
    | false, none => do (← scan.settle).accept option "true"
  | none =>
    if name = "help" then demand .helpWanted
    else if name = "version" && grammar.versioned then demand .versionWanted
    else .error .unknownArgument

/-- The only short options ask for help and for the version. -/
def short (grammar : Grammar) (scan : Scan) (letter : Char) : Except ArgumentError Scan :=
  let demand (problem : ArgumentError) : Except ArgumentError Scan := do
    let _ ← scan.settle
    throw problem
  if letter = 'h' then demand .helpWanted
  else if letter = 'V' && grammar.versioned then demand .versionWanted
  else .error .unknownArgument

/-- A value of the option that waits for one, or else a positional argument. -/
def plain (grammar : Grammar) (scan : Scan) (argument : String) : Except ArgumentError Scan :=
  match scan.pending with
  | some (option, none) => .ok { scan with pending := some (option, some argument) }
  | _ => scan.positional grammar argument

/-- The name and the value around the first equals sign. -/
def splitEquals (text : List Char) : String × Option String :=
  match text.dropWhile (· != '=') with
  | [] => (String.ofList text, none)
  | _ :: value => (String.ofList (text.takeWhile (· != '=')), some (String.ofList value))

def step (grammar : Grammar) (scan : Scan) (argument : String) : Except ArgumentError Scan :=
  if scan.onlyPositionals then scan.positional grammar argument
  else
    match argument.toList with
    | ['-', '-'] => .ok { scan with onlyPositionals := true }
    | '-' :: '-' :: text => scan.long grammar (splitEquals text).1 (splitEquals text).2
    | '-' :: letter :: _ => scan.short grammar letter
    | _ => scan.plain grammar argument

end Scan

namespace Grammar

def read (grammar : Grammar) (arguments : List String) : Except ArgumentError Arguments := do
  let scan ← arguments.foldlM (Scan.step grammar) Scan.start
  return (← scan.settle).given

end Grammar

namespace Arguments

def all (given : Arguments) (option : String) : List String :=
  (given.options.filter (fun entry => entry.1 == option)).map Prod.snd

def has (given : Arguments) (option : String) : Bool := (given.options.lookup option).isSome

/-- The value of an option that is not repeatable: given, from the environment, or standing. A
variable is only looked at where the option is not given. -/
def value (given : Arguments) (environment : String → Option String)
    (option : OptionSpec) (standing : String) : Except ArgumentError String :=
  match given.options.lookup option.name with
  | some value => .ok value
  | none =>
    match option.environmentName.bind environment with
    | none => .ok standing
    | some value =>
      match option.check value with
      | some problem => .error problem
      | none => .ok value

end Arguments

end FleetSearch
