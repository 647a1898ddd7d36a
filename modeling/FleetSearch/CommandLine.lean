import FleetSearch.Arguments
import FleetSearch.Compiler
import FleetSearch.Json.Reader

/-! # The command line

The program reads a request, from a file or from its standard input, and prints the search that it
is compiled to. -/
namespace FleetSearch

/-- A whole number that fits 64 bits, with or without a sign. -/
def readInt64? (text : String) : Option Int :=
  let (negative, digits) := match text.toList with
    | '-' :: rest => (true, rest)
    | '+' :: rest => (false, rest)
    | rest => (false, rest)
  if digits.isEmpty || !digits.all Char.isDigit then none
  else
    let magnitude : Int := digits.foldl (fun n c => n * 10 + (c.toNat - '0'.toNat)) 0
    let n := if negative then -magnitude else magnitude
    if Number.leastInt64 ≤ n ∧ n ≤ Number.greatestInt64 then some n else none

namespace CommandLine

def version : String := "0.1.0"

def program : String := "query-compiler"

def anyText (_ : String) : Option ArgumentError := none

def wholeNumber (text : String) : Option ArgumentError :=
  if (readInt64? text).isSome then none else some .malformedValue

/-! ## Settings -/

def setting (name environmentName : String) (check : String → Option ArgumentError) : OptionSpec :=
  ⟨name, true, false, some environmentName, check⟩

def devicesIndex : OptionSpec :=
  setting "devices-index-name" "REPORTING_DEVICES_INDEX_NAME" anyText

def deploymentsIndex : OptionSpec :=
  setting "deployments-index-name" "REPORTING_DEPLOYMENTS_INDEX_NAME" anyText

def defaultPerPage : OptionSpec :=
  setting "default-per-page" "REPORTING_DEFAULT_PER_PAGE" wholeNumber

def mostPerPage : OptionSpec := setting "max-per-page" "REPORTING_MAX_PER_PAGE" wholeNumber

def logLevel : OptionSpec := setting "log-level" "REPORTING_LOG_LEVEL" anyText

def settingOptions : List OptionSpec :=
  [devicesIndex, deploymentsIndex, defaultPerPage, mostPerPage, logLevel]

/-- A command line that gives settings and nothing else. -/
def settingsGrammar : Grammar := ⟨settingOptions, 0, anyText, false⟩

def settings (given : Arguments) (environment : String → Option String) :
    Except ArgumentError Settings := do
  let standard := Settings.standard
  let number (option : OptionSpec) (standing : Int) : Except ArgumentError Int := do
    match readInt64? (← given.value environment option (toString standing)) with
    | some n => return n
    | none => throw .malformedValue
  return {
    devicesIndex := ← given.value environment devicesIndex standard.devicesIndex
    deploymentsIndex := ← given.value environment deploymentsIndex standard.deploymentsIndex
    defaultPerPage := ← number defaultPerPage standard.defaultPerPage
    mostPerPage := ← number mostPerPage standard.mostPerPage
    logLevel := ← given.value environment logLevel standard.logLevel }

/-- The settings of a command line that gives nothing else. -/
def readSettings (arguments : List String) (environment : String → Option String) :
    Except ArgumentError Settings := do
  settings (← settingsGrammar.read arguments) environment

/-! ## The program -/

def among (choices : List String) (text : String) : Option ArgumentError :=
  if choices.contains text then none else some .unlistedValue

def argumentOnly (name : String) (check : String → Option ArgumentError) : OptionSpec :=
  ⟨name, true, false, none, check⟩

def domain : OptionSpec := argumentOnly "domain" (among ["devices", "deployments"])

def kind : OptionSpec := argumentOnly "kind" (among ["search", "aggregate"])

def tenant : OptionSpec := argumentOnly "tenant-id" anyText

def group : OptionSpec := { argumentOnly "group" anyText with repeatable := true }

def compact : OptionSpec := { argumentOnly "compact" anyText with takesValue := false }

def notEmpty (text : String) : Option ArgumentError :=
  if text.isEmpty then some .missingValue else none

def grammar : Grammar :=
  ⟨[domain, kind, tenant, group, compact] ++ settingOptions, 1, notEmpty, true⟩

/-- Where the request is read from. -/
inductive Source where
  | standardInput
  | file (path : String)
  deriving DecidableEq, Repr

/-- What a command line asks for. -/
structure Invocation where
  source : Source
  domain : Domain
  kind : RequestKind
  context : Context
  isCompact : Bool
  settings : Settings
  deriving Repr

def domainOf (text : String) : Domain := if text = "deployments" then .deployments else .devices

def kindOf (text : String) : RequestKind := if text = "aggregate" then .summary else .search

def sourceOf : List String → Source
  | [] => .standardInput
  | path :: _ => if path = "-" then .standardInput else .file path

def readInvocation (arguments : List String) (environment : String → Option String) :
    Except ArgumentError Invocation := do
  let given ← grammar.read arguments
  return {
    source := sourceOf given.positionals
    domain := domainOf (← given.value environment domain "devices")
    kind := kindOf (← given.value environment kind "search")
    context := ⟨← given.value environment tenant "", given.all group.name⟩
    isCompact := given.has compact.name
    settings := ← settings given environment }

/-- Why a run fails. -/
inductive Failure where
  | settings (problems : List String)
  | unreadable (source : Source)
  | malformed
  | refused (refusal : Refusal)
  deriving Repr

def Failure.message : Failure → String
  | settings problems => "invalid configuration: " ++ String.intercalate ", " problems
  | unreadable .standardInput => "failed to read stdin"
  | unreadable (.file path) => "failed to read " ++ path
  | malformed => "malformed request"
  | refused refusal => refusal.message

/-- How the program ends. -/
inductive Outcome where
  | printed (text : String)
  | failed (failure : Failure)
  | misused (error : ArgumentError)
  deriving Repr

def Invocation.check (invocation : Invocation) : Except Failure Unit :=
  match invocation.settings.problems with
  | [] => .ok ()
  | problem :: rest => .error (.settings (problem :: rest))

/-- Compiles the text that the request was read as; none if it could not be read. -/
def Invocation.finish (invocation : Invocation) (input : Option String) :
    Except Failure String := do
  let some text := input | throw (.unreadable invocation.source)
  let some request :=
    (Payload.read? text).bind (Request.ofPayload? invocation.domain invocation.kind)
    | throw .malformed
  let search ← (invocation.settings.compile invocation.context request).mapError .refused
  let written := if invocation.isCompact then search.toJson.compact else search.toJson.pretty
  return written ++ "\n"

def usage : String :=
  "Usage: " ++ program ++ " [OPTIONS] [INPUT]\n\nOptions:\n" ++
    String.join (grammar.options.map fun option =>
      "  --" ++ option.name ++ (if option.takesValue then " <VALUE>" else "") ++ "\n")

/-- What the arguments come to before anything is read: an end, or an invocation to be finished. -/
def start (arguments : List String) (environment : String → Option String) :
    Except Outcome Invocation :=
  match readInvocation arguments environment with
  | .error .versionWanted => .error (.printed (program ++ " " ++ version ++ "\n"))
  | .error .helpWanted => .error (.printed usage)
  | .error problem => .error (.misused problem)
  | .ok invocation =>
    match invocation.check with
    | .ok () => .ok invocation
    | .error failure => .error (.failed failure)

def Invocation.outcome (invocation : Invocation) (input : Option String) : Outcome :=
  match invocation.finish input with
  | .ok text => .printed text
  | .error failure => .failed failure

/-- A whole run, where `read` answers with the text of a source. -/
def run (arguments : List String) (environment : String → Option String)
    (read : Source → Option String) : Outcome :=
  match start arguments environment with
  | .error outcome => outcome
  | .ok invocation => invocation.outcome (read invocation.source)

end CommandLine

end FleetSearch
