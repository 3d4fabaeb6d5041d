import Memberwise.CommandLine.Arguments
import Memberwise.Text.Json
import Memberwise.Workspace

/-!
# Memberwise.CommandLine.Run — carrying out a call

The three tasks: generate artifacts from a file, show what a file declares, and check a file with
settings. A failure names the task that failed and the fault below it.
-/

namespace Memberwise.CommandLine

/-- Why a task failed. -/
structure Failure where
  message : String
  cause : Fault

/-- A task in progress. -/
abbrev Job := ExceptT Failure (StateT Workspace Traced)

variable {α : Type}

/-- Runs a command; a fault of it fails the task with a message. -/
def within (message : String) (x : Command α) : Job α :=
  ExceptT.mk ((Except.mapError (Failure.mk message)) <$> x.run)

/-- Prints a line. -/
def printLine (line : String) : Job Unit := within "" (Command.print line)

/-- The settings from a file, if one is given. -/
def readSettings : Option String → Job Config
  | some path => within ("Failed to load configuration " ++ path) (readConfig path)
  | none => pure Config.default

/-- The settings with the module replaced, if one is given. -/
def replaceModule (c : Config) : Option String → Job Config
  | none => pure c
  | some module => do
    let c := { c with modulePath := module }
    within "Invalid --module argument"
      (Command.ofOutcome (Outcome.ofExcept (c.validate.mapError Fault.config)))
    return c

/-- The settings from a file, if one is given, with the module replaced if one is given. -/
def loadConfig (path module : Option String) : Job Config := do
  replaceModule (← readSettings path) module

/-! ## Tasks -/

/-- Generates artifacts from a file into a directory. -/
def generate (input output : String) (module config : Option String) : Job Unit := do
  let c ← loadConfig config module
  let artifacts ← within ("Failed to generate from " ++ input) (generateFile c input)
  let written ← within ("Failed to write artifacts to " ++ output) (writeArtifacts artifacts output)
  if written.isEmpty then printLine ("No annotated structs with members in " ++ input)
  else
    for path in written do printLine ("✓ " ++ path)
    printLine ""
    printLine ("Generated " ++ toString written.length ++ " file(s)")

/-- A member as JSON. -/
def memberJson (m : Member) : Text.Json :=
  .object
    [("name", .string m.name),
     ("field_ident", .string m.fieldIdent),
     ("fully_qualified_type", .string m.type),
     ("resolved", .bool m.resolved),
     ("nullability", .string m.nullability.name)]

/-- A descriptor as JSON. -/
def descriptorJson (d : Descriptor) : Text.Json :=
  .object
    [("simple_name", .string d.simpleName),
     ("fully_qualified_name", .string d.fullName),
     ("members", .array (d.members.map memberJson))]

/-- Shows what a file declares. -/
def inspect (input : String) (module config : Option String) : Job Unit := do
  let c ← loadConfig config module
  let descriptors ← within ("Failed to inspect " ++ input) (describeFile c input)
  printLine (Text.Json.array (descriptors.map descriptorJson)).pretty

/-- The lines that show settings. -/
def summary (c : Config) : List String :=
  ["✓ Module: " ++ c.modulePath,
   "✓ Runtime crate: " ++ c.runtimeCrate,
   "✓ Artifact suffix: " ++ c.artifactSuffix,
   "✓ Qualifying annotations: " ++ ", ".intercalate c.qualifyingAnnotations,
   "✓ Unresolved member types: " ++ c.unresolvedNullability.name,
   "✓ Nullable markers: " ++ (if c.nullableAnnotations then "honored" else "ignored")]

/-- The file with settings that is checked if none is named. -/
def defaultConfigPath : String := "propgroup.toml"

/-- Checks a file with settings. -/
def checkConfig (path : Option String) : Job Unit := do
  let path := path.getD defaultConfigPath
  printLine ("Checking configuration: " ++ path)
  let c ← loadConfig (some path) none
  for line in summary c do printLine line
  printLine ""
  printLine "Configuration is valid!"

/-- The task with the values of its options. -/
def job (name : TaskName) (values : List (String × String)) : Job Unit :=
  let value (o : OptionSpec) : Option String := values.lookup o.long
  let input := (value TaskName.input).getD ""
  let output := (value TaskName.output).getD ""
  match name with
  | .generate => generate input output (value TaskName.moduleOption) (value TaskName.config)
  | .inspect => inspect input (value TaskName.moduleOption) (value TaskName.config)
  | .checkConfig => checkConfig (value TaskName.config)

/-- The files that a task reads before it writes. -/
def sources (name : TaskName) (values : List (String × String)) : List String :=
  let config := values.lookup TaskName.config.long
  match name with
  | .checkConfig => [config.getD defaultConfigPath]
  | _ => (values.lookup TaskName.input.long).toList ++ config.toList

/-! ## Reports -/

/-- What is shown of an event: level, message and fields. -/
def eventLine (e : Event) : String :=
  let field : String × EventValue → String
    | (key, .text s) => key ++ "=" ++ s
    | (key, .quoted s) => key ++ "=" ++ Text.quote s
    | (key, .number n) => key ++ "=" ++ toString n
  " ".intercalate ([e.level.name, e.message] ++ e.fields.map field)

/-- Whether an event is shown. Without `-v` those are left out that only help to find faults. -/
def isShown (verbosity : Nat) (e : Event) : Bool := verbosity > 0 || e.level != .debug

/-- How a call ends. -/
structure Report where
  exit : Nat
  /-- What is printed. -/
  output : String
  failure : Option Failure
  /-- The events that are shown. -/
  log : List String
  files : FileSystem

/-- What is printed for the version. -/
def versionLine : String := "propgroup 0.3.0"

/-- Carries out a call on files; none if the call is not well formed. -/
def run? (args : List String) (files : FileSystem) : Option Report := do
  match ← call? args with
  | .version => return ⟨0, joinLines [versionLine], none, [], files⟩
  | .task verbosity name values =>
    let traced := (job name values).run.run ⟨files, []⟩
    let (result, w) := traced.value
    let failure := match result with
      | .ok _ => none
      | .error f => some f
    return {
      exit := if failure.isSome then 1 else 0
      output := joinLines w.printed
      failure := failure
      log := (traced.events.filter (isShown verbosity)).map eventLine
      files := w.files }

/-- The exit code of a call that is not well formed. -/
def usageExit : Nat := 2

end Memberwise.CommandLine
