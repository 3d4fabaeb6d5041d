import Memberwise.Text.Pieces

/-!
# Memberwise.CommandLine.Arguments — reading the arguments of a call

A call names one of three tasks and gives its options. An option is written `-i x`, `-ix`, `-i=x`,
`--input x` or `--input=x`, and at most once. The flag `-v` may stand anywhere and be repeated, and
several flags may share a hyphen.
-/

namespace Memberwise.CommandLine

/-- An option of a task. -/
structure OptionSpec where
  short : Char
  long : String
  /-- Whether the value is a path, which cannot be empty. -/
  isPath : Bool
  required : Bool
deriving DecidableEq

/-- The tasks. -/
inductive TaskName where
  | generate
  | inspect
  | checkConfig
deriving DecidableEq, Repr

namespace TaskName

/-- The task with a given name. -/
def ofText? (text : String) : Option TaskName :=
  if text = "generate" then some generate
  else if text = "inspect" then some inspect
  else if text = "check-config" then some checkConfig
  else none

/-- The source file to read. -/
def input : OptionSpec := ⟨'i', "input", true, true⟩

/-- The directory to write to. -/
def output : OptionSpec := ⟨'o', "output", true, true⟩

/-- The module that the source is compiled as. -/
def moduleOption : OptionSpec := ⟨'m', "module", false, false⟩

/-- The file with settings. -/
def config : OptionSpec := ⟨'c', "config", true, false⟩

/-- The options of a task. -/
def options : TaskName → List OptionSpec
  | generate => [input, output, moduleOption, config]
  | inspect => [input, moduleOption, config]
  | checkConfig => [config]

end TaskName

/-- A call that is well formed. -/
inductive Call where
  /-- Asks for the version. -/
  | version
  /-- Runs a task with the values of its options; `verbosity` counts the flags `-v`. -/
  | task (verbosity : Nat) (name : TaskName) (values : List (String × String))
deriving DecidableEq, Repr

/-- What has been read of the options of a task. -/
structure Given where
  verbosity : Nat
  values : List (String × String)

/-- Takes a value for an option that has none yet. -/
def Given.take? (g : Given) (o : OptionSpec) (value : String) : Option Given :=
  if (g.values.lookup o.long).isSome || o.isPath && value.isEmpty then none
  else some { g with values := g.values ++ [(o.long, value)] }

/-- Whether an argument is a value and not an option. A hyphen alone is a value. -/
def isValue (arg : String) : Bool := arg = "-" || arg.toList.head? != some '-'

/-- The name and the attached value of an argument after its two hyphens. -/
def splitLong (cs : List Char) : String × Option String :=
  match cs.dropWhile (· != '=') with
  | '=' :: value => (String.ofList (cs.takeWhile (· != '=')), some (String.ofList value))
  | _ => (String.ofList cs, none)

/-- The attached value of a short option. -/
def attached : List Char → String
  | '=' :: cs => String.ofList cs
  | cs => String.ofList cs

/-- What the flags after one hyphen amount to. -/
inductive Cluster where
  /-- Only flags. -/
  | flags (g : Given)
  /-- An option whose value is the next argument. -/
  | wants (g : Given) (o : OptionSpec)

/-- Reads the flags after one hyphen. -/
def cluster? (options : List OptionSpec) (g : Given) : List Char → Option Cluster
  | [] => some (.flags g)
  | c :: cs =>
    if c = 'v' then cluster? options { g with verbosity := g.verbosity + 1 } cs
    else
      match options.find? (·.short == c) with
      | none => none
      | some o =>
        if cs.isEmpty then some (.wants g o) else (g.take? o (attached cs)).map .flags

/-- Reads an option whose value is the next argument, then goes on. -/
def takeNext? (g : Given) (o : OptionSpec) (args : List String)
    (goOn : Given → List String → Option Given) : Option Given :=
  match args with
  | value :: rest => if isValue value then do goOn (← g.take? o value) rest else none
  | [] => none

/-- Reads the options of a task, at most `fuel` arguments. -/
def optionsFrom? (options : List OptionSpec) : Nat → Given → List String → Option Given
  | 0, _, _ => none
  | _, g, [] => some g
  | fuel + 1, g, arg :: args =>
    match arg.toList with
    | ['-', '-'] => if args.isEmpty then some g else none
    | '-' :: '-' :: cs =>
      match splitLong cs with
      | ("verbose", none) => optionsFrom? options fuel { g with verbosity := g.verbosity + 1 } args
      | (name, value) =>
        match options.find? (·.long == name), value with
        | some o, some value => do optionsFrom? options fuel (← g.take? o value) args
        | some o, none => takeNext? g o args (optionsFrom? options fuel)
        | none, _ => none
    | '-' :: c :: cs =>
      match cluster? options g (c :: cs) with
      | some (.flags g) => optionsFrom? options fuel g args
      | some (.wants g o) => takeNext? g o args (optionsFrom? options fuel)
      | none => none
    | _ => none

/-- What the flags before the task amount to: the version is asked for, or a number of `-v`. -/
inductive Leading where
  | version
  | flags (verbosity : Nat)

/-- Reads the flags after one hyphen before the task. -/
def leading? (verbosity : Nat) : List Char → Option Leading
  | [] => some (.flags verbosity)
  | 'v' :: cs => leading? (verbosity + 1) cs
  | 'V' :: _ => some .version
  | _ => none

/-- Reads a call after `verbosity` flags `-v`; none if it is not well formed. -/
def callFrom? (verbosity : Nat) : List String → Option Call
  | [] => none
  | arg :: args =>
    if arg = "--verbose" then callFrom? (verbosity + 1) args
    else if arg = "--version" then some .version
    else
      match arg.toList with
      | '-' :: c :: cs =>
        match leading? verbosity (c :: cs) with
        | some .version => some .version
        | some (.flags verbosity) => callFrom? verbosity args
        | none => none
      | _ => do
        let name ← TaskName.ofText? arg
        let g ← optionsFrom? name.options (args.length + 1) ⟨verbosity, []⟩ args
        if (name.options.filter (·.required)).all fun o => (g.values.lookup o.long).isSome then
          some (.task g.verbosity name g.values)
        else none

/-- Reads a call; none if it is not well formed. -/
def call? (args : List String) : Option Call := callFrom? 0 args

end Memberwise.CommandLine
