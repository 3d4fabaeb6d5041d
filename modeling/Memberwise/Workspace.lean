import Memberwise.ConfigFile
import Memberwise.FileSystem
import Memberwise.Generator

/-!
# Memberwise.Workspace — generating from files to files

Commands that read and write files and print lines. A command that fails keeps what it has written
and printed before.
-/

namespace Memberwise

/-- What a command works on: the files, and the lines that were printed, in order. -/
structure Workspace where
  files : FileSystem
  printed : List String

/-- A command with a result that can be missing. -/
abbrev Command := ExceptT Fault (StateT Workspace Traced)

namespace Command

variable {α : Type}

/-- A result that needs no files. -/
def ofOutcome (x : Outcome α) : Command α := ExceptT.mk fun w => do return (← x.run, w)

/-- Reports an event. -/
def report (e : Event) : Command Unit := ofOutcome (Traced.report e)

/-- Prints a line. -/
def print (line : String) : Command Unit :=
  modify fun w => { w with printed := w.printed ++ [line] }

/-- The text of a file. -/
def readFile (path : String) : Command String := do
  match (← get).files.read? path with
  | some text => return text
  | none => throw (.read path)

end Command

open Command

/-- Describes the selected declarations of a file. -/
def describeFile (c : Config) (path : String) : Command (List Descriptor) := do
  let source ← readFile path
  ofOutcome (describeSource c source path)

/-- The artifacts of a file. -/
def generateFile (c : Config) (path : String) : Command (List Artifact) := do
  let source ← readFile path
  ofOutcome (generateSource c source path)

/-- Reads settings from a file. -/
def readConfig (path : String) : Command Config := do
  let text ← readFile path
  ofOutcome (Outcome.ofExcept (Config.ofToml text))

/-- Writes an artifact into a directory, unless its file already holds it. Gives the path. -/
def writeArtifact (out : String) (a : Artifact) : Command String := do
  let path := joinPath out a.name
  let w ← get
  if w.files.read? path = some a.contents then
    report (.artifactKept path)
    return path
  else
    match w.files.write? path a.contents with
    | none => throw (.write path)
    | some files =>
      set { w with files := files }
      report (.artifactWritten path)
      return path

/-- Writes artifacts into a directory, which is made if it is not there. Gives their paths. -/
def writeArtifacts (artifacts : List Artifact) (out : String) : Command (List String) := do
  let w ← get
  let (files, made) := w.files.makeDirectories out
  set { w with files := files }
  if made then artifacts.mapM (writeArtifact out) else throw (.write out)

/-- The artifacts of files, after those whose names are `used`. -/
def collectArtifacts (c : Config) (used : List String) : List String → Command (List Artifact)
  | [] => return []
  | path :: paths => do
    print ("cargo:rerun-if-changed=" ++ path)
    let descriptors ← describeFile c path
    let artifacts ← ofOutcome (artifactsAfter c used descriptors)
    let rest ← collectArtifacts c (used ++ artifacts.map Artifact.name) paths
    return artifacts ++ rest

/-- Generates from files into a directory. Nothing is written unless every file can be read. -/
def compile (c : Config) (paths : List String) (out : String) : Command (List String) := do
  let artifacts ← collectArtifacts c [] paths
  writeArtifacts artifacts out

end Memberwise
