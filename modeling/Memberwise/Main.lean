import Memberwise.CommandLine.Run

/-!
# Memberwise.Main — the command line

Runs a call against the files on disk. The call itself is carried out on a file system that is a
value: it gets the files that the task reads, then those that it is about to write, and what it has
changed in the end is written to disk.
-/

namespace Memberwise.CommandLine

/-- The text of a file on disk, if it can be read. -/
def readText? (path : String) : IO (Option String) := do
  try
    return some (← IO.FS.readFile path)
  catch _ =>
    return none

/-- Adds those of the files at given paths that are on disk. -/
def withDisk (fs : FileSystem) (paths : List String) : IO FileSystem :=
  paths.foldlM
    (fun fs path => do
      match ← readText? path with
      | some text => return (fs.put path text).1
      | none => return fs)
    fs

/-- The entries that are new or different. -/
def changes (before after : FileSystem) : List (String × Option String) :=
  after.listing.filter fun entry => !before.listing.contains entry

/-- Writes entries to disk. -/
def writeDisk (entries : List (String × Option String)) : IO Unit :=
  entries.forM fun (path, text) =>
    match text with
    | some text => IO.FS.writeFile path text
    | none => IO.FS.createDirAll path

/-- Prints what is said of a failure. -/
def printFailure (message cause : String) : IO Unit :=
  IO.eprint (joinLines ["Error: " ++ message, "", "Caused by:", "    " ++ cause])

/-- Shows a report and gives the exit code. -/
def showReport (r : Report) : IO UInt32 := do
  r.log.forM fun line => IO.eprintln line
  IO.print r.output
  match r.failure with
  | some f => printFailure f.message f.cause.message
  | none => pure ()
  return r.exit.toUInt32

/-- Carries out a call on the files on disk. -/
def runOnDisk (args : List String) : IO UInt32 := do
  let given := match call? args with
    | some (.task _ name values) => sources name values
    | _ => []
  let start ← withDisk .empty given
  match run? args start with
  | none =>
    IO.eprintln "error: the arguments are not well formed"
    return usageExit.toUInt32
  | some planned =>
    let targets := (changes start planned.files).filterMap fun (path, text) => text.map fun _ => path
    let before ← withDisk start targets
    match run? args before with
    | none => return usageExit.toUInt32
    | some report =>
      try
        writeDisk (changes before report.files)
        showReport report
      catch e =>
        printFailure "Failed to write artifacts" (toString e)
        return 1

end Memberwise.CommandLine

def main (args : List String) : IO UInt32 := Memberwise.CommandLine.runOnDisk args
