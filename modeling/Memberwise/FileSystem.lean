import Memberwise.Text.Pieces

/-!
# Memberwise.FileSystem — files and directories

A file system as a value: the files and directories below a root directory, each under the names
that lead to it. An entry is there only if the directory around it is. There are no links, so an
entry has one place.

A written path is followed name by name. Two points lead to the directory around, and every place
on the way has to be a directory.
-/

namespace Memberwise

/-! ## Paths -/

/-- How a written path ends. -/
inductive PathEnd where
  | name
  /-- In a slash, which asks for a directory. -/
  | slash
  /-- In a point, which asks for a directory that is there already. -/
  | point
deriving DecidableEq, Repr

/-- A written path taken apart: the names to follow from the root, and how the path ends. -/
structure Route where
  names : List String
  ending : PathEnd
deriving DecidableEq, Repr

/-- The longest name of a file, in bytes. -/
def maxNameBytes : Nat := 255

/-- The longest path, in bytes. -/
def maxPathBytes : Nat := 4095

/-- Whether a path can be followed at all: it is not empty and not too long and has no zero in
it. -/
def isUsablePath (path : String) : Bool :=
  !path.isEmpty && path.utf8ByteSize ≤ maxPathBytes && path.toList.all (·.toNat != 0)

/-- The pieces of a path between its slashes. -/
def pathPieces (path : String) : List String :=
  (Text.splitAt (· == '/') path.toList).map String.ofList

/-- How a path with the given pieces ends. -/
def endingOf (pieces : List String) : PathEnd :=
  if (pieces.filter (· != "")).getLast? = some "." then .point
  else if pieces.getLast? = some "" then .slash
  else .name

/-- The names to follow for a path. Empty names and points are passed over; an absolute path starts
at a root of its own. -/
def routeNames (path : String) : List String :=
  (if path.toList.head? = some '/' then ["/"] else []) ++
    (pathPieces path).filter fun n => n != "" && n != "."

/-- Takes a path apart, if it can be followed. -/
def Route.ofPath? (path : String) : Option Route :=
  if isUsablePath path then some ⟨routeNames path, endingOf (pathPieces path)⟩ else none

/-- Whether a name is not too long. -/
def isFileName (name : String) : Bool := name.utf8ByteSize ≤ maxNameBytes

/-- A path followed by a name. An absolute name stands alone. -/
def joinPath (base name : String) : String :=
  if name.toList.head? = some '/' || base.isEmpty then name
  else if base.toList.getLast? = some '/' then base ++ name
  else base ++ "/" ++ name

/-! ## Places -/

/-- Whether a place is the root directory or one around it. -/
def isOutermost (place : List String) : Bool := place.all (· == "..")

/-- The directory around a place. The root of absolute paths has none but itself. -/
def around (place : List String) : List String :=
  if place = ["/"] then place
  else if isOutermost place then place ++ [".."]
  else place.dropLast

/-- The place that a name leads to. -/
def enter (place : List String) (name : String) : List String :=
  if name = ".." then around place else place ++ [name]

/-! ## File systems -/

/-- A file with its text, or a directory. -/
inductive Entry where
  | file (text : String)
  | directory
deriving DecidableEq, Repr

/-- The files and directories below a root directory. -/
structure FileSystem where
  entries : List (List String × Entry)
deriving DecidableEq, Repr

namespace FileSystem

/-- The file system with nothing in it. -/
def empty : FileSystem := ⟨[]⟩

/-- What is at a place. The root directory, those around it, and the one where absolute paths start
are always there. -/
def get? (fs : FileSystem) (place : List String) : Option Entry :=
  if place = ["/"] || isOutermost place then some .directory else fs.entries.lookup place

/-- Puts an entry at a place. -/
def insert (fs : FileSystem) (place : List String) (e : Entry) : FileSystem :=
  if (fs.entries.lookup place).isSome then
    ⟨fs.entries.map fun (p, old) => (p, if p == place then e else old)⟩
  else ⟨fs.entries ++ [(place, e)]⟩

/-- Removes what is at a place. -/
def erase (fs : FileSystem) (place : List String) : FileSystem :=
  ⟨fs.entries.filter fun (p, _) => p != place⟩

/-- The place that names lead to, if every place on the way is a directory. -/
def follow? (fs : FileSystem) (place : List String) : List String → Option (List String)
  | [] => some place
  | name :: names =>
    if fs.get? place = some .directory then fs.follow? (enter place name) names else none

/-- The text of the file that a path leads to. -/
def read? (fs : FileSystem) (path : String) : Option String := do
  let route ← Route.ofPath? path
  let place ← fs.follow? [] route.names
  match fs.get? place with
  | some (.file text) => if route.ending = .name then some text else none
  | _ => none

/-- Writes a file in a directory that is there; none if that cannot be done. -/
def write? (fs : FileSystem) (path text : String) : Option FileSystem := do
  let route ← Route.ofPath? path
  let place ← fs.follow? [] route.names
  if route.ending != .name || !place.getLast?.all isFileName || fs.get? place == some .directory then
    none
  else some (fs.insert place (.file text))

/-- Removes a file; none if there is no file. -/
def remove? (fs : FileSystem) (path : String) : Option FileSystem := do
  discard <| fs.read? path
  let route ← Route.ofPath? path
  return fs.erase (← fs.follow? [] route.names)

/-- Makes the directories that names lead to from `place`. Gives whether each is a directory in the
end; those made before a failure stay. -/
def makeFrom (fs : FileSystem) (place : List String) : List String → FileSystem × Bool
  | [] => (fs, true)
  | name :: names =>
    let here := enter place name
    match fs.get? here with
    | some .directory => makeFrom fs here names
    | some (.file _) => (fs, false)
    | none =>
      if isFileName name then makeFrom (fs.insert here .directory) here names else (fs, false)

/-- Whether names lead from the root to a directory. -/
def hasDirectory (fs : FileSystem) (names : List String) : Bool :=
  (fs.follow? [] names).any fun place => fs.get? place == some .directory

/-- Makes a directory and those around it. Gives whether it is a directory in the end; those made
before a failure stay. The empty path stands for the root directory. -/
def makeDirectories (fs : FileSystem) (path : String) : FileSystem × Bool :=
  if path.isEmpty then (fs, true)
  else
    match Route.ofPath? path with
    | none => (fs, false)
    | some route =>
      if route.ending = .point then
        let (made, ok) := fs.makeFrom [] route.names.dropLast
        (made, ok && made.hasDirectory route.names)
      else fs.makeFrom [] route.names

/-- Writes a file after making the directories around it. Gives whether it was written; directories
made before a failure stay. -/
def put (fs : FileSystem) (path text : String) : FileSystem × Bool :=
  match Route.ofPath? path with
  | none => (fs, false)
  | some route =>
    let (made, ok) := fs.makeFrom [] route.names.dropLast
    match if ok then made.write? path text else none with
    | some written => (written, true)
    | none => (made, false)

/-- The path of an entry; that of a directory ends with a slash. -/
def entryPath (names : List String) (e : Entry) : String :=
  let path := match names with
    | "/" :: rest => "/" ++ "/".intercalate rest
    | _ => "/".intercalate names
  match e with
  | .file _ => path
  | .directory => path ++ "/"

/-- The entries by path; a file with its text. -/
def listing (fs : FileSystem) : List (String × Option String) :=
  fs.entries.map fun (names, e) =>
    (entryPath names e, match e with
      | .file text => some text
      | .directory => none)

end FileSystem

end Memberwise
