import ClaimTree.Files.Location
import ClaimTree.Files.Place

namespace ClaimTree

inductive Entry
  | file (contents : ByteArray)
  | directory

def Entry.isDirectory : Entry → Bool
  | .file _ => false
  | .directory => true

/-- Why a file cannot be read or written. -/
inductive FileError
  | notFound
  | notADirectory
  | isADirectory
  | invalidData
  | busy
  | tooLong
  | nulInPath
  /-- Whatever else a system reports, such as a lack of space or of permission. -/
  | refused
deriving DecidableEq

/-- Files and directories below the root, as a program finds them that was started in the working
directory. -/
structure Files where
  workingDirectory : Files.Place
  entries : List (Files.Place × Entry)

namespace Files

/-- No files, and no directories but those that lead to the working directory. -/
def empty (workingDirectory : Place) : Files := ⟨workingDirectory, []⟩

/-- The place is the working directory or a directory above it, such as the root. -/
def isFixed (fs : Files) (place : Place) : Bool :=
  place.names.isPrefixOf fs.workingDirectory.names

/-- What is found at a place. -/
def entry? (fs : Files) (place : Place) : Option Entry :=
  if fs.isFixed place then some .directory else fs.entries.lookup place

def remove (fs : Files) (place : Place) : Files :=
  { fs with entries := fs.entries.filter (·.1 != place) }

def put (fs : Files) (place : Place) (entry : Entry) : Files :=
  { fs with entries := (place, entry) :: (fs.remove place).entries }

/-- The most bytes that a name may have. -/
def nameLimit : Nat := 255

/-- The most bytes that a path may have. -/
def pathLimit : Nat := 4095

/-- Refuses the paths that name nothing, whatever files there are. -/
def checkPath (path : String) : Except FileError Unit :=
  if path.toList.contains '\x00' then .error .nulInPath
  else if path.isEmpty then .error .notFound
  else if pathLimit < path.utf8ByteSize then .error .tooLong
  else .ok ()

/-- The place of a name inside a directory. -/
def inside (place : Place) (name : String) : Except FileError Place :=
  if nameLimit < name.utf8ByteSize then .error .tooLong else .ok (place.child name)

/-- Goes one part of a path further; only directories can be entered. -/
def enter (fs : Files) (place : Place) (part : String) : Except FileError Place := do
  if isIdle part then return place
  else if part = ".." then return place.parent
  else
    let place ← inside place part
    match fs.entry? place with
    | some .directory => return place
    | some (.file _) => .error .notADirectory
    | none => .error .notFound

/-- The directory to which the parts of a path lead. -/
def walk (fs : Files) (path : String) (ps : List String) : Except FileError Place :=
  ps.foldlM fs.enter (if isAbsolute path then .root else fs.workingDirectory)

/-- The place that a path names; its last part need not exist. -/
def locate (fs : Files) (path : String) : Except FileError Place := do
  checkPath path
  let place ← fs.walk path (parts path).dropLast
  let last := (parts path).getLastD ""
  if isIdle last || last = ".." then fs.enter place last else inside place last

def read (fs : Files) (path : String) : Except FileError ByteArray := do
  match fs.entry? (← fs.locate path) with
  | some (.file contents) => return contents
  | some .directory => .error .isADirectory
  | none => .error .notFound

/-- Makes an empty file, or empties the one that is there, and tells its place. -/
def create (fs : Files) (path : String) : Except FileError (Files × Place) := do
  let place ← fs.locate path
  match fs.entry? place with
  | some .directory => .error .isADirectory
  | _ => return (fs.put place (.file .empty), place)

/-- The place to which a file can be moved: not a directory, and not written like one. -/
def target (fs : Files) (path : String) : Except FileError Place := do
  checkPath path
  let body := ((parts path).reverse.dropWhile (· == "")).reverse
  let place ← fs.walk path body.dropLast
  let last := body.getLastD "."
  if last = "." ∨ last = ".." then .error .busy
  else
    let place ← inside place last
    if body.length < (parts path).length then .error .notADirectory
    else if (fs.entry? place).any (·.isDirectory) then .error .isADirectory
    else return place

/-- Moves a file over another one, or to where there is none. -/
def move (fs : Files) (path destination : String) : Except FileError Files := do
  let place ← fs.target destination
  let source ← fs.locate path
  match fs.entry? source with
  | some entry => return (fs.remove source).put place entry
  | none => .error .notFound

end Files

end ClaimTree
