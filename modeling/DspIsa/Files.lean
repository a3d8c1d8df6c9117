import DspIsa.Error

/-! The two file operations that the library asks of its surroundings, and a store of files in
memory that offers them. -/
namespace DspIsa

class MonadFiles (m : Type → Type) where
  readFile : String → m (Except FileFault ByteArray)
  writeFile : String → ByteArray → m (Except FileFault Unit)

export MonadFiles (readFile writeFile)

/-- Reads a file as UTF-8 text. -/
def readText {m : Type → Type} [Monad m] [MonadFiles m] (path : String) :
    m (Except FileFault String) := do
  match ← readFile path with
  | .error fault => return .error fault
  | .ok bytes =>
    match String.fromUTF8? bytes with
    | some text => return .ok text
    | none => return .error .notUtf8

/-- What a name in a store stands for. -/
inductive Entry where
  | file (bytes : ByteArray)
  | directory

instance : DecidableEq Entry
  | .file bytes, .file other =>
    match ByteArray.instDecidableEq bytes other with
    | .isTrue same => .isTrue (congrArg Entry.file same)
    | .isFalse differ => .isFalse fun same => differ (Entry.file.inj same)
  | .file _, .directory => .isFalse nofun
  | .directory, .file _ => .isFalse nofun
  | .directory, .directory => .isTrue rfl

/-- Files and directories by their place, the steps that lead to it from the working directory.
A later entry for a place hides an earlier one. -/
structure FileStore where
  entries : List (List String × Entry)
  deriving DecidableEq

namespace FileStore

def empty : FileStore := ⟨[]⟩

/-- What stands at a place. The working directory, those above it and the root are always there. -/
def entry? (store : FileStore) (place : List String) : Option Entry :=
  if place.all (· = "..") ∨ place = ["/"] then some .directory else store.entries.lookup place

def put (store : FileStore) (place : List String) (entry : Entry) : FileStore :=
  ⟨(place, entry) :: store.entries.filter fun old => old.1 != place⟩

/-- The place that a path starts from: the root or the working directory. -/
def origin (path : String) : List String := if path.startsWith "/" then ["/"] else []

/-- One step from a place. An empty name and `.` lead nowhere; `..` leads up, but not above the
root. -/
def step (place : List String) (name : String) : List String :=
  if name = "" ∨ name = "." then place
  else if name = ".." then
    if place = ["/"] then place
    else if place.all (· = "..") then place ++ [".."]
    else place.dropLast
  else place ++ [name]

def requireDirectory (store : FileStore) (place : List String) : Except FileFault Unit :=
  match store.entry? place with
  | some .directory => .ok ()
  | some (.file _) => .error .notDirectory
  | none => .error .notFound

/-- Follows a name of at most 255 bytes from a place, which has to be a directory. -/
def enter (store : FileStore) (place : List String) (name : String) :
    Except FileFault (List String) := do
  store.requireDirectory place
  if 255 < name.utf8ByteSize then throw .nameTooLong
  return step place name

/-- The names of a path, which has to have one, may not hold a NUL and has at most 4095 bytes. -/
def names (path : String) : Except FileFault (List String) :=
  if path.contains '\x00' then .error .embeddedNul
  else if path = "" then .error .notFound
  else if 4095 < path.utf8ByteSize then .error .nameTooLong
  else .ok (path.splitOn "/")

/-- The place a path leads to, which need not exist. -/
def resolve (store : FileStore) (path : String) : Except FileFault (List String) := do
  (← names path).foldlM store.enter (origin path)

/-- Where a path puts something new: the directory for it, its name there, and whether slashes
follow the name. -/
structure Target where
  parent : List String
  name : String
  closed : Bool
  deriving DecidableEq, Repr

/-- Takes the last name off a path and follows the others. -/
def target (store : FileStore) (path : String) : Except FileFault Target := do
  let names ← names path
  let backwards := names.reverse.dropWhile (· = "")
  let parent ← backwards.tail.reverse.foldlM store.enter (origin path)
  store.requireDirectory parent
  return ⟨parent, backwards.headD "", names.getLast? = some ""⟩

def read (store : FileStore) (path : String) : Except FileFault ByteArray := do
  match store.entry? (← store.resolve path) with
  | some (.file bytes) => return bytes
  | some .directory => throw .isDirectory
  | none => throw .notFound

/-- Replaces or makes a file. A name with slashes behind it can only mean a directory, whatever
stands there. -/
def write (store : FileStore) (path : String) (bytes : ByteArray) :
    Except FileFault FileStore := do
  let target ← store.target path
  if target.closed then throw .isDirectory
  let place ← store.enter target.parent target.name
  if store.entry? place = some .directory then throw .isDirectory
  return store.put place (.file bytes)

def makeDirectory (store : FileStore) (path : String) : Except FileFault FileStore := do
  let target ← store.target path
  let place ← store.enter target.parent target.name
  if (store.entry? place).isSome then throw .alreadyExists
  return store.put place .directory

instance : MonadFiles (StateM FileStore) where
  readFile path := do return (← get).read path
  writeFile path bytes := do
    match (← get).write path bytes with
    | .error fault => return .error fault
    | .ok store =>
      set store
      return .ok ()

end FileStore

end DspIsa
