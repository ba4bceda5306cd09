import Greybox.ByteSource

namespace Greybox

inductive OsError where
  | noEntry
  | alreadyExists
  | notADirectory
  | isADirectory
  | other (text : String)
  deriving DecidableEq

def OsError.message : OsError → String
  | noEntry => "No such file or directory (os error 2)"
  | alreadyExists => "File exists (os error 17)"
  | notADirectory => "Not a directory (os error 20)"
  | isADirectory => "Is a directory (os error 21)"
  | other text => text

inductive Node where
  | file (content : Bytes)
  | directory
  deriving DecidableEq

/-- A place in the tree: the names from the working directory down, or from the name `/` down for an
absolute place. Places above the working directory start with the names `..` that lead up to it. -/
abbrev Location := List String

namespace Location

def isAncestral (location : Location) : Bool := location.all (· = "..")

def parent (location : Location) : Location :=
  if location = ["/"] then location
  else if location.isAncestral then location ++ [".."]
  else location.dropLast

end Location

namespace Path

def pieces (path : String) : List String := (path.toList.splitOn '/').map String.ofList

/-- The components of a path as written, with a leading `/` for an absolute path. Empty components
and, but for the first, dots stand for nothing. -/
def components (path : String) : List String :=
  match pieces path with
  | "" :: rest => if path.isEmpty then [] else "/" :: rest
  | parts => parts

def join (directory path : String) : String :=
  if path.startsWith "/" || directory.isEmpty then path
  else if directory.endsWith "/" then directory ++ path
  else directory ++ "/" ++ path

def leading (path : String) : List String :=
  let parts := pieces path
  ((List.range parts.length).map fun count => "/".intercalate (parts.take count)).filter (· ≠ "")

end Path

/-- The files and directories below a working directory. Directories are enumerated in the order of
the entries. -/
structure FileTree where
  entries : List (Location × Node) := []
  deriving DecidableEq

namespace FileTree

instance : EmptyCollection FileTree := ⟨{}⟩

instance : Inhabited FileTree := ⟨∅⟩

def node? (tree : FileTree) (location : Location) : Option Node :=
  if location.isAncestral ∨ location = ["/"] then some .directory
  else tree.entries.lookup location

def isFileAt (tree : FileTree) (location : Location) : Bool :=
  match tree.node? location with
  | some (.file _) => true
  | _ => false

def isDirectoryAt (tree : FileTree) (location : Location) : Bool :=
  tree.node? location = some .directory

/-- Follows components from a location. Every component but the last needs an existing directory to
go on from. -/
def walk (tree : FileTree) (location : Location) : List String → Except OsError Location
  | [] => .ok location
  | part :: rest =>
    match tree.node? location with
    | none => .error .noEntry
    | some (.file _) => .error .notADirectory
    | some .directory =>
      if part = "" ∨ part = "." then tree.walk location rest
      else if part = ".." then tree.walk location.parent rest
      else tree.walk (location ++ [part]) rest

/-- The location that components lead to, which need not exist itself. -/
def locate (tree : FileTree) (parts : List String) : Except OsError Location :=
  match parts with
  | [] => .error .noEntry
  | "/" :: rest => tree.walk ["/"] rest
  | parts => tree.walk [] parts

def find (tree : FileTree) (path : String) : Except OsError Node := do
  let location ← tree.locate (Path.components path)
  match tree.node? location with
  | some node => .ok node
  | none => .error .noEntry

def isFile (tree : FileTree) (path : String) : Bool :=
  match tree.find path with
  | .ok (.file _) => true
  | _ => false

def isDirectory (tree : FileTree) (path : String) : Bool :=
  match tree.find path with
  | .ok .directory => true
  | _ => false

def pathExists (tree : FileTree) (path : String) : Bool := (tree.find path).toBool

def set (tree : FileTree) (location : Location) (node : Node) : FileTree :=
  if (tree.entries.lookup location).isSome then
    ⟨tree.entries.map fun entry => if entry.1 = location then (location, node) else entry⟩
  else ⟨tree.entries ++ [(location, node)]⟩

def eraseAt (tree : FileTree) (location : Location) : FileTree :=
  ⟨tree.entries.filter (·.1 ≠ location)⟩

def eraseTree (tree : FileTree) (path : String) : FileTree :=
  match tree.locate (Path.components path) with
  | .ok location => ⟨tree.entries.filter fun entry => !location.isPrefixOf entry.1⟩
  | .error _ => tree

def namesAt (tree : FileTree) (location : Location) : List String :=
  tree.entries.filterMap fun entry =>
    if entry.1.parent = location then entry.1.getLast? else none

def names (tree : FileTree) (path : String) : List String :=
  match tree.locate (Path.components path) with
  | .ok location => tree.namesAt location
  | .error _ => []

def read (tree : FileTree) (path : String) : Except OsError Bytes := do
  match ← tree.find path with
  | .file content => .ok content
  | .directory => .error .isADirectory

def modifyFile (tree : FileTree) (path : String) (change : Bytes → Bytes) :
    Except OsError FileTree := do
  let location ← tree.locate (Path.components path)
  match tree.node? location with
  | some .directory => .error .isADirectory
  | some (.file content) => .ok (tree.set location (.file (change content)))
  | none => .ok (tree.set location (.file (change #[])))

def write (tree : FileTree) (path : String) (content : Bytes) : Except OsError FileTree :=
  tree.modifyFile path fun _ => content

def append (tree : FileTree) (path : String) (content : Bytes) : Except OsError FileTree :=
  tree.modifyFile path (· ++ content)

def makeDirectory (tree : FileTree) (parts : List String) : Except OsError FileTree := do
  let location ← tree.locate parts
  match tree.node? location with
  | some _ => .error .alreadyExists
  | none => .ok (tree.set location .directory)

def leadToDirectory (tree : FileTree) (parts : List String) : Bool :=
  match tree.locate parts with
  | .ok location => tree.isDirectoryAt location
  | .error _ => false

/-- Makes one directory. If there is one already, its absence was no obstacle. -/
def ensureDirectory (tree : FileTree) (parts : List String) : Except OsError Unit × FileTree :=
  match tree.makeDirectory parts with
  | .ok tree => (.ok (), tree)
  | .error error => (if tree.leadToDirectory parts then .ok () else .error error, tree)

/-- Makes the directory that reversed components lead to. Only if it cannot be made for lack of the
one that it lies in, that one is made first. On failure the tree is what has become of it. -/
def makeDirectoriesReversed (tree : FileTree) : List String → Except OsError Unit × FileTree
  | [] => (.ok (), tree)
  | last :: before =>
    let parts := (last :: before).reverse
    match tree.ensureDirectory parts with
    | (.error .noEntry, tree) =>
      match tree.makeDirectoriesReversed before with
      | (.error error, tree) => (.error error, tree)
      | (.ok (), tree) => tree.ensureDirectory parts
    | result => result

def makeDirectories (tree : FileTree) (path : String) : Except OsError Unit × FileTree :=
  tree.makeDirectoriesReversed
    ((Path.components path).filter fun part => part ≠ "" ∧ part ≠ ".").reverse

end FileTree

end Greybox
