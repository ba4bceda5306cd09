import Greybox.Engine.Basic

namespace Greybox.SeedFiles

def isHidden (name : String) : Bool := name.startsWith "."

def inDirectory (tree : FileTree) (directory : String) : List String :=
  let names := (tree.names directory).filter fun name =>
    !isHidden name && tree.isFile (Path.join directory name)
  (names.mergeSort (· ≤ ·)).map (Path.join directory)

def expand (tree : FileTree) (path : String) : Except StorageError (List String) :=
  if tree.isFile path then .ok [path]
  else if tree.isDirectory path then .ok (inDirectory tree path)
  else .error (.noSeed path)

/-- The files that seed paths stand for, path by path. A directory stands for the files directly in
it, hidden ones apart, in ascending order. -/
def resolve (tree : FileTree) (paths : List String) : Except StorageError (List String) :=
  (paths.mapM (expand tree)).map List.flatten

/-- Opens a file as a seed. A directory can be opened too, but no byte can be read from it. -/
def openSeed (tree : FileTree) (path : String) : Except InputError Input :=
  match tree.find path with
  | .error cause => .error (.unreadable cause.message)
  | .ok (.file content) => .ok (.ofSeed (.ofSource path (.ofBytes content)))
  | .ok .directory => .ok (.ofSeed (.ofSource path (.failing OsError.isADirectory.message)))

end Greybox.SeedFiles

namespace Greybox.Engine

variable {σ ρ : Type}

def queueFiles (engine : Engine σ ρ) (tree : FileTree) : List String → Result σ ρ Unit
  | [] => (.ok (), engine)
  | file :: files =>
    let engine := engine.note (.queueingSeed file)
    match SeedFiles.openSeed tree file with
    | .error cause => (.error (.input cause), engine)
    | .ok seed => (engine.addSeed seed).queueFiles tree files

def addSeedPaths (engine : Engine σ ρ) (tree : FileTree) (paths : List String) : Result σ ρ Nat :=
  match SeedFiles.resolve tree paths with
  | .error cause => (.error (.storage cause), engine)
  | .ok files =>
    let (result, engine) := engine.queueFiles tree files
    (result.map fun _ => files.length, engine)

end Greybox.Engine
