import Greybox.FileTree

namespace Greybox

def Location.toPath : Location → String
  | "/" :: names => "/" ++ "/".intercalate names
  | names => "/".intercalate names

inductive FileChange where
  | removed (path : String)
  | directory (path : String)
  | file (path : String) (content : Bytes)
  deriving DecidableEq

namespace FileTree

def placing (location : Location) : Node → FileChange
  | .directory => .directory location.toPath
  | .file content => .file location.toPath content

def removals (before after : FileTree) : List FileChange :=
  before.entries.filterMap fun (location, node) =>
    if node ≠ .directory ∧ (after.node? location).isNone then some (.removed location.toPath)
    else none

def additions (before after : FileTree) : List FileChange :=
  after.entries.filterMap fun (location, node) =>
    if before.node? location = some node then none else some (placing location node)

def changes (before after : FileTree) : List FileChange :=
  before.removals after ++ before.additions after

end FileTree

end Greybox
