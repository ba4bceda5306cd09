import Greybox.CommandLine
import Greybox.FileTree.Changes

namespace Greybox.Program

open CommandLine (Campaign)

def copyNode (tree : FileTree) (path : String) : IO FileTree := do
  let place := (← IO.currentDir) / path
  if ← place.isDir then return (tree.makeDirectories path).2
  else if ← place.pathExists then
    return (tree.write path (← IO.FS.readBinFile place).data).toOption.getD tree
  else return tree

def copyBelow (tree : FileTree) (path : String) : (depth : Nat) → IO FileTree
  | 0 => copyNode tree path
  | depth + 1 => do
    let tree ← copyNode tree path
    let place := (← IO.currentDir) / path
    if ← place.isDir then
      (← place.readDir).foldlM
        (fun tree entry => copyBelow tree (Path.join path entry.fileName) depth) tree
    else return tree

def copyIn (depth : Nat) (tree : FileTree) (path : String) : IO FileTree := do
  copyBelow (← (Path.leading path).foldlM copyNode tree) path depth

def treeFor (options : Options) : IO FileTree := do
  let tree ← copyIn 0 ∅ (CommandLine.configPath options)
  let places := CommandLine.effectivePlaces tree options
  let tree ← places.seedPaths.foldlM (copyIn 1) tree
  copyIn 2 tree places.outputDir

def writeBack (before after : FileTree) : IO Unit := do
  let here ← IO.currentDir
  for change in before.changes after do
    match change with
    | .removed path => IO.FS.removeFile (here / path)
    | .directory path => IO.FS.createDirAll (here / path)
    | .file path content => IO.FS.writeBinFile (here / path) ⟨content⟩

def showEvents (events : Array Event) : IO Unit := do
  for event in events do
    if event.level.rank ≤ LogLevel.info.rank then IO.eprintln event.line

/-- A campaign under way, the tree that the disk agrees with, and when the disk is due next. A
campaign works on a copy of the files that its command looks at, and what has changed in the copy is
written to the disk about once a second and at the end. -/
structure Progress where
  campaign : Campaign
  written : FileTree
  due : Moment

def Progress.showing (progress : Progress) : IO Progress := do
  let engine := progress.campaign.engine
  showEvents engine.journal
  return { progress with
    campaign := { progress.campaign with engine := { engine with journal := #[] } } }

def Progress.writing (progress : Progress) (now : Moment) : IO Progress := do
  let tree := progress.campaign.engine.storage.tree
  writeBack progress.written tree
  return { progress with written := tree, due := now + 1000000000 }

partial def Progress.run (progress : Progress) : IO (Except EngineError Unit × Progress) := do
  let now ← IO.monoNanosNow
  if progress.campaign.engine.hasInput now then
    let (result, engine) := progress.campaign.trial now
    let progress ← { progress with campaign := { progress.campaign with engine } }.showing
    let progress ← if progress.due ≤ now then progress.writing now else pure progress
    match result with
    | .error error => return (.error error, progress)
    | .ok () => progress.run
  else return (.ok (), progress)

def fail (error : CommandError) : IO UInt32 := do
  IO.eprintln s!"Error: {error.message}"
  return CommandLine.exitCode (.error error)

def finish (campaign : Campaign) (written : FileTree) : IO UInt32 := do
  let started ← IO.monoNanosNow
  let (result, progress) ← Progress.run { campaign, written, due := started }
  let now ← IO.monoNanosNow
  let elapsed := Engine.since started now
  let (result, engine) : Engine.Result DiskStore ChaCha Stats := match result with
    | .error error => (.error error, progress.campaign.engine)
    | .ok () => progress.campaign.finish now
  let progress ← { progress with campaign := { progress.campaign with engine } }.showing
  let _ ← progress.writing now
  match result with
  | .error error => fail (.engine error)
  | .ok stats =>
    let text := CommandLine.closing elapsed stats
    IO.print text
    return CommandLine.exitCode (.ok text)

def start (options : Options) : IO UInt32 := do
  let tree ← treeFor options
  let entropy := CoverageState.decodeSize (← IO.getRandomBytes 8).data
  let report := CommandLine.setUp tree options entropy (← IO.monoNanosNow)
  showEvents report.journal
  writeBack tree report.tree
  match report.result with
  | .error error => fail error
  | .ok campaign =>
    let engine := { campaign.engine with journal := #[] }
    finish { campaign with engine } report.tree

end Greybox.Program

open Greybox in
def main (arguments : List String) : IO UInt32 :=
  match Options.parse arguments with
  | some options => Program.start options
  | none => Program.fail .usage
