import Greybox.Storage.Format
import Greybox.Storage.Memory

namespace Greybox

/-- A store in an output directory:
* `corpus/id_NNNNNN`: the bytes of each saved input
* `corpus_index.json`: the metadata of each saved input
* `coverage_hash`: a readable listing of the coverage with its fingerprint
* `coverage.bin`: the coverage as bytes
* `plot_data`: one line for every refresh
* `all/success/id_NNNNNNNNN`: the bytes of every trial, if these are logged -/
structure DiskStore where
  tree : FileTree
  outputDir : String
  trialDir : Option String
  index : Std.TreeMap Nat EntryMetadata := ∅

namespace DiskStore

def utf8 (text : String) : Bytes := text.toUTF8.data

def corpusDirIn (outputDir : String) : String := Path.join outputDir "corpus"

def indexPathIn (outputDir : String) : String := Path.join outputDir "corpus_index.json"

def listingPathIn (outputDir : String) : String := Path.join outputDir "coverage_hash"

def statePathIn (outputDir : String) : String := Path.join outputDir "coverage.bin"

def plotPathIn (outputDir : String) : String := Path.join outputDir "plot_data"

def corpusDir (store : DiskStore) : String := corpusDirIn store.outputDir

def indexPath (store : DiskStore) : String := indexPathIn store.outputDir

def statePath (store : DiskStore) : String := statePathIn store.outputDir

def plotPath (store : DiskStore) : String := plotPathIn store.outputDir

def removeFile (tree : FileTree) (path : String) : FileTree :=
  match tree.locate (Path.components path) with
  | .ok location => if tree.isFileAt location then tree.eraseAt location else tree
  | .error _ => tree

/-- Removes the files that an earlier session left in an output directory: the artifacts by their
names, and every file directly in the corpus directory. -/
def clear (tree : FileTree) (outputDir : String) : FileTree :=
  let tree := [indexPathIn outputDir, listingPathIn outputDir, statePathIn outputDir,
    plotPathIn outputDir].foldl removeFile tree
  let corpus := corpusDirIn outputDir
  (tree.names corpus).foldl (fun tree name => removeFile tree (Path.join corpus name)) tree

def openIn (tree : FileTree) (outputDir : String) (logTrials : Bool) :
    Except StorageError DiskStore × FileTree :=
  if logTrials then
    let trialDir := Path.join (Path.join outputDir "all") "success"
    match tree.makeDirectories trialDir with
    | (.error cause, tree) => (.error (.system cause), tree)
    | (.ok (), tree) => (.ok { tree, outputDir, trialDir := some trialDir }, tree)
  else (.ok { tree, outputDir, trialDir := none }, tree)

/-- Makes the directories of the store and removes the artifacts of an earlier session. The tree is
what has become of it, also on failure. -/
def prepare (tree : FileTree) (outputDir : String) (logTrials : Bool) :
    Except StorageError DiskStore × FileTree :=
  if tree.pathExists outputDir && !tree.isDirectory outputDir then
    (.error (.outputNotADirectory outputDir), tree)
  else match tree.makeDirectories (corpusDirIn outputDir) with
    | (.error cause, tree) => (.error (.corpusDirectory (corpusDirIn outputDir) cause), tree)
    | (.ok (), tree) => openIn (clear tree outputDir) outputDir logTrials

def writeFile (store : DiskStore) (path : String) (content : Bytes)
    (report : OsError → StorageError) : Except StorageError Unit × DiskStore :=
  match store.tree.write path content with
  | .ok tree => (.ok (), { store with tree })
  | .error cause => (.error (report cause), store)

def persistInput (store : DiskStore) (id : Nat) (bytes : Bytes) (entry : EntryMetadata) :
    Except StorageError String × DiskStore :=
  let path := Path.join store.corpusDir (slotName id)
  match store.writeFile path bytes (.inputFile path) with
  | (.error error, store) => (.error error, store)
  | (.ok (), store) =>
    let store := { store with index := store.index.insert id entry }
    let (result, store) := store.writeFile store.indexPath (utf8 (CorpusIndex.render store.index))
      (.indexFile store.indexPath)
    (result.map fun _ => path, store)

def listing (map : Coverage) : String := map.listing ++ s!"Hash: {hex map.digest}\n"

def writeCoverage (store : DiskStore) (map : Coverage) : Except StorageError Unit × DiskStore :=
  match store.writeFile (listingPathIn store.outputDir) (utf8 (listing map)) .system with
  | (.error error, store) => (.error error, store)
  | (.ok (), store) => store.writeFile store.statePath (CoverageState.encode map) .system

def appendPlotLine (store : DiskStore) (line : String) : Except StorageError Unit × DiskStore :=
  match store.tree.append store.plotPath (utf8 (line ++ "\n")) with
  | .ok tree => (.ok (), { store with tree })
  | .error cause => (.error (.system cause), store)

def logTrial (store : DiskStore) (trial : Nat) (bytes : Bytes) :
    Except StorageError Unit × DiskStore :=
  match store.trialDir with
  | none => (.ok (), store)
  | some trialDir =>
    store.writeFile (Path.join trialDir ("id_" ++ Decimal.padded 9 trial)) bytes .system

instance : Storage DiskStore := ⟨persistInput, writeCoverage, appendPlotLine, logTrial⟩

end DiskStore

end Greybox
