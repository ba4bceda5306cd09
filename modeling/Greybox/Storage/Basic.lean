import Greybox.Coverage
import Greybox.FileTree
import Greybox.Text.Quoted

namespace Greybox

structure EntryMetadata where
  description : String
  reasons : String
  parent : Option Nat
  size : Nat
  deriving DecidableEq

inductive StorageOperation where
  | persist
  | coverage
  | plot
  | trial
  deriving DecidableEq

def StorageOperation.name : StorageOperation → String
  | persist => "persist"
  | coverage => "coverage"
  | plot => "plot"
  | trial => "trial"

inductive StorageError where
  | outputNotADirectory (path : String)
  | corpusDirectory (path : String) (cause : OsError)
  | inputFile (path : String) (cause : OsError)
  | indexFile (path : String) (cause : OsError)
  | coverageFile (path : String) (cause : OsError)
  | noSeed (path : String)
  | system (cause : OsError)
  | refused (operation : StorageOperation)
  | truncatedCoverage (missing : Nat)
  deriving DecidableEq

namespace StorageError

open Text (quotedPath)

def detail : StorageError → String
  | outputNotADirectory path => s!"Output path {quotedPath path} exists but is not a directory"
  | corpusDirectory path cause =>
    s!"Failed to create corpus directory {quotedPath path}: {cause.message}"
  | inputFile path cause => s!"Failed to write input file {quotedPath path}: {cause.message}"
  | indexFile path cause => s!"Failed to create index file {quotedPath path}: {cause.message}"
  | coverageFile path cause => s!"Failed to read coverage state {quotedPath path}: {cause.message}"
  | noSeed path => s!"Seed path {quotedPath path} is neither a file nor a directory"
  | system cause => cause.message
  | refused operation => s!"{operation.name} refused"
  | truncatedCoverage missing =>
    s!"Bincode decoding error: UnexpectedEnd \x7b additional: {missing} \x7d"

def isMalformedCoverage : StorageError → Bool
  | truncatedCoverage _ => true
  | _ => false

def message (error : StorageError) : String :=
  (if error.isMalformedCoverage then "Coverage state serialization error: "
    else "Storage I/O error: ") ++ error.detail

end StorageError

/-- Where a session keeps its saved inputs and the record of its progress. A call may fail, and may
have changed the store nevertheless. -/
class Storage (σ : Type) where
  persistInput : σ → Nat → Bytes → EntryMetadata → Except StorageError String × σ
  writeCoverage : σ → Coverage → Except StorageError Unit × σ
  appendPlotLine : σ → String → Except StorageError Unit × σ
  logTrial : σ → Nat → Bytes → Except StorageError Unit × σ

end Greybox
