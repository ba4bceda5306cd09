namespace Greybox.Toml

/-- How a table was defined, which decides what may still be added to it. -/
inductive TableKind where
  | header
  | implied
  | dotted
  | inline
  deriving DecidableEq

inductive Value where
  | string (text : String)
  | integer (value : Int)
  | float (value : Float)
  | boolean (value : Bool)
  | datetime (text : String)
  | array (items : List Value)
  | table (kind : TableKind) (entries : List (String × Value))
  | tables (items : List (List (String × Value)))

abbrev Entries := List (String × Value)

namespace Entries

def set (entries : Entries) (key : String) (value : Value) : Entries :=
  if (entries.lookup key).isSome then
    entries.map fun entry => if entry.1 = key then (key, value) else entry
  else entries ++ [(key, value)]

/-- Defines a key, which must be new. The tables on a dotted path to it are made as needed; those
that exist must have been made by dotted keys too, but for ancestors of headers on the way. -/
def define (entries : Entries) (key : String) (value : Value) :
    (path : List String) → Option Entries
  | [] => if (entries.lookup key).isSome then none else some (entries ++ [(key, value)])
  | part :: path =>
    match entries.lookup part with
    | none => (define [] key value path).map fun inner => entries.set part (.table .dotted inner)
    | some (.table .dotted inner) =>
      (define inner key value path).map fun inner => entries.set part (.table .dotted inner)
    | some (.table .implied inner) =>
      if path.isEmpty then none
      else (define inner key value path).map fun inner => entries.set part (.table .implied inner)
    | some _ => none

def within (entries : Entries) (change : Entries → Option Entries) :
    (path : List String) → Option Entries
  | [] => change entries
  | part :: path =>
    match entries.lookup part with
    | none => (within [] change path).map fun inner => entries.set part (.table .implied inner)
    | some (.table .inline _) => none
    | some (.table kind inner) =>
      (within inner change path).map fun inner => entries.set part (.table kind inner)
    | some (.tables items) =>
      match items.getLast? with
      | none => none
      | some last =>
        (within last change path).map fun inner =>
          entries.set part (.tables (items.dropLast ++ [inner]))
    | some _ => none

def openTable (entries : Entries) (key : String) : Option Entries :=
  match entries.lookup key with
  | none => some (entries ++ [(key, .table .header [])])
  | some (.table .implied inner) => some (entries.set key (.table .header inner))
  | some _ => none

def appendTable (entries : Entries) (key : String) : Option Entries :=
  match entries.lookup key with
  | none => some (entries ++ [(key, .tables [[]])])
  | some (.tables items) => some (entries.set key (.tables (items ++ [[]])))
  | some _ => none

end Entries

end Greybox.Toml
