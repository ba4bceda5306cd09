import Greybox.Digest
import Greybox.PointSet

namespace Greybox

/-- The class of a hit count: its highest power of two, and zero for zero. -/
def bucket (count : UInt8) : UInt8 :=
  if count = 0 then 0 else .ofNat (1 <<< count.toNat.log2)

/-- The hit counters of the points `0, 1, …`, either of one run or of a union of runs. A union keeps
for every point the set of classes that its hit counts fell into, one bit for each class. -/
structure Coverage where
  counters : Array UInt8
  deriving DecidableEq

namespace Coverage

def defaultSize : Nat := 4096

def zero (size : Nat) : Coverage := ⟨.replicate size 0⟩

instance : Inhabited Coverage := ⟨zero defaultSize⟩

def size (map : Coverage) : Nat := map.counters.size

def isEmpty (map : Coverage) : Bool := map.counters.isEmpty

def get (map : Coverage) (point : Nat) : UInt8 := map.counters.getD point 0

def recordHit (map : Coverage) (point : Nat) : Coverage :=
  ⟨map.counters.modify point fun count => if count = 255 then 255 else count + 1⟩

/-- One turn of the merging loop. A point that the run does not hit is passed over, and the flag
goes up where the run's class is new. -/
def mergeCounter : Array UInt8 × Bool → UInt8 × UInt8 → Array UInt8 × Bool
  | (merged, changed), (seen, count) =>
    if count = 0 then (merged.push seen, changed)
    else
      let after := seen ||| bucket count
      if after = seen then (merged.push seen, changed) else (merged.push after, true)

/-- Adds the class of every counter of `run` to the classes seen so far, and tells whether this
changed the map. Points beyond the end of either map are left alone. -/
def merge (map run : Coverage) : Coverage × Bool :=
  let pairs := map.counters.toList.zip run.counters.toList
  let (merged, changed) := pairs.foldl mergeCounter (#[], false)
  (⟨merged ++ map.counters.extract run.size map.size⟩, changed)

def wouldChange (map run : Coverage) : Bool :=
  (map.counters.toList.zip run.counters.toList).any fun (seen, count) =>
    count != 0 && seen ||| bucket count != seen

def newPoints (map baseline : Coverage) : PointSet :=
  .below map.size fun point => map.get point != 0 && baseline.get point == 0

def nonZeroCount (map : Coverage) : Nat := map.counters.countP (· != 0)

def percent (map : Coverage) : Float :=
  if map.isEmpty then 0
  else map.nonZeroCount.toUInt64.toFloat * 100 / map.size.toUInt64.toFloat

def nonZeroEntries (map : Coverage) : List (Nat × UInt8) :=
  map.counters.toList.zipIdx.filterMap fun (count, point) =>
    if count = 0 then none else some (point, count)

def listing (map : Coverage) : String :=
  map.nonZeroEntries.foldl
    (fun text (point, count) => text ++ s!"{point}->{count.toNat}\n") "Coverage counts:\n"

def summary (map : Coverage) : String :=
  s!"CoverageMap \x7b len: {map.size}, non_zero: {map.nonZeroCount} \x7d"

def digest (map : Coverage) : Array UInt8 := md5 map.counters

end Coverage

end Greybox
