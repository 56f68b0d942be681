import MediaHarvest.Text.Bytes
import MediaHarvest.SortedMap

/-!
# Partitions of a store

A partition maps byte strings to byte strings and is read in ascending order of its keys.  Keys
that share their front are found together.
-/

namespace MediaHarvest

/-- A partition of a store. -/
abbrev Partition := SortedMap Bytes Bytes

namespace Partition

/-- The values whose keys start with `front`, in ascending order of the keys. -/
def under (partition : Partition) (front : Bytes) : List Bytes :=
  (partition.entries.filter fun entry => front.isPrefixOf entry.1).map Prod.snd

/-- The eight bytes of a number, the highest first, so that the order of the bytes is that of the
numbers. -/
def wordKey (n : UInt64) : Bytes :=
  [56, 48, 40, 32, 24, 16, 8, 0].map fun shift => UInt8.ofNat (n.toNat / Nat.pow 2 shift)

/-- The number of eight bytes. -/
def wordOfKey? (bytes : Bytes) : Option UInt64 :=
  if bytes.length = 8 then
    some (UInt64.ofNat (bytes.foldl (fun n byte => 256 * n + byte.toNat) 0))
  else none

end Partition

end MediaHarvest
