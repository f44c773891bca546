import SumTree.Entry
import SumTree.Failure

/-!
# Partition into chunks

A run cuts its entries into contiguous chunks whose sizes differ by at most one, the larger chunks
first. There are as many chunks as executors were asked for, but no more than entries, so that no
chunk is empty.

## Main Definitions

* `Partition.bounds` — where the chunks of a sequence start and end.
* `Partition.checkEntries` — the common number of columns of a run's entries.
* `Partition.chunkCount` — the number of chunks.
* `Partition.chunks` — the chunks.
* `Partition.warning?` — what is said when fewer chunks are made than asked for.
* `Count`, `Partition.chunksFor` — a number of executors as a caller gives it, and the chunks for it.
-/

namespace SumTree

/-- A number of executors as a caller gives it. -/
inductive Count
  | int (n : Int)
  /-- A value of another type, which cannot be compared with an integer. -/
  | other (type : String)
  deriving Repr, DecidableEq, Inhabited

namespace Count

/-- The failure to compare a value of some type with an integer. -/
def incomparable (type : String) : Failure :=
  .elsewhere "TypeError" ("'<' not supported between instances of '" ++ type ++ "' and 'int'")

/-- Whether a number of executors is refused by a failure that is no error of a run: it is below one
and too long to be written, or it is no integer. -/
def isUnreported : Count → Bool
  | int n => n < 1 && !Decimal.fits n
  | other _ => true

end Count

namespace Partition

/-- Where chunk `index` of `count` chunks over `total` items starts. The first chunks get the items
that are left over from an even division. -/
def start (total : Int) (count : Int) (index : Nat) : Int :=
  index * total.fdiv count + min (index : Int) (total.fmod count)

/-- Where `count` chunks over `total` items start and end; nothing when the count is zero, and no
chunks when it is below. -/
def bounds (total count : Int) : Option (List (Int × Int)) :=
  if count == 0 then none
  else some ((List.range count.toNat).map fun i =>
    (start total count i, start total count (i + 1)))

/-- Nothing is cut into no chunks. -/
@[simp] theorem bounds_zero (total : Int) : bounds total 0 = none := rfl

/-- The first chunk starts where the items do. -/
@[simp] theorem start_zero {total count : Int} (h : 0 < count) :
    start total count 0 = 0 := by
  have := Int.fmod_nonneg_of_pos total h
  simp only [start]
  omega

/-- The common number of columns of a run's entries. -/
def checkEntries : List Entry → Except EntryFault Nat
  | [] => .error .emptySet
  | first :: rest =>
    match misfit first.width 1 rest with
    | some fault => .error fault
    | none => .ok first.width
where
  /-- The first entry of another width, with its position counted from `position`. -/
  misfit (width position : Nat) : List Entry → Option EntryFault
    | [] => none
    | e :: rest =>
      if e.width == width then misfit width (position + 1) rest
      else some (.width position e.username e.width width)

/-- The number of chunks for a number of executors. -/
def chunkCount (entries : List Entry) (executors : Int) : Nat :=
  min executors.toNat entries.length

/-- The items from one position up to another. -/
def slice {α : Type} (items : List α) (bound : Int × Int) : List α :=
  (items.take bound.2.toNat).drop bound.1.toNat

/-- The chunks of a run's entries for a number of executors. A number of executors that is below one
and too long to be written is refused as unusable. -/
def chunks (entries : List Entry) (executors : Int) : Except Failure (List (List Entry)) :=
  if executors < 1 then
    if Decimal.fits executors then .error (.run (.entries (.executorCount executors)))
    else .error (.value .tooLongToWrite)
  else
    match checkEntries entries with
    | .error fault => .error (.run (.entries fault))
    | .ok _ =>
      let count := chunkCount entries executors
      .ok (((bounds entries.length count).getD []).map (slice entries))

/-- What is said when there are fewer entries than executors asked for. -/
def warning? (entries : List Entry) (executors : Int) : Option String :=
  if executors > entries.length then
    some ("Requested " ++ Decimal.render executors ++ " executors for "
      ++ toString entries.length ++ " entries, using " ++ toString entries.length)
  else none

/-- The chunks of a run's entries for a number of executors as a caller gives it. -/
def chunksFor (entries : List Entry) : Count → Except Failure (List (List Entry))
  | .int executors => chunks entries executors
  | .other type => .error (Count.incomparable type)

end Partition

end SumTree
