import AetherKernel.Lib.Coalesce
import AetherKernel.Lib.IntervalList
import AetherKernel.Lib.Search
import AetherKernel.Mm.Mapper
import AetherKernel.Process.Image

/-!
# Virtual memory areas

The list of areas of an address space and the functions that edit it.  The list
is kept in the order of the starts by a binary search; nothing checks that areas
do not overlap.
-/

namespace AetherKernel.Process

open Lib Mm Word

inductive UserVmaKind where
  | program
  | heap
  | stack
  | anonymous
  | pagedImage (source : ProgramImageSource) (imageOffset imageLen : Nat)
  | elfSegmentImage (source : ProgramImageSource)
      (segmentStart imageOffset imageLen order : Nat)
  | shared
  | device

namespace UserVmaKind

/-- The kind of the part that starts `delta` bytes later. -/
def adjusted (kind : UserVmaKind) (delta : Nat) : UserVmaKind :=
  match kind with
  | .pagedImage source imageOffset imageLen =>
    .pagedImage source (saturatingAdd imageOffset delta) (imageLen - delta)
  | other => other

/-- Areas of images are never merged. -/
def canMergeWith : UserVmaKind → UserVmaKind → Bool
  | .program, .program => true
  | .heap, .heap => true
  | .stack, .stack => true
  | .anonymous, .anonymous => true
  | .shared, .shared => true
  | .device, .device => true
  | _, _ => false

def isHeap : UserVmaKind → Bool
  | .heap => true
  | _ => false

end UserVmaKind

/-- An area of the addresses from `start` up to `stop`. -/
structure UserVma where
  start : Nat
  stop : Nat
  flags : MapFlags
  kind : UserVmaKind
  lazy : Bool

namespace UserVma

instance : Span UserVma where
  lo := start
  hi := stop

def slice (vma : UserVma) (start stop : Nat) : UserVma where
  start := start
  stop := stop
  flags := vma.flags
  kind := vma.kind.adjusted (start - vma.start)
  lazy := vma.lazy

def lazyOrder (vma : UserVma) : Nat :=
  match vma.kind with
  | .elfSegmentImage _ _ _ _ order => order
  | _ => 0

/-- `vmas_mergeable`. -/
def mergeable (lhs rhs : UserVma) : Bool :=
  lhs.stop == rhs.start && lhs.flags == rhs.flags && lhs.lazy == rhs.lazy &&
    lhs.kind.canMergeWith rhs.kind

/-- The area that takes over the next one. -/
def merged (lhs rhs : UserVma) : UserVma :=
  { lhs with stop := rhs.stop }

instance : Mergeable UserVma where
  fits := mergeable
  join := merged

end UserVma

namespace Vmas

variable (vmas : List UserVma)

/-- `record_vma`: a match of the search is the place of insertion too. -/
def record (vma : UserVma) : List UserVma :=
  let index := placeOf (binarySearchByKey vma.start UserVma.start vmas)
  mergeNeighborsAround (vmas.insertIdx index vma) index

/-- What `update_vma_flags` makes of one area. -/
def flagPieces (start stop : Nat) (flags : MapFlags) (vma : UserVma) : List UserVma :=
  if vma.stop ≤ start ∨ stop ≤ vma.start then [vma]
  else
    (if vma.start < start then [vma.slice vma.start start] else []) ++
      { vma.slice (max vma.start start) (min vma.stop stop) with flags := flags } ::
        (if stop < vma.stop then [vma.slice stop vma.stop] else [])

def updateFlags (start stop : Nat) (flags : MapFlags) : List UserVma :=
  coalesce (vmas.flatMap (flagPieces start stop flags))

/-- What `remove_vma_range` leaves of one area. -/
def remainingPieces (start stop : Nat) (vma : UserVma) : List UserVma :=
  if stop ≤ vma.start ∨ vma.stop ≤ start then [vma]
  else
    (if vma.start < start then [vma.slice vma.start start] else []) ++
      (if stop < vma.stop then [vma.slice stop vma.stop] else [])

def removeRange (start stop : Nat) : List UserVma :=
  coalesce (vmas.flatMap (remainingPieces start stop))

/-- `update_heap_vma_end` changes the first area of the heap. -/
def updateHeapEnd : List UserVma → Nat → List UserVma
  | [], _ => []
  | vma :: rest, stop =>
    if vma.kind.isHeap then { vma with stop := stop } :: rest
    else vma :: updateHeapEnd rest stop

/-- `vma_range_overlaps`. -/
def rangeOverlaps (start stop : Nat) : Bool :=
  vmas.any fun vma => decide (vma.start < stop) && decide (start < vma.stop)

/-- `is_range_free`. -/
def isRangeFree (addr len : Nat) : Bool :=
  if len = 0 ∨ isAligned addr pageSize = false then false
  else
    match checkedAdd addr (alignUp len pageSize) with
    | none => false
    | some stop => !rangeOverlaps vmas addr stop

/-- The place below the end of a gap, if there is one at or above the bound. -/
def placeBelow (lowerBound gapEnd alignedLen : Nat) : Option Nat :=
  ((checkedSub gapEnd alignedLen).map fun candidate => alignDown candidate pageSize)
    |>.filter fun candidate => lowerBound ≤ candidate

/-- The loop of `find_top_down_gap` over the areas from the last to the first.  A
place is taken inside the loop only when it ends before the start of the area
that is looked at. -/
def gapLoop (lowerBound upperBound alignedLen : Nat) : Nat → List UserVma → Option Nat
  | gapEnd, [] => placeBelow lowerBound gapEnd alignedLen
  | gapEnd, vma :: rest =>
    if upperBound ≤ vma.start then gapLoop lowerBound upperBound alignedLen gapEnd rest
    else if vma.stop ≤ lowerBound then placeBelow lowerBound gapEnd alignedLen
    else
      match (placeBelow lowerBound gapEnd alignedLen).filter
          fun candidate => saturatingAdd candidate alignedLen ≤ vma.start with
      | some base => some base
      | none =>
        let gapEnd := alignDown vma.start pageSize
        if gapEnd ≤ lowerBound then none
        else gapLoop lowerBound upperBound alignedLen gapEnd rest

def findTopDownGap (lowerBound upperBound len : Nat) : Option Nat :=
  let alignedLen := alignUp len pageSize
  if upperBound < lowerBound ∨ upperBound - lowerBound < alignedLen then none
  else gapLoop lowerBound upperBound alignedLen upperBound vmas.reverse

/-- `lazy_vma_window`: the areas that start before the end of the page, back to
the first one that ends before the page. -/
def lazyWindowStart (vmas : List UserVma) (pageBase : Nat) : Nat → Nat
  | 0 => 0
  | index + 1 =>
    match vmas[index]? with
    | some vma => if pageBase < vma.stop then lazyWindowStart vmas pageBase index else index + 1
    | none => index + 1

def lazyWindow (pageBase pageEnd : Nat) : Option (List UserVma) :=
  let endIndex := partitionPoint (fun vma : UserVma => vma.start < pageEnd) vmas
  let startIndex := lazyWindowStart vmas pageBase endIndex
  if startIndex = endIndex then none
  else some ((vmas.drop startIndex).take (endIndex - startIndex))

end Vmas

end AetherKernel.Process
