/-
# Extents

An extent is a run of swap pages that lies contiguously on disk.  Blocks are counted in page
sized units.  Ends are sums of words and may not fit one.
-/
import PageSwap.Fault

namespace PageSwap

/-- Swap pages `startPage, …, startPage + nrPages - 1` on blocks from `startBlock` on. -/
structure Extent where
  startPage : UInt64
  nrPages : UInt64
  startBlock : UInt64
  deriving DecidableEq, Inhabited

namespace Extent

/-- One past the last page. -/
def endPage (e : Extent) : Except Fault UInt64 := addWord e.startPage e.nrPages

/-- One past the last block. -/
def endBlock (e : Extent) : Except Fault UInt64 := addWord e.startBlock e.nrPages

/-- Whether page `offset` is in the run. -/
def contains (e : Extent) (offset : UInt64) : Except Fault Bool := do
  let stop ← e.endPage
  return e.startPage ≤ offset && offset < stop

/-- `e` goes on at page `start` on block `block`. -/
def continuesAt (e : Extent) (start block : UInt64) : Except Fault Bool := do
  if (← e.endPage) = start then return (← e.endBlock) = block
  else return false

end Extent

end PageSwap
