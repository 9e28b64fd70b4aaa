/-
# The extent table

The map from swap pages to device blocks, as a list of extents sorted by page.  A run of pages
is added as a whole or refused as a whole; a run that continues the extent before it, on disk as
well as in swap, is merged into that extent.

* `add` -- map a run of pages.
* `find?`, `map?` -- the extent and the block of a page, by halving the table.
-/
import PageSwap.Extent

namespace PageSwap

/-- Swap pages and the blocks that hold them. -/
structure ExtentTable where
  extents : List Extent := []
  deriving DecidableEq, Inhabited

namespace ExtentTable

/-! ## 1. Size -/

/-- Number of extents. -/
def length (t : ExtentTable) : Nat := t.extents.length

/-- Number of pages mapped. -/
def nrPages (t : ExtentTable) : Except Fault UInt64 :=
  t.extents.foldlM (fun sum e => addWord sum e.nrPages) 0

/-- Every extent ends before the next one starts. -/
def sorted : List Extent → Except Fault Bool
  | e :: next :: rest => do
    if (← e.endPage) ≤ next.startPage then sorted (next :: rest) else return false
  | _ => return true

/-- The table of `extents`, which have to be in order. -/
def ofList (extents : List Extent) : Except Fault ExtentTable := do
  if ← sorted extents then return ⟨extents⟩ else throw .unsorted

/-! ## 2. Adding a run -/

/-- The run `new` ends before the extent that follows it starts. -/
def fitsBefore (new : Extent) : Option Extent → Except Fault Bool
  | none => return true
  | some next => return (← new.endPage) ≤ next.startPage

/-- The extent before page `start` ends there or earlier. -/
def fitsAfter (start : UInt64) : Option Extent → Except Fault Bool
  | none => return true
  | some prev => return (← prev.endPage) ≤ start

/-- Map a run of pages.  The number is that of the extents it adds, 0 or 1.  The run goes behind the
extents that start before it; they are the first ones of the table, so this is the place that
halving the table by the starts finds (`Ordered.partitionPoint_start`). -/
def add (t : ExtentTable) (new : Extent) : Except Stop (Nat × ExtentTable) := do
  if new.nrPages = 0 then throw (.refused .emptyRun)
  let before := t.extents.takeWhile (·.startPage < new.startPage)
  let after := t.extents.dropWhile (·.startPage < new.startPage)
  unless ← fitsBefore new after.head? do throw (.refused .overlap)
  unless ← fitsAfter new.startPage before.getLast? do throw (.refused .overlap)
  match before.getLast? with
  | some prev =>
    if ← prev.continuesAt new.startPage new.startBlock then
      let longer := { prev with nrPages := ← addWord prev.nrPages new.nrPages }
      return (0, ← ofList (before.dropLast ++ longer :: after))
    else return (1, ← ofList (before ++ new :: after))
  | none => return (1, ← ofList (before ++ new :: after))

/-! ## 3. Looking a page up -/

/-- The number of leading elements that pass `test`, which a prefix does.  Of `size` elements
from `base` on, the middle one decides which half is kept; the last one left decides the rest. -/
def partitionPoint (test : Extent → Except Fault Bool) (xs : Array Extent) (base size : Nat) :
    Except Fault Nat := do
  if _h : 1 < size then
    let mid := base + size / 2
    let passes ← match xs[mid]? with
      | some e => test e
      | none => .ok false
    partitionPoint test xs (if passes then mid else base) (size - size / 2)
  else
    match xs[base]? with
    | some e => return if ← test e then base + 1 else base
    | none => return base
termination_by size

/-- The extent that holds page `offset`. -/
def find? (t : ExtentTable) (offset : UInt64) : Except Fault (Option Extent) := do
  let xs := t.extents.toArray
  let i ← partitionPoint (fun e => return (← e.endPage) ≤ offset) xs 0 xs.size
  match xs[i]? with
  | some e => return if ← e.contains offset then some e else none
  | none => return none

/-- The block that holds page `offset`. -/
def map? (t : ExtentTable) (offset : UInt64) : Except Fault (Option UInt64) := do
  match ← t.find? offset with
  | some e => return some (← addWord e.startBlock (offset - e.startPage))
  | none => return none

end ExtentTable

end PageSwap
