/-
# The layout of a swap file on disk

A swap file whose blocks are known can be used without its file system: the pages of the area
are the groups of file blocks that lie on disk as one aligned page.  The scan walks over the file
and takes every such group it meets; where a group is not usable it moves on by one block only,
so a page may start at any file block.

* `Layout.group` -- what the file blocks of one page are good for.
* `Layout.scan` -- all groups of a file, as an extent table with its dimensions.
-/
import PageSwap.Console
import PageSwap.Extent.Table
import PageSwap.Page

namespace PageSwap

/-- What is asked of a file to lay it out. -/
structure BlockMap where
  /-- Bits of a byte position inside a file block. -/
  blockBits : UInt32
  /-- Bytes of the file. -/
  size : UInt64
  /-- The device block of a file block, none for a hole. -/
  block? : UInt64 → Option UInt64

/-- The dimensions of a layout. -/
structure Dimensions where
  nrExtents : Nat
  /-- Pages mapped, the header page among them. -/
  max : UInt64
  /-- Pages usable for swapping. -/
  pages : UInt64
  /-- Distance in page blocks between the lowest and the highest block used, 0 if nothing but the
  header is mapped. -/
  span : UInt64
  deriving DecidableEq, Inhabited

namespace Layout

/-! ## 1. One group of blocks -/

/-- What the file blocks of one page are good for. -/
inductive Group
  /-- One of the blocks looked at is a hole. -/
  | hole
  /-- The blocks are no page on disk. -/
  | unusable
  /-- The blocks are one page on disk, starting at this device block. -/
  | usable (first : UInt64)
  deriving DecidableEq, Inhabited

/-- File blocks `file, file + 1, …` (`n` of them) lie on device blocks `device, device + 1, …`.
The first block that breaks the row decides. -/
def row (block? : UInt64 → Option UInt64) (first : UInt64) :
    (file device : UInt64) → Nat → Group
  | _, _, 0 => .usable first
  | file, device, n + 1 =>
    match block? file with
    | none => .hole
    | some b => if b = device then row block? first (file + 1) (device + 1) n else .unusable

/-- The group of `perPage` file blocks that starts at `file`.  Its first device block has to be
aligned to a page. -/
def group (block? : UInt64 → Option UInt64) (perPage file : UInt64) : Group :=
  match block? file with
  | none => .hole
  | some first =>
    if first &&& (perPage - 1) ≠ 0 then .unusable
    else row block? first (file + 1) (first + 1) (perPage.toNat - 1)

/-! ## 2. The scan -/

/-- What a scan has found so far. -/
structure Found where
  table : ExtentTable := {}
  nrExtents : Nat := 0
  /-- Pages found. -/
  pages : UInt64 := 0
  /-- Lowest block of a page besides the header. -/
  lowest : UInt64 := 0xffffffffffffffff
  /-- Highest block of a page besides the header. -/
  highest : UInt64 := 0
  deriving Inhabited

/-- One more page, on page block `block`.  The first page holds the header and does not count
for the span. -/
def Found.push (s : Found) (block : UInt64) : Except Stop Found := do
  let (lowest, highest) :=
    if s.pages = 0 then (s.lowest, s.highest) else (min s.lowest block, max s.highest block)
  let (added, table) ← s.table.add ⟨s.pages, 1, block⟩
  return { table, nrExtents := s.nrExtents + added, pages := s.pages + 1, lowest, highest }

/-- Continue a scan at file block `probe`. -/
def scanFrom (block? : UInt64 → Option UInt64) (perPage shift limit last probe : UInt64)
    (s : Found) : Except Stop Found :=
  if _h : probe.toNat + perPage.toNat < UInt64.size then
    if _hl : probe.toNat + perPage.toNat ≤ last.toNat ∧ s.pages < limit ∧ perPage ≠ 0 then
      match group block? perPage probe with
      | .hole => .error (.refused .hole)
      | .unusable => scanFrom block? perPage shift limit last (probe + 1) s
      | .usable first =>
        match s.push (first >>> shift) with
        | .error e => .error e
        | .ok s => scanFrom block? perPage shift limit last (probe + perPage) s
    else .ok s
  else .error (.fault (.overflow .add))
termination_by last.toNat - probe.toNat
decreasing_by
  all_goals
    have hp : 0 < perPage.toNat := by
      rcases Nat.eq_zero_or_pos perPage.toNat with h0 | h0
      · exact absurd (UInt64.toNat_inj.mp h0) _hl.2.2
      · exact h0
    have h64 : UInt64.size = 2 ^ 64 := rfl
    simp only [UInt64.toNat_add, UInt64.reduceToNat]
    omega

/-- The distance between the lowest and the highest block, none if there is no block. -/
def Found.span (s : Found) : Except Fault UInt64 := do
  if s.lowest = 0xffffffffffffffff then return 0
  else return (← addWord 1 s.highest) - s.lowest

/-- The dimensions of what a finished scan found.  The header page counts even if it is not
there. -/
def Found.dimensions (s : Found) : Except Fault Dimensions := do
  let span ← s.span
  let max := max s.pages 1
  return { nrExtents := s.nrExtents, max, pages := max - 1, span }

/-- Blocks of a page, for blocks of `2 ^ blockBits` bytes. -/
def blocksPerPage (blockBits : UInt32) : UInt64 := 1 <<< (pageBits - blockBits).toUInt64

/-- **The layout of a file**, looking at no more than `limit` pages. -/
def scan (f : BlockMap) (limit : UInt64) : Except Stop (ExtentTable × Dimensions) := do
  if f.blockBits > pageBits then throw (.fault .blockSize)
  let perPage := blocksPerPage f.blockBits
  let last := f.size >>> f.blockBits.toUInt64
  let found ← scanFrom f.block? perPage (pageBits - f.blockBits).toUInt64 limit last 0 {}
  return (found.table, ← found.dimensions)

/-- The line that reports a layout. -/
def line (d : Dimensions) : String :=
  s!"swapon: {d.nrExtents} extents, {d.pages} pages, span {d.span}"

/-- What the console is told of a scan. -/
def remark : Except Refusal (ExtentTable × Dimensions) → Option (Level × String)
  | .ok (_, d) => some (.trace, line d)
  | .error .hole => some (.error, "swapon: swapfile has holes")
  | .error _ => none

/-- The scan looks at a block at all. -/
def probes (f : BlockMap) (limit : UInt64) : Bool :=
  f.blockBits ≤ pageBits && blocksPerPage f.blockBits ≤ f.size >>> f.blockBits.toUInt64 && 0 < limit

end Layout

end PageSwap
