/-
# Swap areas

A swap area is a whole device, a file laid out on a device, or a file that is only reachable
through its file system.  Bringing an area up maps its pages once and for all; nothing in an area
changes afterwards.

* `Area.sector` -- where on the device a slot lies.
* `Area.position` -- where in its file a slot lies.
-/
import PageSwap.Device
import PageSwap.FlagText
import PageSwap.Layout

namespace PageSwap

/-- A swap file, by number. -/
abbrev FileId := Nat

/-- The slot bookkeeping of an area, by number. -/
abbrev SlotMapId := Nat

/-- What an area is made of. -/
inductive Backing
  /-- A whole device. -/
  | device (device : DeviceId)
  /-- A file whose blocks are mapped onto a device. -/
  | mapped (file : FileId) (device : DeviceId)
  /-- A file reached through its file system. -/
  | file (file : FileId)
  deriving DecidableEq, Inhabited

namespace Backing

/-- The device, if transfers go through one. -/
def device? : Backing → Option DeviceId
  | .device d => some d
  | .mapped _ d => some d
  | .file _ => none

/-- The file, if there is one. -/
def file? : Backing → Option FileId
  | .device _ => none
  | .mapped f _ => some f
  | .file f => some f

/-- The file, if transfers have to go through its file system. -/
def filePath? : Backing → Option FileId
  | .file f => some f
  | _ => none

end Backing

/-- Everything needed to bring an area up. -/
structure AreaSpec where
  number : UInt32
  backing : Backing
  slotMap : SlotMapId
  deriving DecidableEq, Inhabited

/-- An active swap area. -/
structure Area where
  number : UInt32
  backing : Backing
  slotMap : SlotMapId
  /-- The device finishes requests before it takes them over. -/
  synchronous : Bool := false
  table : ExtentTable
  nrExtents : Nat
  /-- Pages mapped, the header page among them. -/
  max : UInt64
  /-- Pages usable for swapping. -/
  pages : UInt64
  /-- Distance in page blocks between the lowest and the highest block used. -/
  span : UInt64
  deriving DecidableEq, Inhabited

namespace Area

/-! ## 1. Kind -/

/-- The area is a whole device. -/
def wholeDevice (a : Area) : Bool := a.backing matches .device _

/-- Transfers go through a file system. -/
def throughFile (a : Area) : Bool := a.backing matches .file _

/-- The flags of an area by name. -/
def flagNames : List (FlagName Area) :=
  [⟨"BLKDEV", 1, wholeDevice⟩, ⟨"FS", 2, throughFile⟩, ⟨"SYNCHRONOUS_IO", 4, (·.synchronous)⟩]

/-- The area as a record. -/
def record (a : Area) : String :=
  let flags := FlagName.detailed "SwapFlags" flagNames a
  s!"SwapInfo \x7b swap_type: {a.number}, flags: {flags}, nr_extents: {a.nrExtents}, " ++
    s!"pages: {a.pages}, span: {a.span}, .. \x7d"

/-! ## 2. Bringing an area up -/

/-- One extent that maps page `n` to block `n`. -/
def linear (max : UInt64) : Except Stop (ExtentTable × Dimensions) := do
  let (nrExtents, table) ← if max = 0 then pure (0, {}) else ExtentTable.add {} ⟨0, max, 0⟩
  let pages := if max = 0 then 0 else max - 1
  return (table, { nrExtents, max, pages, span := pages })

/-- What an area is brought up from: a number of pages, or a file to lay out. -/
inductive Ground
  | pages (available : UInt64)
  | blocks (map : BlockMap)

/-- The table and the dimensions of an area of at most `limit` pages. -/
def Ground.plan (limit : UInt64) : Ground → Except Stop (ExtentTable × Dimensions)
  | .pages available => linear (min available limit)
  | .blocks map => Layout.scan map limit

/-- **The area of a spec**, unless it has no page besides its header. -/
def build (spec : AreaSpec) (synchronous : Bool) (plan : ExtentTable × Dimensions) :
    Except Refusal Area :=
  if plan.2.pages = 0 then .error .emptyArea
  else .ok
    { number := spec.number, backing := spec.backing, slotMap := spec.slotMap, synchronous,
      table := plan.1, nrExtents := plan.2.nrExtents, max := plan.2.max, pages := plan.2.pages,
      span := plan.2.span }

/-! ## 3. Where a slot lies -/

/-- The offset of a page's slot, which has to be in this area. -/
def offset (a : Area) : Option Slot → Except Refusal UInt64
  | none => .error .noSlot
  | some s => if s.area = a.number then .ok s.offset else .error .foreignSlot

/-- The page sized block of a page's slot. -/
def block (a : Area) (slot : Option Slot) : Except Stop UInt64 := do
  let offset ← (a.offset slot).mapError .refused
  match ← a.table.map? offset with
  | some b => return b
  | none => throw (.refused .unmappedSlot)

/-- The first sector of a page's slot.  Bits shifted out of the word are lost. -/
def sector (a : Area) (slot : Option Slot) : Except Stop UInt64 := do
  return (← a.block slot) <<< pageSectorBits.toUInt64

/-- The byte position of a page's slot in a file.  Bits shifted out of the word are lost. -/
def position (a : Area) (slot : Option Slot) : Except Refusal UInt64 := do
  return (← a.offset slot) <<< pageBits.toUInt64

end Area

end PageSwap
