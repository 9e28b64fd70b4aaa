/-
# Pages

A page is the unit that swapping moves: its bytes, its flags, the slot it has in swap, and the
transfer attached to it.  All changes of a page are the functions of this module; those that a
caller can get wrong (`unlock`, `startRead`, `endRead`, `startWrite`, `endWrite`) fault.

* `setUptodate`, `setReadError` -- keep valid content and an error from showing at once.
* `unlock_eq_ok_iff`, `move_eq_ok_iff` -- when unlocking and moving between transfer states fault.
-/
import PageSwap.Bytes
import PageSwap.FlagText
import PageSwap.Slot

namespace PageSwap

/-! ## 1. Sizes -/

/-- Bits of a byte position inside a base page. -/
def pageBits : UInt32 := 12

/-- Bytes of a base page. -/
def pageBytes : UInt64 := 1 <<< pageBits.toUInt64

/-- Bits of a byte position inside a sector.  Sectors always have 512 bytes. -/
def sectorBits : UInt32 := 9

/-- Bits of a sector number inside a base page. -/
def pageSectorBits : UInt32 := pageBits - sectorBits

/-! ## 2. The page -/

/-- A page of `2 ^ order` base pages. -/
structure Page where
  flags : Flags := {}
  transfer : Transfer := .idle
  order : UInt32 := 0
  /-- Where the page lives in swap, if it does. -/
  slot : Option Slot := none
  bytes : Bytes := .empty
  deriving Inhabited

namespace Page

/-- A zeroed page.  The size in bytes is cut to a word. -/
def alloc (order : UInt32) : Except Fault Page :=
  if order ≥ 64 then .error (.overflow .shiftLeft)
  else
    let size := pageBytes <<< order.toUInt64
    if size.toNat ≥ Bytes.allocLimit then .error .capacity
    else .ok { order, bytes := Bytes.fill size.toNat 0 }

/-- Base pages in the page. -/
def nrPages (p : Page) : UInt64 := 1 <<< p.order.toUInt64

/-- More than one base page. -/
def isHuge (p : Page) : Bool := p.order != 0

/-- Bytes in the page. -/
def size (p : Page) : UInt64 := p.bytes.size.toUInt64

/-- The summary of the page. -/
def condition (p : Page) : Condition := Condition.of p.flags p.transfer

/-! ## 3. Flags -/

/-- Take the lock.  The answer is whether it was free. -/
def tryLock (p : Page) : Bool × Page :=
  (!p.flags.locked, { p with flags.locked := true })

/-- Give the lock up. -/
def unlock (p : Page) : Except Fault Page :=
  if p.flags.locked then .ok { p with flags.locked := false } else .error .notLocked

/-- The content is valid.  An error left by an earlier attempt goes. -/
def setUptodate (p : Page) : Page :=
  { p with flags.uptodate := true, flags.error := false }

/-- A read failed: errored and not valid. -/
def setReadError (p : Page) : Page :=
  { p with flags.error := true, flags.uptodate := false }

/-- Set or clear the error flag alone. -/
def setError (p : Page) (on : Bool) : Page := { p with flags.error := on }

/-- The content has to be written back. -/
def setDirty (p : Page) : Page := { p with flags.dirty := true }

/-- The content need not be written back. -/
def clearDirty (p : Page) : Page := { p with flags.dirty := false }

/-- Reclaim wants the page, or gives it up. -/
def setReclaim (p : Page) (on : Bool) : Page := { p with flags.reclaim := on }

/-! ## 4. Slot and transfer -/

/-- Give the page a slot. -/
def setSlot (p : Page) (s : Slot) : Page := { p with slot := some s }

/-- Take the page's slot away. -/
def dropSlot (p : Page) : Page := { p with slot := none }

/-- Move the page from one transfer state to another. -/
def move (source target : Transfer) (p : Page) : Except Fault Page :=
  if p.transfer = source then .ok { p with transfer := target }
  else .error (.transfer source p.transfer target)

/-- A write begins. -/
def startWrite : Page → Except Fault Page := move .idle .writing

/-- A write ends. -/
def endWrite : Page → Except Fault Page := move .writing .idle

/-- A read begins. -/
def startRead : Page → Except Fault Page := move .idle .reading

/-- A read ends. -/
def endRead : Page → Except Fault Page := move .reading .idle

/-- Unlocking wants a locked page. -/
theorem unlock_eq_ok_iff {p q : Page} :
    p.unlock = .ok q ↔ p.flags.locked = true ∧ q = { p with flags.locked := false } := by
  unfold unlock
  split
  · rename_i h
    simp [h, eq_comm]
  · rename_i h
    simp [h]

/-- A transfer state is only left from where it is. -/
theorem move_eq_ok_iff {source target : Transfer} {p q : Page} :
    p.move source target = .ok q ↔ p.transfer = source ∧ q = { p with transfer := target } := by
  unfold move
  split
  · rename_i h
    simp [h, eq_comm]
  · rename_i h
    simp [h]

/-! ## 5. Text -/

/-- The flags of a page by name; having a slot shows as a flag of its own. -/
def flagNames : List (FlagName Page) :=
  [⟨"LOCKED", 1, (·.flags.locked)⟩, ⟨"UPTODATE", 2, (·.flags.uptodate)⟩,
    ⟨"ERROR", 4, (·.flags.error)⟩, ⟨"DIRTY", 8, (·.flags.dirty)⟩,
    ⟨"RECLAIM", 16, (·.flags.reclaim)⟩, ⟨"SWAPCACHE", 32, (·.slot.isSome)⟩]

/-- The page in one line: flags, transfer, condition and slot. -/
def line (p : Page) : String :=
  let flags := FlagName.compact flagNames p
  let slot := match p.slot with
    | some s => s!"{s.area}:{s.offset}"
    | none => "-"
  " ".intercalate [flags, p.transfer.name, p.condition.name, slot]

/-- The page as a record. -/
def record (p : Page) : String :=
  let flags := FlagName.detailed "PageFlag" flagNames p
  let slot := match p.slot with
    | some s => s!"Some(SwapEntry({s.word}))"
    | none => "None"
  s!"Page \x7b flags: {flags}, io: {p.transfer.name}, order: {p.order}, entry: {slot} \x7d"

end Page

end PageSwap
