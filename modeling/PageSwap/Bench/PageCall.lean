/-
# Calls on a page

Everything a caller can ask of a page, or do to it, one call at a time.
-/
import PageSwap.Page

namespace PageSwap.Bench

/-- What a call on a page answers. -/
inductive PageAnswer
  | done
  | nothing
  | flag (b : Bool)
  | number (n : Nat)
  | text (s : String)
  | bytes (b : Bytes)
  /-- Order, base pages, bytes, and whether the page is huge. -/
  | dimensions (order : UInt32) (nrPages size : UInt64) (huge : Bool)
  deriving Inhabited

/-- A call on a page. -/
inductive PageCall
  | tryLock
  | isLocked
  | unlock
  | isUptodate
  | setUptodate
  | setReadError
  | hasError
  | setError
  | clearError
  | isDirty
  | setDirty
  | clearDirty
  | isReclaim
  | setReclaim
  | clearReclaim
  | isWriting
  | startWrite
  | endWrite
  | startRead
  | endRead
  | isHuge
  /-- Give the page a slot. -/
  | add (area : UInt32) (offset : UInt64)
  | addWord (word : UInt64)
  | delete
  /-- The word of the slot. -/
  | entry
  | size
  /-- The flags as a number. -/
  | bits
  | record
  | fill (b : UInt8)
  | poke (position : UInt64) (b : UInt8)
  | data
  deriving DecidableEq, Inhabited

namespace PageCall

/-- The page with one byte changed, which has to be in the page. -/
def setByte (p : Page) (position : UInt64) (b : UInt8) : Except Fault Page :=
  if position.toNat < p.bytes.size then
    .ok { p with bytes := p.bytes.overlay position.toNat (Bytes.fill 1 b) }
  else .error (.collaborator
    s!"index out of bounds: the len is {p.bytes.size} but the index is {position}")

/-- Make a call. -/
def run (p : Page) : PageCall → Except Fault (PageAnswer × Page)
  | .tryLock => let (taken, p) := p.tryLock; .ok (.flag taken, p)
  | .isLocked => .ok (.flag p.flags.locked, p)
  | .unlock => return (.done, ← p.unlock)
  | .isUptodate => .ok (.flag p.flags.uptodate, p)
  | .setUptodate => .ok (.done, p.setUptodate)
  | .setReadError => .ok (.done, p.setReadError)
  | .hasError => .ok (.flag p.flags.error, p)
  | .setError => .ok (.done, p.setError true)
  | .clearError => .ok (.done, p.setError false)
  | .isDirty => .ok (.flag p.flags.dirty, p)
  | .setDirty => .ok (.flag !p.flags.dirty, p.setDirty)
  | .clearDirty => .ok (.flag p.flags.dirty, p.clearDirty)
  | .isReclaim => .ok (.flag p.flags.reclaim, p)
  | .setReclaim => .ok (.done, p.setReclaim true)
  | .clearReclaim => .ok (.done, p.setReclaim false)
  | .isWriting => .ok (.flag (p.transfer = .writing), p)
  | .startWrite => return (.done, ← p.startWrite)
  | .endWrite => return (.done, ← p.endWrite)
  | .startRead => return (.done, ← p.startRead)
  | .endRead => return (.done, ← p.endRead)
  | .isHuge => .ok (.flag p.isHuge, p)
  | .add area offset => return (.done, p.setSlot (← Slot.new area offset))
  | .addWord word => .ok (.done, p.setSlot ⟨word⟩)
  | .delete => .ok (.done, p.dropSlot)
  | .entry => .ok (match p.slot with
      | some s => .number s.word.toNat
      | none => .nothing, p)
  | .size => .ok (.dimensions p.order p.nrPages p.size p.isHuge, p)
  | .bits => .ok (.number (FlagName.bits Page.flagNames p).toNat, p)
  | .record => .ok (.text p.record, p)
  | .fill b => .ok (.done, { p with bytes := Bytes.fill p.bytes.size b })
  | .poke position b => return (.done, ← setByte p position b)
  | .data => .ok (.bytes p.bytes, p)

/-- Make a call.  The answer comes with the line of the page. -/
def step (c : PageCall) (p : Page) : Except Fault ((PageAnswer × String) × Page) := do
  let (answer, p) ← c.run p
  return ((answer, p.line), p)

end PageCall

end PageSwap.Bench
