/-
# Collaborators

The swap path works with device drivers, swap files, slot maps, a front store, a sink for
statistics and an account of memory stalls.  A `Backend` says what each of them does.  All of them
remember what they like in a state of type `σ`; what they may do to the swap path is fixed by the
types:

* a driver decides **which requests are finished** and with which status (`Finish`), inside
  `submit`, inside `poll`, or while a reader relaxes;
* a driver and a file may replace the **bytes** of the page they are handed;
* a slot map, a front store and a file that is told of a dirty page may change the **page** they
  are handed.
-/
import PageSwap.Counters
import PageSwap.System

namespace PageSwap

/-- A request that is to be finished now. -/
structure Finish where
  request : RequestId
  /-- How it ends; if nothing is said, the driver's transfer decides. -/
  status : Option Status := none
  deriving Inhabited

/-- One thing that happens elsewhere while a reader relaxes: some collaborator makes a step, which
finishes some requests. -/
abbrev Turn (σ : Type) := σ → List Finish × σ

/-- How a transfer ended, and the bytes of the page after it. -/
abbrev Transferred := Status × Bytes

/-- Device drivers. -/
structure Queues (σ : Type) where
  /-- Pages that fit one request. -/
  maxPages : QueueId → σ → UInt64
  /-- Requests taken at the same time. -/
  depth : QueueId → σ → UInt64
  /-- The driver wants to know about slots that are no longer needed. -/
  wantsFreed : QueueId → σ → Bool
  /-- Requests are finished inside `submit`. -/
  synchronous : QueueId → σ → Bool
  /-- Take a request over.  The answer is a cookie to poll for it, and what is finished at once. -/
  submit : QueueId → RequestId → Request → Device → Page → σ → (UInt64 × List Finish) × σ
  /-- Look for finished requests.  The answer is whether there was one, and which. -/
  poll : QueueId → (cookie : UInt64) → (spin : Bool) → σ → (Bool × List Finish) × σ
  /-- Carry out the transfer of a request that is about to be finished. -/
  settle : QueueId → Finish → Request → Page → σ → Except Fault (Transferred × σ)
  /-- Transfer a page without a request. -/
  transfer : QueueId → (sector : UInt64) → Direction → PageId → Page → σ →
    Except Fault (Transferred × σ)
  /-- A slot is no longer needed on the device. -/
  slotFreed : QueueId → (offset : UInt64) → σ → σ

/-- Swap files. -/
structure Files (σ : Type) where
  /-- How the file lies on its device. -/
  blockMap : FileId → σ → BlockMap
  /-- Read into a buffer.  The answer is the number of bytes read, and the buffer. -/
  read : FileId → (position : UInt64) → Bytes → σ → (Except Errno UInt64 × Bytes) × σ
  /-- Write pieces one after the other.  The answer is the number of bytes written. -/
  write : FileId → (position : UInt64) → List Bytes → σ → Except Errno UInt64 × σ
  /-- A page of the file becomes dirty.  The answer is whether it was clean. -/
  dirtied : FileId → PageId → Page → σ → (Bool × Page) × σ

/-- Slot bookkeeping. -/
structure SlotMaps (σ : Type) where
  /-- References to a slot. -/
  count : SlotMapId → (offset : UInt64) → σ → UInt64 × σ
  /-- Drop the slot of a page if nothing refers to it.  The answer is whether it was dropped. -/
  tryFree : SlotMapId → PageId → Page → σ → (Bool × Page) × σ

/-- A store in front of the devices.  It works on the page itself, and what it does there may
fault. -/
structure FrontStore (σ : Type) where
  /-- Take the content of a page. -/
  store : PageId → Page → σ → Except Fault ((Bool × Page) × σ)
  /-- Fill a page. -/
  load : PageId → Page → σ → Except Fault ((Bool × Page) × σ)
  /-- Fill a page, perhaps later. -/
  loadLater : PageId → Page → σ → Except Fault ((Bool × Page) × σ)

/-- Sink for statistics. -/
structure Statistics (σ : Type) where
  record : Tally → σ → σ
  recordMany : Tally → UInt64 → σ → σ
  /-- Cycles spent in the front store. -/
  accumulate : UInt64 → σ → σ
  /-- The cycle counter. -/
  cycles : σ → UInt64 × σ

/-- Account of time spent stalled on memory. -/
structure Stalls (σ : Type) where
  /-- A stall begins.  The answer is handed back at its end. -/
  enter : σ → UInt64 × σ
  leave : UInt64 → σ → σ

/-- All collaborators. -/
structure Backend (σ : Type) where
  queues : Queues σ
  files : Files σ
  slotMaps : SlotMaps σ
  front : Option (FrontStore σ)
  statistics : Statistics σ
  stalls : Stalls σ
  /-- What happens elsewhere during one relax. -/
  relax : σ → List (Turn σ) × σ
  /-- What a caller's own ending does with its request. -/
  ending : Nat → RequestId → Run σ Unit
  /-- Steps after which a wait is given up as endless. -/
  patience : Nat

end PageSwap
