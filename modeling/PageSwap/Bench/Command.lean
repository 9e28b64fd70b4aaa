/-
# Commands of a bench

What can be done on a bench, and what it answers: collaborators are made and told how to behave,
pages are made and changed, and the swap path is called.  Things are named; a name stands for the
thing that got it last.
-/
import PageSwap.Bench.PageCall
import PageSwap.Bench.Trial
import PageSwap.Bench.World
import PageSwap.PageIn

namespace PageSwap.Bench

/-! ## 1. Settings -/

/-- One setting of a scripted queue. -/
inductive QueueSetting
  | depth (n : UInt64)
  | maxPages (n : UInt64)
  | deferred (on : Bool)
  | direct (on : Bool)
  | directError (e : Option Errno)
  | readError (e : Option Errno)
  | writeError (e : Option Errno)
  | wantsFreed (on : Bool)
  | synchronous (on : Bool)
  | idle (n : UInt64)
  | script (actions : List PollAction)
  deriving Inhabited

/-- Change one setting. -/
def QueueSetting.apply (q : ScriptedQueue) : QueueSetting → ScriptedQueue
  | .depth n => { q with depth := n }
  | .maxPages n => { q with maxPages := n }
  | .deferred on => { q with deferred := on }
  | .direct on => { q with direct := on }
  | .directError e => { q with directError := e }
  | .readError e => { q with readError := e }
  | .writeError e => { q with writeError := e }
  | .wantsFreed on => { q with wantsFreed := on }
  | .synchronous on => { q with synchronous := on }
  | .idle n => { q with idle := n }
  | .script actions => { q with script := actions }

/-- One setting of a scripted file. -/
inductive FileSetting
  | writeError (e : Option Errno)
  | writeLimit (n : Option Nat)
  | writeClaim (n : Option UInt64)
  | readError (e : Option Errno)
  | readLimit (n : Option Nat)
  deriving Inhabited

/-- Change one setting. -/
def FileSetting.apply (f : ScriptedFile) : FileSetting → ScriptedFile
  | .writeError e => { f with writeError := e }
  | .writeLimit n => { f with writeLimit := n }
  | .writeClaim n => { f with writeClaim := n }
  | .readError e => { f with readError := e }
  | .readLimit n => { f with readLimit := n }

/-- How a scripted file is made. -/
structure FileSpec where
  blockBits : UInt32 := pageBits
  blocks : BlockRuns := []
  /-- Bytes of the file; all its blocks if nothing is said. -/
  size : Option UInt64 := none
  bare : Bool := false
  deriving Inhabited

/-- The file. -/
def FileSpec.make (s : FileSpec) (name : String) : Except Fault ScriptedFile := do
  let size ← match s.size with
    | some n => pure n
    | none => s.blocks.bytes s.blockBits
  return {
    name, bare := s.bare, blockBits := s.blockBits, blocks := s.blocks
    content := { size := size.toNat } }

/-- An area to bring up. -/
structure AreaOrder where
  number : UInt32
  limit : UInt64 := 0xffffffffffffffff
  slotMap : Option String := none
  device : Option String := none
  file : Option String := none
  /-- Name to keep the area under. -/
  keep : Option String := none
  deriving Inhabited

/-- A page to make. -/
structure PageOrder where
  order : UInt32 := 0
  slot : Option (UInt32 × UInt64) := none
  fill : Option UInt8 := none
  lock : Bool := false
  dirty : Bool := false
  deriving Inhabited

/-- An ending a caller can ask for. -/
inductive EndingChoice
  | write
  | read
  | own (e : OwnEnding)
  deriving Inhabited

/-- What is done with a request that an ending kept. -/
inductive HeldFate
  | write
  | read
  | complete (status : Status)
  | drop
  deriving Inhabited

/-- What happens during a relax of a read. -/
structure HookOrder where
  at_ : Nat
  queue : String
  position : Option Nat := none
  status : Option Status := none
  deriving Inhabited

/-- A call on a device. -/
inductive DeviceCall
  | info
  | poll (cookie : UInt64) (spin : Bool)
  | transfer (sector : UInt64) (page : String) (direction : Direction)
  | slotFreed (offset : UInt64)
  deriving Inhabited

/-- How a plain memory file is made. -/
inductive MemoryFileSpec
  | ofSize (size : Nat)
  | ofBlocks (blockBits : UInt32) (blocks : BlockRuns)
  deriving Inhabited

/-- A plain collaborator, without events. -/
inductive PlainThing
  | disk (pages : UInt64) (rule : CompletionRule)
  | file (spec : MemoryFileSpec)
  | slotMap
  /-- A whole area on a memory disk, kept under its name. -/
  | area (number : UInt32) (queue : String) (slotMap : Option String)
  deriving Inhabited

/-- A call on a plain memory disk. -/
inductive DiskCall
  | setDepth (n : UInt64)
  | setMaxPages (n : UInt64)
  | failReads (on : Bool)
  | failWrites (on : Bool)
  | enableDirect
  | enableFreed
  | completeAll
  | statistics
  deriving Inhabited

/-- A call on a plain memory file. -/
inductive MemoryFileCall
  | limitWrites (n : Nat)
  | fail (on : Bool)
  | bytesAt (position n : UInt64)
  | dirtied
  | write (position : UInt64) (pieces : List (UInt8 × Nat))
  | read (position : UInt64) (n : Nat) (b : UInt8)
  deriving Inhabited

/-- A call on a slot map. -/
inductive SlotMapCall
  | set (offset count : UInt64)
  | count (offset : UInt64)
  | tryFree (page : String)
  deriving Inhabited

/-! ## 2. Commands and answers -/

/-- One command. -/
inductive Command
  | queue (name : String) (pages : UInt64) (plain : Bool) (settings : List QueueSetting)
  | setQueue (name : String) (settings : List QueueSetting)
  | device (name : String) (major minor : UInt32) (sectors : UInt64) (queue : String)
  | file (name : String) (spec : FileSpec)
  | setFile (name : String) (settings : List FileSetting)
  | slotMap (name : String) (bare : Bool)
  | setCount (slotMap : String) (offset count : UInt64)
  | front (settings : FrontSettings)
  | swapOn (order : AreaOrder) (race : Option AreaOrder)
  | activate (order : AreaOrder)
  | swapOff (number : UInt32)
  | swapArea (number : UInt32)
  | area (name : String)
  | slotCount (area : String) (offset : UInt64)
  | places (area : String) (page : String)
  | newPage (name : String) (order : PageOrder)
  | page (name : String) (call : PageCall)
  | pageOut (page : String) (w : Writeback)
  | pageOutPast (page : String) (w : Writeback) (ending : EndingChoice)
  | pageIn (page : String) (pace : Pace) (hooks : List HookOrder)
  | makeDirty (page : String)
  | areaOf (page : String)
  | complete (queue : String) (position : Option Nat) (status : Option Status)
  | held (fate : HeldFate)
  | queueStatistics (queue : String)
  | diskPage (queue : String) (page : Nat) (fill : Option UInt8)
  | filePage (file : String) (page : Nat) (fill : Option UInt8)
  | deviceCall (device : String) (call : DeviceCall)
  | tick (n : UInt64)
  | setClock (n : UInt64)
  | level (l : Level)
  | plain (name : String) (thing : PlainThing)
  | diskCall (queue : String) (call : DiskCall)
  | fileCall (file : String) (call : MemoryFileCall)
  | mapCall (slotMap : String) (call : SlotMapCall)
  | frontCounts
  | stallCounts
  deriving Inhabited

/-- What a command answers. -/
inductive Reply
  | page (answer : PageAnswer)
  | refused (e : Errno)
  | area (a : Area)
  /-- How a read ended, and its relaxes. -/
  | read (status : Status) (relaxes : Nat)
  /-- Block, sector and file position of a slot. -/
  | places (block sector position : Except Errno UInt64)
  | device (d : Device) (maxPages : UInt64) (wantsFreed synchronous : Bool) (depth : UInt64)
  | queue (q : ScriptedQueue)
  | disk (q : RamDisk)
  | numbers (l : List Nat)
  /-- Bytes read, and the buffer. -/
  | buffer (n : UInt64) (b : Bytes)
  deriving Inhabited

namespace Reply

def done : Reply := .page .done

def nothing : Reply := .page .nothing

def flag (b : Bool) : Reply := .page (.flag b)

def number (n : Nat) : Reply := .page (.number n)

def text (s : String) : Reply := .page (.text s)

def bytes (b : Bytes) : Reply := .page (.bytes b)

/-- A status as an answer. -/
def status : Status → Reply
  | .ok () => done
  | .error e => .refused e

/-- An answer or a refusal. -/
def orRefused {α : Type} (f : α → Reply) : Except Refusal α → Reply
  | .ok a => f a
  | .error why => .refused why.errno

end Reply

end PageSwap.Bench
