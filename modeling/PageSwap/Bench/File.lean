/-
# Swap files of a bench

* `BlockRuns` says where the blocks of a file lie, run by run.
* `ScriptedFile` is a zeroed file whose reads and writes can be made short or fail.
* `MemoryFile` is a plain file in memory.
-/
import PageSwap.Layout
import PageSwap.Storage

namespace PageSwap.Bench

/-! ## 1. Blocks -/

/-- Device blocks of the file blocks, run by run: the first device block, or none for holes, and
how many there are.  Beyond the last run there are holes. -/
abbrev BlockRuns := List (Option UInt64 × Nat)

namespace BlockRuns

/-- The number of blocks. -/
def nrBlocks : BlockRuns → Nat
  | [] => 0
  | (_, n) :: rest => n + nrBlocks rest

/-- The device block of a file block. -/
def block? : BlockRuns → Nat → Option UInt64
  | [], _ => none
  | (first, n) :: rest, i => if i < n then first.map (· + i.toUInt64) else block? rest (i - n)

/-- Bytes of all the blocks, for blocks of `2 ^ blockBits` bytes, cut to a word. -/
def bytes (blockBits : UInt32) (l : BlockRuns) : Except Fault UInt64 :=
  if l.nrBlocks ≥ UInt64.size then .error (.overflow .add)
  else if blockBits ≥ 64 then .error (.overflow .shiftLeft)
  else .ok (l.nrBlocks.toUInt64 <<< blockBits.toUInt64)

end BlockRuns

/-! ## 2. The scripted file -/

/-- A file that can be told to misbehave. -/
structure ScriptedFile where
  name : String
  /-- Only the operations without a default are there. -/
  bare : Bool := false
  blockBits : UInt32 := pageBits
  blocks : BlockRuns := []
  /-- Its size is the size of the file. -/
  content : Storage
  writeError : Option Errno := none
  /-- Most bytes a write takes. -/
  writeLimit : Option Nat := none
  /-- What a write claims to have taken. -/
  writeClaim : Option UInt64 := none
  readError : Option Errno := none
  /-- Most bytes a read gives. -/
  readLimit : Option Nat := none
  deriving Inhabited

namespace ScriptedFile

/-- How the file lies on its device. -/
def blockMap (f : ScriptedFile) : BlockMap :=
  { blockBits := f.blockBits, size := f.content.size.toUInt64
    block? := fun b => if f.bare then none else f.blocks.block? b.toNat }

/-- Bytes that a transfer of `n` bytes at `position` moves. -/
def clip (f : ScriptedFile) (position : UInt64) (n : Nat) (limit : Option Nat) : Nat :=
  let n := min (f.content.size - position.toNat) n
  match limit with
  | some l => min n l
  | none => n

/-- Read into a buffer, whose rest stays as it is. -/
def read (f : ScriptedFile) (position : UInt64) (buffer : Bytes) : Except Errno UInt64 × Bytes :=
  match f.readError with
  | some e => (.error e, buffer)
  | none =>
    let n := f.clip position buffer.size f.readLimit
    (.ok n.toUInt64, f.content.read position.toNat n ++ buffer.drop n)

/-- Write pieces one after the other. -/
def write (f : ScriptedFile) (position : UInt64) (pieces : List Bytes) :
    Except Errno UInt64 × ScriptedFile :=
  match f.writeError with
  | some e => (.error e, f)
  | none =>
    let all := pieces.foldl (· ++ ·) .empty
    let n := f.clip position all.size f.writeLimit
    let f := { f with content := f.content.write position.toNat (all.take n) }
    (.ok (f.writeClaim.getD n.toUInt64), f)

end ScriptedFile

/-! ## 3. The memory file -/

/-- A file in memory. -/
structure MemoryFile where
  blockBits : UInt32 := pageBits
  blocks : BlockRuns := []
  content : Storage
  /-- Most bytes a write takes. -/
  writeLimit : Option Nat := none
  fails : Bool := false
  /-- Pages made dirty through the file. -/
  dirtied : Nat := 0
  deriving Inhabited

namespace MemoryFile

/-- A file with these blocks. -/
def new (blockBits : UInt32) (blocks : BlockRuns) : Except Fault MemoryFile := do
  let size := (← blocks.bytes blockBits).toNat
  if size ≥ Bytes.allocLimit then throw .capacity
  return { blockBits, blocks, content := { size } }

/-- A file of all pages that fit `size` bytes, one after the other from block 0 on. -/
def ofSize (size : Nat) : Except Fault MemoryFile :=
  new pageBits [(some 0, size / pageBytes.toNat)]

/-- How the file lies on its device. -/
def blockMap (f : MemoryFile) : BlockMap :=
  { blockBits := f.blockBits, size := f.content.size.toUInt64
    block? := fun b => f.blocks.block? b.toNat }

/-- Read into a buffer, whose rest stays as it is. -/
def read (f : MemoryFile) (position : UInt64) (buffer : Bytes) : Except Errno UInt64 × Bytes :=
  if f.fails then (.error Errno.io, buffer)
  else
    let n := min (f.content.size - position.toNat) buffer.size
    (.ok n.toUInt64, f.content.read position.toNat n ++ buffer.drop n)

/-- Write pieces at `position`, together at most `limit` bytes.  It ends where the file does. -/
def writePieces (content : Storage) (position : Nat) (limit : Option Nat) (written : Nat) :
    List Bytes → Nat × Storage
  | [] => (written, content)
  | piece :: rest =>
    let room := content.size - position
    if room = 0 then (written, content)
    else
      let n := min (limit.elim piece.size (min piece.size)) room
      writePieces (content.write position (piece.take n)) (position + n)
        (limit.map (· - n)) (written + n) rest

/-- Write pieces one after the other. -/
def write (f : MemoryFile) (position : UInt64) (pieces : List Bytes) :
    Except Errno UInt64 × MemoryFile :=
  if f.fails then (.error Errno.io, f)
  else
    let (n, content) := writePieces f.content position.toNat f.writeLimit 0 pieces
    (.ok n.toUInt64, { f with content })

/-- The `n` bytes at `position`, which have to be in the file. -/
def bytesAt (f : MemoryFile) (position n : UInt64) : Except Fault Bytes := do
  let stop ← (addWord position n).mapError fun f => .collaborator f.message
  if position.toNat > f.content.size then throw (outside "start" position)
  if stop.toNat > f.content.size then throw (outside "end" stop)
  return f.content.read position.toNat n.toNat
where
  /-- One end of the range is outside the file. -/
  outside (which : String) (index : UInt64) : Fault := .collaborator
    s!"range {which} index {index} out of range for slice of length {f.content.size}"

end MemoryFile

/-! ## 4. Either of them -/

/-- A swap file of a bench. -/
inductive File
  | scripted (f : ScriptedFile)
  | memory (f : MemoryFile)
  deriving Inhabited

namespace File

/-- How the file lies on its device. -/
def blockMap : File → BlockMap
  | .scripted f => f.blockMap
  | .memory f => f.blockMap

end File

end PageSwap.Bench
