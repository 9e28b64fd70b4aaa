/-
# Disks of a bench

Two request queues with a disk in memory behind them.

* `ScriptedQueue` follows a script: it finishes requests at once or keeps them, answers polls as
  it is told to, and fails as it is told to.
* `RamDisk` is a plain memory disk that finishes requests by one of four rules.

Both only decide; the requests themselves are finished by the swap path.
-/
import PageSwap.Backend
import PageSwap.Bench.Event
import PageSwap.Storage

namespace PageSwap.Bench

/-! ## 1. Moving the bytes of a page -/

/-- Bytes of one sector. -/
def sectorBytes : Nat := 1 <<< sectorBits.toNat

/-- Move the bytes of `page` to or from `position` of a disk.  The place has to be on the disk. -/
def moveBytes (disk : Storage) (position : Nat) (direction : Direction) (bytes : Bytes) :
    Transferred × Storage :=
  if position + bytes.size > disk.size then ((.error Errno.io, bytes), disk)
  else
    match direction with
    | .read => ((.ok (), disk.read position bytes.size), disk)
    | .write => ((.ok (), bytes), disk.write position bytes)

/-! ## 2. The scripted queue -/

/-- A queue that follows a script. -/
structure ScriptedQueue where
  name : String
  /-- Only the operations without a default are there. -/
  plain : Bool := false
  disk : Storage
  depth : UInt64 := Device.defaultDepth
  maxPages : UInt64 := 1024
  /-- Requests are kept instead of finished at once. -/
  deferred : Bool := false
  /-- Pages are transferred without a request. -/
  direct : Bool := false
  /-- Failures of direct transfers, of reads and of writes. -/
  directError : Option Errno := none
  readError : Option Errno := none
  writeError : Option Errno := none
  wantsFreed : Bool := false
  synchronous : Bool := false
  /-- Polls that find nothing, before the script starts. -/
  idle : UInt64 := 0
  /-- Answers of the next polls; everything is finished when it is used up. -/
  script : List PollAction := []
  /-- Requests kept, oldest first. -/
  pending : List RequestId := []
  cookies : UInt64 := 0
  reads : Nat := 0
  writes : Nat := 0
  directs : Nat := 0
  polls : Nat := 0
  completions : Nat := 0
  freed : List UInt64 := []
  deriving Inhabited

namespace ScriptedQueue

/-- The failure set for a direction. -/
def failure (q : ScriptedQueue) : Direction → Option Errno
  | .read => q.readError
  | .write => q.writeError

/-- Transfer the bytes of a page, if the queue does not fail. -/
def move (q : ScriptedQueue) (sector : UInt64) (direction : Direction) (bytes : Bytes) :
    Transferred × ScriptedQueue :=
  match q.failure direction with
  | some e => ((.error e, bytes), q)
  | none =>
    let (result, disk) := moveBytes q.disk (sector.toNat * sectorBytes) direction bytes
    (result, { q with disk })

/-- Take a request over. -/
def submit (q : ScriptedQueue) (r : RequestId) (direction : Direction) :
    (UInt64 × List Finish) × ScriptedQueue :=
  let q := match direction with
    | .read => { q with reads := q.reads + 1 }
    | .write => { q with writes := q.writes + 1 }
  let cookie := q.cookies
  let q := { q with cookies := cookie + 1 }
  if q.deferred then ((cookie, []), { q with pending := q.pending ++ [r] })
  else ((cookie, [{ request := r }]), q)

/-- Take requests out of the queue: the one at a position, or all of them. -/
def takePending (q : ScriptedQueue) : Option Nat → List RequestId × ScriptedQueue
  | some n => ((q.pending[n]?).toList, { q with pending := q.pending.eraseIdx n })
  | none => (q.pending, { q with pending := [] })

/-- The next answer of the script. -/
def nextAction (q : ScriptedQueue) : PollAction × ScriptedQueue :=
  match q.script with
  | [] => (.all, q)
  | a :: script => (a, { q with script })

/-- What an action takes out of the queue, and what it reports. -/
def act (q : ScriptedQueue) : PollAction → (Bool × List RequestId) × ScriptedQueue
  | .miss => ((false, []), q)
  | .pretend => ((true, []), q)
  | .one =>
    let (taken, q) := q.takePending (some 0)
    ((!taken.isEmpty, taken), q)
  | .all =>
    let (taken, q) := q.takePending none
    ((!taken.isEmpty, taken), q)
  | .silent =>
    let (taken, q) := q.takePending none
    ((false, taken), q)

/-- A poll.  While the queue idles there is no action. -/
def poll (q : ScriptedQueue) : (Option PollAction × Bool × List RequestId) × ScriptedQueue :=
  let q := { q with polls := q.polls + 1 }
  if 0 < q.idle then ((none, false, []), { q with idle := q.idle - 1 })
  else
    let (action, q) := q.nextAction
    let ((hit, taken), q) := q.act action
    ((some action, hit, taken), q)

/-- A transfer without a request. -/
def transfer (q : ScriptedQueue) (sector : UInt64) (direction : Direction) (bytes : Bytes) :
    Transferred × ScriptedQueue :=
  if !q.direct then ((.error Errno.unsupported, bytes), q)
  else
    match q.directError with
    | some e => ((.error e, bytes), q)
    | none =>
      match q.move sector direction bytes with
      | ((.ok (), bytes), q) => ((.ok (), bytes), { q with directs := q.directs + 1 })
      | failed => failed

/-- A request is about to be finished. -/
def settle (q : ScriptedQueue) (f : Finish) (r : Request) (bytes : Bytes) :
    Transferred × ScriptedQueue :=
  let (result, q) := match f.status with
    | some status => ((status, bytes), q)
    | none => q.move r.sector r.direction bytes
  (result, { q with completions := q.completions + 1 })

end ScriptedQueue

/-! ## 3. The memory disk -/

/-- When a memory disk finishes its requests. -/
inductive CompletionRule
  /-- At once. -/
  | immediate
  /-- When told to. -/
  | deferred
  /-- When told to, and when polled. -/
  | polled
  /-- When told to, and when polled this often. -/
  | polledAfter (polls : UInt64)
  deriving DecidableEq, Inhabited

/-- A memory disk. -/
structure RamDisk where
  pages : UInt64
  rule : CompletionRule
  disk : Storage
  pending : List RequestId := []
  depth : UInt64 := Device.defaultDepth
  maxPages : UInt64 := 1024
  cookies : UInt64 := 0
  failReads : Bool := false
  failWrites : Bool := false
  direct : Bool := false
  wantsFreed : Bool := false
  reads : Nat := 0
  writes : Nat := 0
  directs : Nat := 0
  polls : Nat := 0
  completions : Nat := 0
  lastFlags : Option RequestFlags := none
  lastSize : Option UInt64 := none
  freed : List UInt64 := []
  deriving Inhabited

namespace RamDisk

/-- A disk of `pages` zeroed pages. -/
def new (pages : UInt64) (rule : CompletionRule) : Except Fault RamDisk :=
  let size := pages.toNat * pageBytes.toNat
  if size ≥ UInt64.size then .error (.overflow .multiply)
  else if size ≥ Bytes.allocLimit then .error .capacity
  else .ok { pages, rule, disk := { size } }

/-- Transfer the bytes of a page.  The end of the place has to fit a word. -/
def move (q : RamDisk) (sector : UInt64) (direction : Direction) (bytes : Bytes) :
    Except Fault (Transferred × RamDisk) :=
  let fails := match direction with
    | .read => q.failReads
    | .write => q.failWrites
  if fails then .ok ((.error Errno.io, bytes), q)
  else
    let start := sector <<< sectorBits.toUInt64
    match addWord start bytes.size.toUInt64 with
    | .error f => .error (.collaborator f.message)
    | .ok _ =>
      let (result, disk) := moveBytes q.disk start.toNat direction bytes
      .ok (result, { q with disk })

/-- Take all requests out of the disk. -/
def takePending (q : RamDisk) : List RequestId × RamDisk := (q.pending, { q with pending := [] })

/-- Take a request over. -/
def submit (q : RamDisk) (r : RequestId) (request : Request) (size : UInt64) :
    (UInt64 × List Finish) × RamDisk :=
  let q := match request.direction with
    | .read => { q with reads := q.reads + 1 }
    | .write => { q with writes := q.writes + 1 }
  let cookie := q.cookies
  let q := { q with lastFlags := some request.flags, lastSize := some size, cookies := cookie + 1 }
  match q.rule with
  | .immediate => ((cookie, [{ request := r }]), q)
  | _ => ((cookie, []), { q with pending := q.pending ++ [r] })

/-- A poll. -/
def poll (q : RamDisk) : (Bool × List RequestId) × RamDisk :=
  let q := { q with polls := q.polls + 1 }
  let finishes := match q.rule with
    | .polled => true
    | .polledAfter n => n.toNat ≤ q.polls
    | _ => false
  if finishes then
    let (taken, q) := q.takePending
    ((!taken.isEmpty, taken), q)
  else ((false, []), q)

/-- A transfer without a request. -/
def transfer (q : RamDisk) (sector : UInt64) (direction : Direction) (bytes : Bytes) :
    Except Fault (Transferred × RamDisk) :=
  if !q.direct then .ok ((.error Errno.unsupported, bytes), q)
  else
    match q.move sector direction bytes with
    | .ok ((.ok (), bytes), q) => .ok ((.ok (), bytes), { q with directs := q.directs + 1 })
    | other => other

/-- A request is about to be finished. -/
def settle (q : RamDisk) (f : Finish) (r : Request) (bytes : Bytes) :
    Except Fault (Transferred × RamDisk) := do
  let (result, q) ← match f.status with
    | some status => .ok ((status, bytes), q)
    | none => q.move r.sector r.direction bytes
  return (result, { q with completions := q.completions + 1 })

end RamDisk

/-! ## 4. Either of them -/

/-- A request queue of a bench. -/
inductive Queue
  | scripted (q : ScriptedQueue)
  | ram (q : RamDisk)
  deriving Inhabited

namespace Queue

/-- Requests kept by the queue. -/
def pending : Queue → List RequestId
  | .scripted q => q.pending
  | .ram q => q.pending

/-- A bound on the polls that may find nothing while a request is kept. -/
def slowness : Queue → Nat
  | .scripted q => q.idle.toNat + q.script.length
  | .ram q => match q.rule with
    | .polledAfter n => n.toNat
    | _ => 0

end Queue

end PageSwap.Bench
