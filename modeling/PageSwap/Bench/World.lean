/-
# The collaborators of a bench

The state of all collaborators of a bench (`World`), and what they do (`backend`).  Scripted
collaborators note every call as an event; those that only have the operations without a default
note only those.
-/
import PageSwap.Bench.Bookkeeping
import PageSwap.Bench.Disk
import PageSwap.Bench.File
import PageSwap.Wait

namespace PageSwap.Bench

/-- What happens during the `at_`th relax of a synchronous read: requests of a queue are
finished. -/
structure RelaxHook where
  at_ : Nat
  queue : QueueId
  /-- The request at this position, or all of them. -/
  position : Option Nat := none
  status : Option Status := none
  deriving Inhabited

/-- What the things of a bench are called.  Of two things of one name, the first is meant. -/
structure Names where
  queues : List (String × QueueId) := []
  devices : List (String × DeviceId) := []
  files : List (String × FileId) := []
  slotMaps : List (String × SlotMapId) := []
  pages : List (String × PageId) := []
  areas : List (String × Area) := []
  deriving Inhabited

/-- The state of the collaborators. -/
structure World where
  queues : Table Queue := {}
  files : Table File := {}
  slotMaps : Table SlotCounts := {}
  front : Option Front := none
  counters : Counters := {}
  clock : CycleClock := {}
  /-- Only the operation without a default is there. -/
  bareStatistics : Bool := false
  stalls : StallMeter := {}
  /-- Names of the pages. -/
  pageNames : Table String := {}
  /-- Events since they were last collected, newest first. -/
  events : List Event := []
  /-- Relaxes of the current read. -/
  relaxes : Nat := 0
  hooks : List RelaxHook := []
  /-- Requests an ending kept, oldest first. -/
  held : List RequestId := []
  names : Names := {}
  deriving Inhabited

namespace World

/-! ## 1. Small steps -/

/-- Note an event. -/
def note (e : Event) (w : World) : World := { w with events := e :: w.events }

/-- Collect the events; the list starts anew. -/
def takeEvents (w : World) : List String × World :=
  (w.events.reverse.map Event.text, { w with events := [] })

/-- A page as a collaborator sees it. -/
def sight (w : World) (p : PageId) (page : Page) : Sight :=
  { name := w.pageNames.get p, line := page.line }

def setQueue (i : QueueId) (q : Queue) (w : World) : World :=
  { w with queues := w.queues.set i q }

def setScripted (i : QueueId) (q : ScriptedQueue) (w : World) : World := w.setQueue i (.scripted q)

def setRam (i : QueueId) (q : RamDisk) (w : World) : World := w.setQueue i (.ram q)

def setFile (i : FileId) (f : File) (w : World) : World := { w with files := w.files.set i f }

/-- Requests as things to finish. -/
def finishes (status : Option Status) (rs : List RequestId) : List Finish :=
  rs.map fun request => { request, status }

/-- Take requests out of a queue, to finish them.  A memory disk gives up all. -/
def takePending (i : QueueId) (position : Option Nat) (status : Option Status) (w : World) :
    List Finish × World :=
  match w.queues.get i with
  | .scripted q =>
    let (taken, q) := q.takePending position
    (finishes status taken, w.setScripted i q)
  | .ram q =>
    let (taken, q) := q.takePending
    (finishes none taken, w.setRam i q)

/-! ## 2. Queues -/

/-- Drivers of a bench. -/
def driver : Queues World where
  maxPages i w := match w.queues.get i with
    | .scripted q => q.maxPages
    | .ram q => q.maxPages
  depth i w := match w.queues.get i with
    | .scripted q => if q.plain then Device.defaultDepth else q.depth
    | .ram q => q.depth
  wantsFreed i w := match w.queues.get i with
    | .scripted q => !q.plain && q.wantsFreed
    | .ram q => q.wantsFreed
  synchronous i w := match w.queues.get i with
    | .scripted q => !q.plain && q.synchronous
    | .ram _ => false
  submit i r request device page w := match w.queues.get i with
    | .scripted q =>
      let w := w.note (.submit q.name request page.size device (w.sight request.page page))
      let (answer, q) := q.submit r request.direction
      (answer, w.setScripted i q)
    | .ram q =>
      let (answer, q) := q.submit r request page.size
      (answer, w.setRam i q)
  poll i cookie spin w := match w.queues.get i with
    | .scripted q =>
      if q.plain then ((false, []), w)
      else
        let ((action, hit, taken), next) := q.poll
        let w := match action with
          | some a => w.note (.poll q.name cookie spin a)
          | none => w
        ((hit, finishes none taken), w.setScripted i next)
    | .ram q =>
      let ((hit, taken), q) := q.poll
      ((hit, finishes none taken), w.setRam i q)
  settle i f request page w := match w.queues.get i with
    | .scripted q =>
      let (result, q) := q.settle f request page.bytes
      .ok (result, w.setScripted i q)
    | .ram q => (q.settle f request page.bytes).map fun (result, q) => (result, w.setRam i q)
  transfer i sector direction p page w := match w.queues.get i with
    | .scripted q =>
      if q.plain then .ok ((.error Errno.unsupported, page.bytes), w)
      else
        let w := w.note (.transfer q.name direction sector (w.sight p page))
        let (result, q) := q.transfer sector direction page.bytes
        .ok (result, w.setScripted i q)
    | .ram q => (q.transfer sector direction page.bytes).map fun (result, q) =>
        (result, w.setRam i q)
  slotFreed i offset w := match w.queues.get i with
    | .scripted q =>
      if q.plain then w
      else (w.note (.slotFreed q.name offset)).setScripted i { q with freed := q.freed ++ [offset] }
    | .ram q => w.setRam i { q with freed := q.freed ++ [offset] }

/-! ## 3. Files, slot maps, front store, statistics, stalls -/

/-- Swap files of a bench. -/
def fileSystem : Files World where
  blockMap i w := (w.files.get i).blockMap
  read i position buffer w := match w.files.get i with
    | .scripted f => (f.read position buffer, w.note (.readFile f.name position buffer.size))
    | .memory f => (f.read position buffer, w)
  write i position pieces w := match w.files.get i with
    | .scripted f =>
      let w := w.note (.writeFile f.name position (pieces.map (·.size)))
      let (answer, f) := f.write position pieces
      (answer, w.setFile i (.scripted f))
    | .memory f =>
      let (answer, f) := f.write position pieces
      (answer, w.setFile i (.memory f))
  dirtied i p page w :=
    let answer := (!page.flags.dirty, page.setDirty)
    match w.files.get i with
    | .scripted f =>
      if f.bare then (answer, w) else (answer, w.note (.dirtied f.name (w.sight p page)))
    | .memory f => (answer, w.setFile i (.memory { f with dirtied := f.dirtied + 1 }))

/-- Slot maps of a bench. -/
def slotCounts : SlotMaps World where
  count i offset w :=
    let m := w.slotMaps.get i
    (m.count offset, match m.name with
      | some name => w.note (.count name offset)
      | none => w)
  tryFree i p page w :=
    let m := w.slotMaps.get i
    (m.tryFree page, match m.name with
      | some name => if m.bare then w else w.note (.tryFree name (w.sight p page))
      | none => w)

/-- Let the front store act on a page; `event` is noted if it is scripted. -/
def callFront (event : Sight → Event) (f : Page → Front → Except Fault ((Bool × Page) × Front))
    (p : PageId) (page : Page) (w : World) : Except Fault ((Bool × Page) × World) :=
  match w.front with
  | none => .ok ((false, page), w)
  | some front =>
    let w := if front matches .scripted .. then w.note (event (w.sight p page)) else w
    (f page front).map fun (answer, front) => (answer, { w with front := some front })

/-- The front store of a bench. -/
def frontStore : FrontStore World where
  store := callFront .frontStore Front.store
  load := callFront (.frontLoad false) (Front.load false)
  loadLater p page w :=
    let later := match w.front with
      | some (.scripted bare ..) => !bare
      | _ => true
    callFront (.frontLoad later) (Front.load later) p page w

/-- Count an event. -/
def count (t : Tally) (n : UInt64) (w : World) : World :=
  ({ w with counters := w.counters.add t n }).note (.statistic t n)

/-- Statistics of a bench. -/
def statistics : Statistics World where
  record t w := w.count t 1
  recordMany t n w := w.count t n
  accumulate n w :=
    if w.bareStatistics then w
    else ({ w with counters := w.counters.addLatency n }).note (.latency n)
  cycles w :=
    if w.bareStatistics then (0, w)
    else
      let (now, clock) := w.clock.read
      (now, ({ w with clock }).note (.cycles now))

/-- The account of stalls of a bench. -/
def stallAccount : Stalls World where
  enter w :=
    let (state, stalls) := w.stalls.enter
    let w := { w with stalls }
    (state, if stalls.rule = .numbered then w.note (.stallEnter state) else w)
  leave state w :=
    let w := { w with stalls := w.stalls.leave }
    if w.stalls.rule = .numbered then w.note (.stallLeave state) else w

/-! ## 4. Relaxing and endings -/

/-- A hook that is due. -/
def turn (hook : RelaxHook) : Turn World := fun w =>
  (w.note .relax).takePending hook.queue hook.position hook.status

/-- The hooks of this relax, in order. -/
def relax (w : World) : List (Turn World) × World :=
  let n := w.relaxes + 1
  ((w.hooks.filter (·.at_ = n)).map turn, { w with relaxes := n })

end World

/-- What becomes of a request whose ending is the caller's own. -/
inductive OwnEnding
  /-- Reclaim wants the page; then as for a write. -/
  | reclaim
  /-- The request is kept. -/
  | hold
  /-- The write ends; nothing is said of its outcome. -/
  | bare
  /-- The request is dropped. -/
  | lose
  deriving DecidableEq, Inhabited

namespace OwnEnding

/-- The number of an ending. -/
def tag : OwnEnding → Nat
  | .reclaim => 0
  | .hold => 1
  | .bare => 2
  | .lose => 3

/-- Run an ending. -/
def run (e : OwnEnding) (r : RequestId) (request : Request) : Run World Unit :=
  match e with
  | .reclaim => do
    Run.editPage request.page (·.setReclaim true)
    endWrite r request
  | .hold => Run.world fun w => ((), { w.note (.held request) with held := w.held ++ [r] })
  | .bare => do
    Run.tryPage request.page Page.endWrite
    Run.dropRequest r request
  | .lose => Run.dropRequest r request

/-- The ending with a number. -/
def ofTag : Nat → OwnEnding
  | 0 => .reclaim
  | 1 => .hold
  | 2 => .bare
  | _ => .lose

end OwnEnding

/-- **The collaborators of a bench.** -/
def backend (hasFront : Bool) (patience : Nat) : Backend World where
  queues := World.driver
  files := World.fileSystem
  slotMaps := World.slotCounts
  front := if hasFront then some World.frontStore else none
  statistics := World.statistics
  stalls := World.stallAccount
  relax := World.relax
  ending tag r := do
    match ← Run.request? r with
    | none => pure ()
    | some request => (OwnEnding.ofTag tag).run r request
  patience

end PageSwap.Bench
