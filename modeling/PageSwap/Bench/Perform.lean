/-
# Performing commands

* `execute` -- one command.
* `Bench.step` -- one command and the report after it.
* `Bench.start` -- a bench with nothing on it.
-/
import PageSwap.Bench.Command

namespace PageSwap.Bench

/-! ## 1. Names -/

/-- What a name stands for. -/
def lookup {α : Type} (names : Names → List (String × α)) (name : String) : Run World α := do
  match (names (← get).world.names).lookup name with
  | some a => return a
  | none => throw (unknownName name)

/-- Change the collaborators. -/
def editWorld (f : World → World) : Run World Unit := Run.world fun w => ((), f w)

/-- Name a thing. -/
def nameThing (f : Names → Names) : Run World Unit :=
  editWorld fun w => { w with names := f w.names }

/-- The scripted queue of a name. -/
def editScripted (name : String) (f : ScriptedQueue → ScriptedQueue) : Run World Unit := do
  let i ← lookup Names.queues name
  match (← get).world.queues.get i with
  | .scripted q => editWorld (World.setScripted i (f q))
  | .ram _ => throw (unknownName name)

/-- The collaborators as they are now, for waits of at most `hooks` and the polls of the queues. -/
def backendNow : Run World (Backend World) := do
  let w := (← get).world
  let slowness := w.queues.entries.foldl (fun n q => n + q.slowness) 0
  let last := w.hooks.foldl (fun n h => max n h.at_) 0
  return backend w.front.isSome (8 * (last + Reader.sleepRounds * (slowness + 32)))

/-! ## 2. Collaborators -/

/-- Make a queue. -/
def addQueue (name : String) (q : Queue) : Run World Unit := do
  let i := (← get).world.queues.fresh
  editWorld (World.setQueue i q)
  nameThing fun n => { n with queues := (name, i) :: n.queues }

/-- Make a file. -/
def addFile (name : String) (f : File) : Run World Unit := do
  let i := (← get).world.files.fresh
  editWorld (World.setFile i f)
  nameThing fun n => { n with files := (name, i) :: n.files }

/-- Make a slot map. -/
def addSlotMap (m : SlotCounts) : Run World SlotMapId := do
  let i := (← get).world.slotMaps.fresh
  editWorld fun w => { w with slotMaps := w.slotMaps.set i m }
  return i

/-- Make a slot map with a name. -/
def addNamedSlotMap (name : String) (m : SlotCounts) : Run World Unit := do
  let i ← addSlotMap m
  nameThing fun n => { n with slotMaps := (name, i) :: n.slotMaps }

/-- Make a device, whose depth is that of its queue now. -/
def addDevice (number : UInt32) (sectors : UInt64) (queue : QueueId) : Run World DeviceId := do
  let s ← get
  let depth := World.driver.depth queue s.world
  let d := s.devices.fresh
  Run.setDevice d { number, sectors, queue, depth := depth.toNat }
  return d

/-! ## 3. Areas -/

/-- The spec of an area. -/
def AreaOrder.spec (o : AreaOrder) : Run World AreaSpec := do
  let slotMap ← match o.slotMap with
    | some name => lookup Names.slotMaps name
    | none => pure 0
  let backing ← match o.device, o.file with
    | some d, some f => pure (Backing.mapped (← lookup Names.files f) (← lookup Names.devices d))
    | some d, none => pure (Backing.device (← lookup Names.devices d))
    | none, some f => pure (Backing.file (← lookup Names.files f))
    | none, none => throw (unknownName "-")
  return { number := o.number, backing, slotMap }

/-- Keep an area under a name. -/
def keepArea (name : Option String) (a : Area) : Run World Unit :=
  match name with
  | some name => nameThing fun n => { n with areas := (name, a) :: n.areas }
  | none => pure ()

/-- Answer with an area and keep it. -/
def replyArea (keep : Option String) : Except Refusal Area → Run World Reply
  | .ok a => do
    keepArea keep a
    return .area a
  | .error why => return .refused why.errno

/-- The layout of this area asks its file for a block. -/
def asksForBlocks (spec : AreaSpec) (limit : UInt64) (w : World) : Bool :=
  match spec.backing with
  | .mapped f _ =>
    match w.files.get f with
    | .scripted file => !file.bare && Layout.probes file.blockMap limit
    | .memory _ => false
  | _ => false

/-- Bring another area up in the middle of bringing one up. -/
def raceWith (b : Backend World) (o : AreaOrder) : Run World Unit := do
  let outcome ← swapOn b (← o.spec) 0xffffffffffffffff
  editWorld (World.note (.race ((outcome.map (·.pages)).mapError Refusal.errno)))

/-- Bring an area up, perhaps with a race. -/
def runSwapOn (b : Backend World) (o : AreaOrder) (race : Option AreaOrder) : Run World Reply := do
  let spec ← o.spec
  let meanwhile := match race with
    | none => pure ()
    | some other => do
      if asksForBlocks spec o.limit (← get).world then raceWith b other
  replyArea o.keep (← swapOn b spec o.limit meanwhile)

/-! ## 4. Pages -/

/-- Make a page. -/
def addPage (name : String) (o : PageOrder) : Run World Unit := do
  let page ← Run.check (Page.alloc o.order)
  let page ← match o.slot with
    | some (area, offset) => pure (page.setSlot (← Run.check (Slot.new area offset)))
    | none => pure page
  let page := match o.fill with
    | some b => { page with bytes := Bytes.fill page.bytes.size b }
    | none => page
  let page := if o.lock then page.tryLock.2 else page
  let page := if o.dirty then page.setDirty else page
  let p := (← get).pages.fresh
  Run.editPage p fun _ => page
  editWorld fun w => { w with pageNames := w.pageNames.set p name }
  nameThing fun n => { n with pages := (name, p) :: n.pages }

/-- Make a call on a page. -/
def callPage (p : PageId) (call : PageCall) : Run World Reply := do
  let (answer, page) ← Run.check (call.run (← Run.page p))
  Run.editPage p fun _ => page
  return .page answer

/-- The ending a caller asks for. -/
def EndingChoice.ending : EndingChoice → Ending
  | .write => .write
  | .read => .read
  | .own e => .custom e.tag

/-- Read a page, with things happening while the reader relaxes. -/
def runPageIn (name : String) (pace : Pace) (hooks : List HookOrder) : Run World Reply := do
  let p ← lookup Names.pages name
  let hooks ← hooks.mapM fun h => do
    let queue ← lookup Names.queues h.queue
    return ({ at_ := h.at_, queue, position := h.position, status := h.status } : RelaxHook)
  editWorld fun w => { w with relaxes := 0, hooks }
  let status ← pageIn (← backendNow) p pace
  let relaxes := (← get).world.relaxes
  editWorld fun w => { w with relaxes := 0, hooks := [] }
  return if pace = .background then .status status else .read status relaxes

/-! ## 5. Requests -/

/-- Finish requests of a queue. -/
def runComplete (b : Backend World) (queue : String) (position : Option Nat)
    (status : Option Status) : Run World Reply := do
  let i ← lookup Names.queues queue
  let fs ← Run.world (World.takePending i position status)
  finishAll b fs
  return .number fs.length

/-- Deal with the oldest request that an ending kept. -/
def runHeld (b : Backend World) (fate : HeldFate) : Run World Reply := do
  match (← get).world.held with
  | [] => return .nothing
  | r :: rest =>
    editWorld fun w => { w with held := rest }
    match ← Run.request? r with
    | none => return .nothing
    | some request =>
      match fate with
      | .write => endWrite r request
      | .read => endRead b r request
      | .complete status => complete b r status
      | .drop => Run.dropRequest r request
      return .text request.record

/-! ## 6. Devices and storage -/

/-- Make a call on a device. -/
def runDevice (b : Backend World) (d : DeviceId) (call : DeviceCall) : Run World Reply := do
  match call with
  | .info =>
    let device ← Run.device d
    let w := (← get).world
    let queue := device.queue
    return .device device (b.queues.maxPages queue w) (b.queues.wantsFreed queue w)
      (b.queues.synchronous queue w) (b.queues.depth queue w)
  | .poll cookie spin => return .flag (← poll b d cookie spin)
  | .transfer sector name direction =>
    return .status (← transferNow b d sector direction (← lookup Names.pages name))
  | .slotFreed offset =>
    let queue := (← Run.device d).queue
    Run.world fun w => ((), b.queues.slotFreed queue offset w)
    return .done

/-- Show or fill a base page of a storage. -/
def touchPage (s : Storage) (page : Nat) (fill : Option UInt8) : Reply × Storage :=
  let position := page * pageBytes.toNat
  match fill with
  | some b => (.done, s.write position (Bytes.fill pageBytes.toNat b))
  | none => (.bytes (s.read position pageBytes.toNat), s)

/-- Show or fill a page of a disk. -/
def runDiskPage (name : String) (page : Nat) (fill : Option UInt8) : Run World Reply := do
  let i ← lookup Names.queues name
  match (← get).world.queues.get i with
  | .scripted q =>
    let (reply, disk) := touchPage q.disk page fill
    editWorld (World.setScripted i { q with disk })
    return reply
  | .ram q =>
    let (reply, disk) := touchPage q.disk page fill
    editWorld (World.setRam i { q with disk })
    return reply

/-- Show or fill a page of a file. -/
def runFilePage (name : String) (page : Nat) (fill : Option UInt8) : Run World Reply := do
  let i ← lookup Names.files name
  match (← get).world.files.get i with
  | .scripted f =>
    let (reply, content) := touchPage f.content page fill
    editWorld (World.setFile i (.scripted { f with content }))
    return reply
  | .memory f =>
    let (reply, content) := touchPage f.content page fill
    editWorld (World.setFile i (.memory { f with content }))
    return reply

/-! ## 7. Plain collaborators -/

/-- The text of unwrapping an error. -/
def unwrapText (e : Errno) : String :=
  s!"called `Result::unwrap()` on an `Err` value: {e.code}"

/-- Make an area on a memory disk, of its own size, kept but not registered. -/
def addPlainArea (b : Backend World) (name : String) (number : UInt32) (queue : String)
    (slotMap : Option String) : Run World Reply := do
  let i ← lookup Names.queues queue
  let pages ← match (← get).world.queues.get i with
    | .ram q => pure q.pages
    | .scripted _ => throw (unknownName queue)
  let slotMap ← match slotMap with
    | some m => lookup Names.slotMaps m
    | none => addSlotMap {}
  let d ← addDevice (deviceNumber 8 number) (pages <<< pageSectorBits.toUInt64) i
  match ← activate b { number, backing := .device d, slotMap } 0xffffffffffffffff with
  | .error why => throw (.collaborator (unwrapText why.errno))
  | .ok a => replyArea (some name) (.ok a)

/-- Make a plain collaborator. -/
def addPlain (b : Backend World) (name : String) : PlainThing → Run World Reply
  | .disk pages rule => do
    addQueue name (.ram (← Run.check (RamDisk.new pages rule)))
    return .done
  | .file (.ofSize size) => do
    addFile name (.memory (← Run.check (MemoryFile.ofSize size)))
    return .done
  | .file (.ofBlocks bits blocks) => do
    addFile name (.memory (← Run.check (MemoryFile.new bits blocks)))
    return .done
  | .slotMap => do
    addNamedSlotMap name {}
    return .done
  | .area number queue slotMap => addPlainArea b name number queue slotMap

/-- Make a call on a memory disk. -/
def runDiskCall (b : Backend World) (name : String) (call : DiskCall) : Run World Reply := do
  let i ← lookup Names.queues name
  match (← get).world.queues.get i with
  | .scripted _ => throw (unknownName name)
  | .ram q =>
    let put (q : RamDisk) : Run World Reply := do
      editWorld (World.setRam i q)
      return .done
    match call with
    | .setDepth n => put { q with depth := n }
    | .setMaxPages n => put { q with maxPages := n }
    | .failReads on => put { q with failReads := on }
    | .failWrites on => put { q with failWrites := on }
    | .enableDirect => put { q with direct := true }
    | .enableFreed => put { q with wantsFreed := true }
    | .statistics => return .disk q
    | .completeAll =>
      let fs ← Run.world (World.takePending i none none)
      finishAll b fs
      return .flag !fs.isEmpty

/-- Make a call on a memory file. -/
def runFileCall (name : String) (call : MemoryFileCall) : Run World Reply := do
  let i ← lookup Names.files name
  match (← get).world.files.get i with
  | .scripted _ => throw (unknownName name)
  | .memory f =>
    let put (f : MemoryFile) : Run World Unit := editWorld (World.setFile i (.memory f))
    match call with
    | .limitWrites n => put { f with writeLimit := some n }; return .done
    | .fail on => put { f with fails := on }; return .done
    | .bytesAt position n => return .bytes (← Run.check (f.bytesAt position n))
    | .dirtied => return .number f.dirtied
    | .write position pieces =>
      let (result, f) := f.write position (pieces.map fun (b, n) => Bytes.fill n b)
      put f
      match result with
      | .ok n => return .number n.toNat
      | .error e => return .refused e
    | .read position n b =>
      match f.read position (Bytes.fill n b) with
      | (.ok n, buffer) => return .buffer n buffer
      | (.error e, _) => return .refused e

/-- Make a call on a slot map. -/
def runMapCall (name : String) (call : SlotMapCall) : Run World Reply := do
  let i ← lookup Names.slotMaps name
  match call with
  | .set offset count =>
    editWorld fun w => { w with slotMaps := w.slotMaps.set i ((w.slotMaps.get i).set offset count) }
    return .done
  | .count offset => return .number ((← get).world.slotMaps.get i |>.count offset).toNat
  | .tryFree page =>
    let p ← lookup Names.pages page
    return .flag (← Run.withPage p (World.slotCounts.tryFree i p))

/-! ## 8. Commands -/

/-- Perform a command. -/
def execute (c : Command) : Run World Reply := do
  let b ← backendNow
  match c with
  | .queue name pages plain settings =>
    let disk : Storage := { size := pages.toNat * pageBytes.toNat }
    let q : ScriptedQueue := { name, plain, disk }
    addQueue name (.scripted (settings.foldl QueueSetting.apply q))
    return .done
  | .setQueue name settings =>
    editScripted name fun q => settings.foldl QueueSetting.apply q
    return .done
  | .device name major minor sectors queue =>
    let d ← addDevice (deviceNumber major minor) sectors (← lookup Names.queues queue)
    nameThing fun n => { n with devices := (name, d) :: n.devices }
    return .done
  | .file name spec =>
    addFile name (.scripted (← Run.check (spec.make name)))
    return .done
  | .setFile name settings =>
    let i ← lookup Names.files name
    match (← get).world.files.get i with
    | .memory _ => throw (unknownName name)
    | .scripted f => editWorld (World.setFile i (.scripted (settings.foldl FileSetting.apply f)))
    return .done
  | .slotMap name bare =>
    addNamedSlotMap name { name := some name, bare }
    return .done
  | .setCount slotMap offset count => runMapCall slotMap (.set offset count)
  | .front settings =>
    editWorld fun w => match w.front with
      | some (.scripted bare _ kept) =>
        { w with front := some (.scripted bare settings kept) }
      | _ => w
    return .done
  | .swapOn order race => runSwapOn b order race
  | .activate order => replyArea order.keep (← PageSwap.activate b (← order.spec) order.limit)
  | .swapOff number => return .orRefused (fun _ => .number number.toNat) (← PageSwap.swapOff number)
  | .swapArea number => return .orRefused .area (← PageSwap.swapArea number)
  | .area name => return .area (← lookup Names.areas name)
  | .slotCount area offset =>
    let a ← lookup Names.areas area
    return .number (← Run.world (b.slotMaps.count a.slotMap offset)).toNat
  | .places area page =>
    let a ← lookup Names.areas area
    let slot := (← Run.page (← lookup Names.pages page)).slot
    let block ← Run.attempt (a.block slot)
    let sector ← Run.attempt (a.sector slot)
    return .places (block.mapError Refusal.errno) (sector.mapError Refusal.errno)
      ((a.position slot).mapError Refusal.errno)
  | .newPage name order =>
    addPage name order
    return .done
  | .page name call => callPage (← lookup Names.pages name) call
  | .pageOut page w => return .status (← PageSwap.pageOut b (← lookup Names.pages page) w)
  | .pageOutPast page w ending =>
    return .status (← PageSwap.pageOutPast b (← lookup Names.pages page) w ending.ending)
  | .pageIn page pace hooks => runPageIn page pace hooks
  | .makeDirty page => return .flag (← PageSwap.makeDirty b (← lookup Names.pages page))
  | .areaOf page =>
    return .orRefused (fun a => .number a.number.toNat)
      (← PageSwap.areaOf (← lookup Names.pages page))
  | .complete queue position status => runComplete b queue position status
  | .held fate => runHeld b fate
  | .queueStatistics name =>
    match (← get).world.queues.get (← lookup Names.queues name) with
    | .scripted q => return .queue q
    | .ram q => return .disk q
  | .diskPage queue page fill => runDiskPage queue page fill
  | .filePage file page fill => runFilePage file page fill
  | .deviceCall device call => runDevice b (← lookup Names.devices device) call
  | .tick n =>
    modify fun s => { s with clock := s.clock.map (· + n) }
    return clockReply (← get).clock
  | .setClock n =>
    modify fun s => { s with clock := s.clock.map fun _ => n }
    return clockReply (← get).clock
  | .level l =>
    modify fun s => { s with console.level := l }
    return .done
  | .plain name thing => addPlain b name thing
  | .diskCall queue call => runDiskCall b queue call
  | .fileCall file call => runFileCall file call
  | .mapCall slotMap call => runMapCall slotMap call
  | .frontCounts =>
    match (← get).world.front with
    | some (.plain _ _ stores loads laterLoads) => return .numbers [stores, loads, laterLoads]
    | _ => return .nothing
  | .stallCounts =>
    let m := (← get).world.stalls
    return .numbers [m.entered.toNat, m.active.toNat]
where
  /-- The clock as an answer. -/
  clockReply : Option UInt64 → Reply
    | some n => .number n.toNat
    | none => .nothing

/-! ## 9. Reports -/

/-- What there is to see after a command. -/
structure Report where
  reply : Reply
  events : List String
  log : String
  /-- Every name of a page, with the line of the page it stands for. -/
  pages : List (String × String)
  /-- Every name of a device, with its requests in flight. -/
  inflight : List (String × Nat)
  counters : Counters
  /-- Stalls entered and lasting. -/
  stalls : UInt64 × UInt64
  deriving Inhabited

/-- The first of every name. -/
def newest {α : Type} : List (String × α) → List (String × α)
  | [] => []
  | (name, a) :: rest => (name, a) :: (newest rest).filter (·.1 ≠ name)

/-- Collect what there is to see; events and log start anew. -/
def collect (reply : Reply) : Run World Report := do
  let s ← get
  let (events, w) := s.world.takeEvents
  let report : Report :=
    { reply, events
      log := s.console.text
      pages := (newest w.names.pages).map fun (name, p) => (name, (s.pages.get p).line)
      inflight := (newest w.names.devices).map fun (name, d) => (name, (s.devices.get d).inflight)
      counters := w.counters
      stalls := if w.stalls.rule = .numbered then (w.stalls.entered, w.stalls.active) else (0, 0) }
  set { s with console.text := "", world := w }
  return report

/-- **One command and the report after it.** -/
def step (c : Command) : Run World Report := do collect (← execute c)

/-- How a bench is set up. -/
structure Setup where
  clock : CycleClock := {}
  bareStatistics : Bool := false
  stalls : StallRule := .numbered
  front : Option Front := none
  ticks : Option UInt64 := none
  deriving Inhabited

/-- A bench with nothing on it, apart from a nameless slot map that frees nothing. -/
def start (setup : Setup) : System World :=
  { clock := setup.ticks
    world :=
      { clock := setup.clock, bareStatistics := setup.bareStatistics,
        stalls := { rule := setup.stalls }, front := setup.front,
        slotMaps := (default : Table SlotCounts).set 0 { name := some "-", bare := true } } }

/-- Perform commands until one faults. -/
def perform (setup : Setup) (commands : List Command) : List Report × Option Fault :=
  runTrial (fun c s => (step c).run s) commands (start setup)

end PageSwap.Bench
