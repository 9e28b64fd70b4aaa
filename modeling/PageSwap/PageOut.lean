/-
# Writing pages out

A page is written out locked and is unlocked when the write has been issued, or before the call
returns if nothing gets issued.  If its data does not make it to swap the page ends up dirty again.

There are four ways out, in this order: the slot is no longer needed; the front store takes the
page; the file system writes it; the device writes it, directly or by a request.

* `pageOut` -- all four.
* `pageOutPast` -- past the slot map and the front store, with an ending of the caller's choice.
-/
import PageSwap.Registry
import PageSwap.Wait

namespace PageSwap

variable {σ : Type}

/-! ## 1. Steps shared by all ways -/

/-- Give up on a write: the page is dirty again and unlocked. -/
def failWrite (p : PageId) (why : Refusal) : Run σ Status := do
  Run.editPage p Page.setDirty
  Run.tryPage p Page.unlock
  return .error why.errno

/-- Count a page as written.  A huge page also counts once as a whole. -/
def countPageOut (b : Backend σ) (p : PageId) : Run σ Unit := do
  let page ← Run.page p
  if page.isHuge then Run.world fun w => ((), b.statistics.record .hugePageOut w)
  Run.world fun w => ((), b.statistics.recordMany .pageOut page.nrPages w)

/-- A write begins and the page is free for others to lock. -/
def startWrite (p : PageId) : Run σ Unit := do
  Run.tryPage p Page.startWrite
  Run.tryPage p Page.unlock

/-! ## 2. Through a file system -/

/-- Write a page through its file system.  A network file system may be short of buffers for a
moment, so a short write leaves the page dirty, to be tried again, and is no error. -/
def writeFile (b : Backend σ) (area : Area) (file : FileId) (p : PageId) : Run σ Status := do
  let page ← Run.page p
  match area.position page.slot with
  | .error why => failWrite p why
  | .ok position =>
    startWrite p
    let result ← Run.world (b.files.write file position [page.bytes])
    let status ← match result with
      | .ok written =>
        if written = page.size then countPageOut b p
        else retryLater position
        pure (.ok ())
      | .error e =>
        retryLater position
        pure (.error e)
    Run.tryPage p Page.endWrite
    return status
where
  /-- The page stays dirty. -/
  retryLater (position : UInt64) : Run σ Unit := do
    let _ ← Run.withPage p (b.files.dirtied file p)
    Run.editPage p (·.setReclaim false)
    Run.logLimited s!"Write error on dio swapfile ({position})"

/-! ## 3. To a device -/

/-- Transfer a page without a request.  The bytes move before this answers. -/
def transferNow (b : Backend σ) (d : DeviceId) (sector : UInt64) (direction : Direction)
    (p : PageId) : Run σ Status := do
  let queue := (← Run.device d).queue
  let page ← Run.page p
  let (status, bytes) ← Run.tryWorld (b.queues.transfer queue sector direction p page)
  Run.editPage p fun page => { page with bytes }
  return status

/-- Write a page by a request, which is counted when it is issued. -/
def writeRequest (b : Backend σ) (area : Area) (d : DeviceId) (p : PageId) (w : Writeback)
    (ending : Ending) : Run σ Status := do
  match ← allocRequest b .write area d p ending with
  | .error why => failWrite p why
  | .ok request =>
    let request := request.associate w
    let r ← Run.addRequest request
    countPageOut b p
    startWrite p
    let _ ← submit b r request
    return .ok ()

/-- Write a page to its device, directly if the driver does that. -/
def writeDevice (b : Backend σ) (area : Area) (d : DeviceId) (p : PageId) (w : Writeback)
    (ending : Ending) : Run σ Status := do
  match ← Run.attempt (area.sector (← Run.page p).slot) with
  | .error why => failWrite p why
  | .ok sector =>
    Run.tryPage p Page.startWrite
    match ← transferNow b d sector .write p with
    | .ok () =>
      Run.tryPage p Page.unlock
      Run.tryPage p Page.endWrite
      countPageOut b p
      return .ok ()
    | .error _ =>
      Run.tryPage p Page.endWrite
      writeRequest b area d p w ending

/-- Write a page to its slot. -/
def writeSlot (b : Backend σ) (area : Area) (p : PageId) (w : Writeback) (ending : Ending) :
    Run σ Status :=
  match area.backing with
  | .file f => writeFile b area f p
  | .device d => writeDevice b area d p w ending
  | .mapped _ d => writeDevice b area d p w ending

/-! ## 4. Entry points -/

/-- Offer a page to the front store. -/
def frontStore (b : Backend σ) (p : PageId) : Run σ Bool :=
  match b.front with
  | none => pure false
  | some front => Run.tryWithPage p (front.store p)

/-- **Write a locked, dirty page out.** -/
def pageOut (b : Backend σ) (p : PageId) (w : Writeback) : Run σ Status := do
  unless (← Run.page p).flags.locked do throw .writeUnlocked
  -- The dirty flag is ours now; whatever fails below puts it back.
  Run.editPage p Page.clearDirty
  match ← areaOf p with
  | .error why => failWrite p why
  | .ok area =>
    if ← Run.withPage p (b.slotMaps.tryFree area.slotMap p) then
      Run.tryPage p Page.unlock
      return .ok ()
    let start ← Run.world b.statistics.cycles
    if ← frontStore b p then
      startWrite p
      Run.tryPage p Page.endWrite
      let stop ← Run.world b.statistics.cycles
      Run.world fun world => ((), b.statistics.accumulate (stop - start) world)
      return .ok ()
    writeSlot b area p w .write

/-- **Write a locked page to its slot**, past the slot map and the front store. -/
def pageOutPast (b : Backend σ) (p : PageId) (w : Writeback) (ending : Ending) : Run σ Status := do
  unless (← Run.page p).flags.locked do throw .writeUnlocked
  match ← areaOf p with
  | .error why => failWrite p why
  | .ok area => writeSlot b area p w ending

/-- Make a page dirty, through its file if it has one.  The answer is whether it was clean. -/
def makeDirty (b : Backend σ) (p : PageId) : Run σ Bool := do
  match ← areaOf p with
  | .ok { backing := .file f, .. } => Run.withPage p (b.files.dirtied f p)
  | _ =>
    let clean := !(← Run.page p).flags.dirty
    Run.editPage p Page.setDirty
    return clean

end PageSwap
