/-
# Reading pages in

A page is read into locked, holding no valid content.  Whether the read succeeded shows in the page
itself; it is unlocked when the read is over.

There are three ways in, in this order: the front store has the page; the file system reads it; the
device reads it, directly or by a request.  A caller may wait for the request.

* `Pace` -- whether the caller waits, and whether the front store may finish later.
* `pageIn` -- read a page.
-/
import PageSwap.PageOut

namespace PageSwap

variable {σ : Type}

/-- How a read is to go. -/
inductive Pace
  /-- Wait until the read is over. -/
  | await
  /-- Start the read. -/
  | start
  /-- Start the read; the front store may finish it later. -/
  | background
  deriving DecidableEq, Inhabited

/-! ## 1. Steps shared by all ways -/

/-- Give up on a read: the page is errored and unlocked. -/
def failRead (p : PageId) (why : Refusal) : Run σ Status := do
  Run.editPage p Page.setReadError
  Run.tryPage p Page.unlock
  return .error why.errno

/-- Count a page as read. -/
def countPageIn (b : Backend σ) : Run σ Unit :=
  Run.world fun w => ((), b.statistics.record .pageIn w)

/-- Ask the front store for a page. -/
def frontLoad (b : Backend σ) (p : PageId) (pace : Pace) : Run σ Bool :=
  match b.front with
  | none => pure false
  | some front =>
    Run.tryWithPage p (if pace = .background then front.loadLater p else front.load p)

/-! ## 2. Through a file system -/

/-- Read a page through its file system.  Fewer bytes than the page holds are an error. -/
def readFile (b : Backend σ) (area : Area) (file : FileId) (p : PageId) : Run σ Status := do
  let page ← Run.page p
  match area.position page.slot with
  | .error why => failRead p why
  | .ok position =>
    Run.tryPage p Page.startRead
    let (result, bytes) ← Run.world (b.files.read file position page.bytes)
    Run.editPage p fun page => { page with bytes }
    Run.tryPage p Page.endRead
    let status : Status := match result with
      | .ok n => if n = page.size then .ok () else .error Refusal.shortRead.errno
      | .error e => .error e
    match status with
    | .ok () =>
      Run.editPage p Page.setUptodate
      countPageIn b
    | .error _ => Run.editPage p Page.setReadError
    Run.tryPage p Page.unlock
    return status

/-! ## 3. From a device -/

/-- The device has read the page directly.  The slot is dealt with under the lock, if nobody else
was quicker to take it. -/
def readDone (b : Backend σ) (area : Area) (p : PageId) : Run σ Unit := do
  Run.editPage p Page.setUptodate
  Run.tryPage p Page.endRead
  Run.tryPage p Page.unlock
  let (taken, page) := (← Run.page p).tryLock
  Run.editPage p fun _ => page
  if taken then
    notifyFreed b area p
    Run.tryPage p Page.unlock
  countPageIn b

/-- Read a page by a request, and wait for it if asked to.  Where no request is to be had the page
is only unlocked. -/
def readRequest (b : Backend σ) (area : Area) (d : DeviceId) (p : PageId) (pace : Pace) :
    Run σ Status := do
  match ← allocRequest b .read area d p .read with
  | .error why =>
    Run.tryPage p Page.unlock
    return .error why.errno
  | .ok request =>
    if pace = .await then
      let i ← Run.addSleeper
      let request := request.awaitedBy i
      let cookie ← issue request
      await b d cookie i b.patience Reader.start
    else
      let _ ← issue request
    return .ok ()
where
  /-- Hand the request over. -/
  issue (request : Request) : Run σ UInt64 := do
    let r ← Run.addRequest request
    countPageIn b
    Run.tryPage p Page.startRead
    submit b r request

/-- Read a page from its device, directly if the driver does that. -/
def readDevice (b : Backend σ) (area : Area) (d : DeviceId) (p : PageId) (pace : Pace) :
    Run σ Status := do
  match ← Run.attempt (area.sector (← Run.page p).slot) with
  | .error why => failRead p why
  | .ok sector =>
    Run.tryPage p Page.startRead
    match ← transferNow b d sector .read p with
    | .ok () =>
      readDone b area p
      return .ok ()
    | .error _ =>
      Run.tryPage p Page.endRead
      readRequest b area d p pace

/-- Read a page from its slot. -/
def readSlot (b : Backend σ) (area : Area) (p : PageId) (pace : Pace) : Run σ Status :=
  match area.backing with
  | .file f => readFile b area f p
  | .device d => readDevice b area d p pace
  | .mapped _ d => readDevice b area d p pace

/-! ## 4. Entry point -/

/-- **Read a locked page in.**  Everything past the front store counts as a memory stall. -/
def pageIn (b : Backend σ) (p : PageId) (pace : Pace) : Run σ Status := do
  let page ← Run.page p
  unless page.flags.locked do throw .readUnlocked
  if page.flags.uptodate then throw .readUptodate
  match ← areaOf p with
  | .error why => failRead p why
  | .ok area =>
    if ← frontLoad b p pace then return .ok ()
    let stall ← Run.world b.stalls.enter
    let status ← readSlot b area p pace
    Run.world fun w => ((), b.stalls.leave stall w)
    return status

end PageSwap
