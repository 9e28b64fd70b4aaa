/-
# Completions

A request is finished exactly once.  Its ending settles the page -- flags first, then the transfer
state, then, for a read, the lock -- drops the request, which gives the tag back, and only then
wakes the reader that waits for it.

* `finish` -- the driver's transfer, then the ending.
* `endWrite`, `endRead` -- the endings of writes and reads.
* `notifyFreed` -- a driver hears that a slot has been read by its only user.
-/
import PageSwap.Backend

namespace PageSwap

variable {σ : Type}

/-! ## 1. The slot of a page that has been read -/

/-- Tell the driver that the slot of a freshly read page may go, if the page is its only user.
The page is made dirty, so it gets written out again instead of being dropped.  The page is
locked. -/
def notifyFreed (b : Backend σ) (area : Area) (p : PageId) : Run σ Unit := do
  let page ← Run.page p
  match page.slot, area.backing with
  | some slot, .device d =>
    let queue := (← Run.device d).queue
    if b.queues.wantsFreed queue (← get).world then
      if (← Run.world (b.slotMaps.count area.slotMap slot.offset)) = 1 then
        Run.editPage p Page.setDirty
        Run.world fun w => ((), b.queues.slotFreed queue slot.offset w)
  | _, _ => pure ()

/-! ## 2. Endings -/

/-- The line that reports a failed request. -/
def failureLine (direction : Direction) (device : Device) (sector : UInt64) : String :=
  s!"{direction.name}-error on swap-device ({device.name}:{sector})"

/-- **A write is finished.**  A page whose write failed stays around, dirty, for reclaim to try
again. -/
def endWrite (r : RequestId) (request : Request) : Run σ Unit := do
  let p := request.page
  Run.log .trace s!"swap: write done at sector {request.sector}: {Status.text request.status}"
  match request.status with
  | .ok () => pure ()
  | .error _ =>
    Run.editPage p fun page => (page.setError true).setDirty
    Run.log .fatal (failureLine .write (← Run.device request.device) request.sector)
    Run.editPage p (·.setReclaim false)
  Run.tryPage p Page.endWrite
  Run.dropRequest r request

/-- **A read is finished.** -/
def endRead (b : Backend σ) (r : RequestId) (request : Request) : Run σ Unit := do
  let p := request.page
  Run.log .trace s!"swap: read done at sector {request.sector}: {Status.text request.status}"
  match request.status with
  | .ok () =>
    Run.editPage p Page.setUptodate
    notifyFreed b request.area p
  | .error _ =>
    Run.editPage p Page.setReadError
    Run.log .fatal (failureLine .read (← Run.device request.device) request.sector)
  Run.tryPage p Page.endRead
  Run.tryPage p Page.unlock
  Run.dropRequest r request
  match request.sleeper with
  | some i => Run.setSleeper i (← Run.sleeper i).wake
  | none => pure ()

/-! ## 3. Finishing a request -/

/-- Finish request `r` with `status`: run its ending. -/
def complete (b : Backend σ) (r : RequestId) (status : Status) : Run σ Unit := do
  match ← Run.request? r with
  | none => pure ()
  | some request =>
    let request := { request with status }
    Run.setRequest r (some request)
    match request.ending with
    | .write => endWrite r request
    | .read => endRead b r request
    | .custom tag => b.ending tag r

/-- **Finish a request**: let the driver carry out its transfer, then run its ending. -/
def finish (b : Backend σ) (f : Finish) : Run σ Unit := do
  match ← Run.request? f.request with
  | none => pure ()
  | some request =>
    let queue := (← Run.device request.device).queue
    let page ← Run.page request.page
    let (status, bytes) ← Run.tryWorld (b.queues.settle queue f request page)
    Run.editPage request.page fun page => { page with bytes }
    complete b f.request status

/-- Finish requests one after the other. -/
def finishAll (b : Backend σ) (fs : List Finish) : Run σ Unit := fs.forM (finish b)

/-- What happens elsewhere during one relax. -/
def relax (b : Backend σ) : Run σ Unit := do
  let turns ← Run.world b.relax
  turns.forM fun turn => do finishAll b (← Run.world turn)

end PageSwap
