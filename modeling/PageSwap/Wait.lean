/-
# Requests and waits

How a request is made, handed to its device, and waited for.

* `allocRequest` -- a request for a page, if its device takes one more.
* `submit` -- hand it over; what the driver finishes at once is finished before this returns.
* `await` -- the steps of a waiting reader, with the outside world in between.
-/
import PageSwap.Completion

namespace PageSwap

variable {σ : Type}

/-! ## 1. Making and submitting a request -/

/-- A request that moves page `p` to or from its slot.  The page is not touched if there is
none. -/
def allocRequest (b : Backend σ) (direction : Direction) (area : Area) (d : DeviceId) (p : PageId)
    (ending : Ending) : Run σ (Except Refusal Request) := do
  let page ← Run.page p
  match ← Run.attempt (area.sector page.slot) with
  | .error why => return .error why
  | .ok sector =>
    let device ← Run.device d
    if page.nrPages > b.queues.maxPages device.queue (← get).world then
      return .error .requestTooLarge
    match device.reserveTag with
    | none => return .error .noTag
    | some device =>
      Run.setDevice d device
      return .ok { direction, sector, page := p, device := d, area, ending }

/-- Hand a request to its device.  The answer is a cookie to poll for it. -/
def submit (b : Backend σ) (r : RequestId) (request : Request) : Run σ UInt64 := do
  let device ← Run.device request.device
  Run.log .trace
    s!"block {device.name}: submit {request.direction.name} at sector {request.sector}"
  let page ← Run.page request.page
  let (cookie, finished) ← Run.world (b.queues.submit device.queue r request device page)
  finishAll b finished
  return cookie

/-- Poll a device. -/
def poll (b : Backend σ) (d : DeviceId) (cookie : UInt64) (spin : Bool) : Run σ Bool := do
  let queue := (← Run.device d).queue
  let (hit, finished) ← Run.world (b.queues.poll queue cookie spin)
  finishAll b finished
  return hit

/-! ## 2. Waiting -/

/-- The steps of a waiting reader, at most `fuel` of them. -/
def await (b : Backend σ) (d : DeviceId) (cookie : UInt64) (i : SleeperId) :
    Nat → Reader → Run σ Unit
  | 0, reader => if reader.demand = .stop then pure () else throw .stalled
  | fuel + 1, reader => do
    match reader.demand with
    | .stop => pure ()
    | demand =>
      let hit ← if demand = .poll then poll b d cookie true else pure false
      if demand = .relax then relax b
      let (reader, sleeper) ← Run.check (reader.step hit (← Run.sleeper i))
      Run.setSleeper i sleeper
      await b d cookie i fuel reader

end PageSwap
