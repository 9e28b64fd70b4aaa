/-
# The state of the swap path

Everything the swap path reads and changes: pages, devices, the registry of active areas, the
requests that exist, the readers that wait, the console.  What its collaborators (device drivers,
files, slot maps, ...) remember is one further component, `world`, of a type of its own; the swap
path never looks into it.

An operation of the swap path is a `Run`: it changes the state and answers, or it faults.
-/
import PageSwap.Console
import PageSwap.RateLimit
import PageSwap.Reader
import PageSwap.Request
import PageSwap.Table

namespace PageSwap

/-- The state of the swap path and, in `world`, of its collaborators. -/
structure System (σ : Type) where
  pages : Table Page := {}
  devices : Table Device := {}
  /-- The active areas, by number. -/
  registry : Table (Option Area) := {}
  /-- The requests that exist. -/
  requests : Table (Option Request) := {}
  sleepers : Table Sleeper := {}
  console : Console := {}
  /-- Limits the lines about failed writes to swap files. -/
  limiter : RateLimit := default
  /-- The tick clock, if there is one.  Without it nothing is limited. -/
  clock : Option UInt64 := none
  world : σ

/-- An operation of the swap path. -/
abbrev Run (σ : Type) := StateT (System σ) (Except Fault)

namespace Run

variable {σ α : Type}

/-! ## 1. Lifting -/

/-- A computation that may fault. -/
def check (x : Except Fault α) : Run σ α := fun s => x.map (·, s)

/-- A computation that may stop.  A refusal is an answer. -/
def attempt : Except Stop α → Run σ (Except Refusal α)
  | .ok a => pure (.ok a)
  | .error (.refused why) => pure (.error why)
  | .error (.fault f) => throw f

/-- A step of a collaborator. -/
def world (f : σ → α × σ) : Run σ α := fun s =>
  let (a, w) := f s.world
  .ok (a, { s with world := w })

/-- A step of a collaborator that may fault. -/
def tryWorld (f : σ → Except Fault (α × σ)) : Run σ α := fun s =>
  match f s.world with
  | .ok (a, w) => .ok (a, { s with world := w })
  | .error e => .error e

/-! ## 2. Pages -/

/-- The page `p`. -/
def page (p : PageId) : Run σ Page := return (← get).pages.get p

/-- Change page `p`. -/
def editPage (p : PageId) (f : Page → Page) : Run σ Unit :=
  modify fun s => { s with pages := s.pages.set p (f (s.pages.get p)) }

/-- Change page `p`, if it is in the state for it. -/
def tryPage (p : PageId) (f : Page → Except Fault Page) : Run σ Unit := do
  let page ← check (f (← page p))
  editPage p fun _ => page

/-- Let a collaborator act on page `p`. -/
def withPage (p : PageId) (f : Page → σ → (α × Page) × σ) : Run σ α := do
  let (a, page) ← world (f (← page p))
  editPage p fun _ => page
  return a

/-- Let a collaborator act on page `p`, which may fault. -/
def tryWithPage (p : PageId) (f : Page → σ → Except Fault ((α × Page) × σ)) : Run σ α := do
  let (a, page) ← tryWorld (f (← page p))
  editPage p fun _ => page
  return a

/-! ## 3. Devices and requests -/

/-- The device `d`. -/
def device (d : DeviceId) : Run σ Device := return (← get).devices.get d

/-- Replace device `d`. -/
def setDevice (d : DeviceId) (device : Device) : Run σ Unit :=
  modify fun s => { s with devices := s.devices.set d device }

/-- The request `r`, if it exists. -/
def request? (r : RequestId) : Run σ (Option Request) := return (← get).requests.get r

/-- Replace request `r`. -/
def setRequest (r : RequestId) (request : Option Request) : Run σ Unit :=
  modify fun s => { s with requests := s.requests.set r request }

/-- A new request. -/
def addRequest (request : Request) : Run σ RequestId := do
  let r := (← get).requests.fresh
  setRequest r (some request)
  return r

/-- Drop request `r`: its device gets the tag back. -/
def dropRequest (r : RequestId) (request : Request) : Run σ Unit := do
  setRequest r none
  let device ← check (← device request.device).releaseTag
  setDevice request.device device

/-! ## 4. Waiting readers -/

/-- The sleeper `i`. -/
def sleeper (i : SleeperId) : Run σ Sleeper := return (← get).sleepers.get i

/-- Replace sleeper `i`. -/
def setSleeper (i : SleeperId) (s : Sleeper) : Run σ Unit :=
  modify fun st => { st with sleepers := st.sleepers.set i s }

/-- A new sleeper. -/
def addSleeper : Run σ SleeperId := do
  let i := (← get).sleepers.fresh
  setSleeper i {}
  return i

/-! ## 5. Console -/

/-- Log a line. -/
def log (l : Level) (text : String) : Run σ Unit :=
  modify fun s => { s with console := s.console.log l text }

/-- Log an error line, unless the limiter holds it back. -/
def logLimited (text : String) : Run σ Unit := do
  let s ← get
  let (passes, limiter, console) ← check (s.limiter.checkOn s.clock s.console)
  set { s with limiter, console }
  if passes then log .error text

end Run

end PageSwap
