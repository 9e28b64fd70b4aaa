/-
# Requests

A request is one transfer of a page that a device has been asked for.  Whoever holds it owes it a
completion, and the request keeps one tag of its device until it is dropped.
-/
import PageSwap.Area
import PageSwap.Writeback

namespace PageSwap

/-- A page, by number. -/
abbrev PageId := Nat

/-- A request, by number. -/
abbrev RequestId := Nat

/-- A sleeping reader, by number. -/
abbrev SleeperId := Nat

/-- Which way the data moves. -/
inductive Direction
  | read
  | write
  deriving DecidableEq, Inhabited

/-- The name of a direction. -/
def Direction.name : Direction → String
  | .read => "Read"
  | .write => "Write"

/-- What happens to a request that is finished. -/
inductive Ending
  /-- The page was read. -/
  | read
  /-- The page was written. -/
  | write
  /-- Something a caller brought along. -/
  | custom (tag : Nat)
  deriving DecidableEq, Inhabited

/-- One transfer of a page. -/
structure Request where
  direction : Direction
  flags : RequestFlags := { swap := true }
  /-- First sector on the device. -/
  sector : UInt64
  page : PageId
  device : DeviceId
  area : Area
  ending : Ending
  /-- The reader that sleeps until the request is finished. -/
  sleeper : Option SleeperId := none
  status : Status := .ok ()
  ioPriority : UInt16 := 0
  cgroup : Option UInt32 := none
  deriving Inhabited

namespace Request

/-- Let a write carry what its caller asked for. -/
def associate (r : Request) (w : Writeback) : Request :=
  { r with flags := r.flags.union w.requestFlags, ioPriority := w.ioPriority, cgroup := w.cgroup }

/-- Let a read be polled for and wake a sleeper. -/
def awaitedBy (r : Request) (s : SleeperId) : Request :=
  { r with flags.polled := true, sleeper := some s }

/-- The request as a record. -/
def record (r : Request) : String :=
  let flags := FlagName.detailed "ReqFlags" RequestFlags.names r.flags
  s!"SwapBio \x7b op: {r.direction.name}, flags: {flags}, sector: {r.sector}, " ++
    s!"status: {Status.text r.status}, .. \x7d"

end Request

end PageSwap
