/-
# Bringing areas up and down

An area is registered under its number.  Bringing one up takes three steps -- the number is looked
up, the area is built, the number is looked up again and taken -- and other areas may come and go
between them; taking one down, or looking one up, is a single step.

* `checkVacant`, `activate`, `register` -- the three steps; `swapOn` is all of them.
* `swapOff`, `area?`, `areaOf` -- one step each.
-/
import PageSwap.Backend

namespace PageSwap

variable {σ : Type}

/-! ## 1. Building an area -/

/-- What the area of a spec is built from. -/
def groundOf (b : Backend σ) (spec : AreaSpec) (s : System σ) : Area.Ground :=
  match spec.backing with
  | .device d => .pages ((s.devices.get d).sectors >>> pageSectorBits.toUInt64)
  | .mapped f _ => .blocks (b.files.blockMap f s.world)
  | .file f => .pages ((b.files.blockMap f s.world).size >>> pageBits.toUInt64)

/-- The device of a spec finishes its requests at once. -/
def synchronousOf (b : Backend σ) (spec : AreaSpec) (s : System σ) : Bool :=
  match spec.backing.device? with
  | some d => b.queues.synchronous (s.devices.get d).queue s.world
  | none => false

/-- **Build the area of a spec**, of at most `limit` pages. -/
def activate (b : Backend σ) (spec : AreaSpec) (limit : UInt64) : Run σ (Except Refusal Area) := do
  let ground := groundOf b spec (← get)
  let plan ← Run.attempt (ground.plan limit)
  if ground matches .blocks _ then
    match Layout.remark plan with
    | some (level, line) => Run.log level line
    | none => pure ()
  match plan with
  | .error why => return .error why
  | .ok plan =>
    let area := Area.build spec (synchronousOf b spec (← get)) plan
    if area matches .error _ then Run.log .warn s!"swapon: empty swap area {spec.number}"
    return area

/-! ## 2. The registry -/

/-- Bits of a kibibyte count inside a page count. -/
def pageKibiBits : UInt64 := 2

/-- The line that reports a new area. -/
def addedLine (a : Area) : String :=
  let size := a.pages <<< pageKibiBits
  let across := a.span <<< pageKibiBits
  let suffix := if a.throughFile then " FS" else ""
  s!"Adding {size}k swap on area {a.number}. extents:{a.nrExtents} across:{across}k{suffix}"

/-- The area registered under `number`. -/
def System.area? (s : System σ) (number : UInt32) : Option Area := s.registry.get number.toNat

/-- An area may be registered under `number`. -/
def checkVacant (number : UInt32) : Run σ (Except Refusal Unit) := do
  if number ≥ Slot.areaLimit then return .error .areaNumber
  else if ((← get).area? number).isSome then return .error .areaTaken
  else return .ok ()

/-- Register an area, unless its number has been taken meanwhile. -/
def register (a : Area) : Run σ (Except Refusal Area) := do
  if ((← get).area? a.number).isSome then return .error .areaTaken
  modify fun s => { s with registry := s.registry.set a.number.toNat (some a) }
  Run.log .info (addedLine a)
  return .ok a

/-- **Bring an area up.**  `meanwhile` is what happens elsewhere between the first look at the
registry and the layout. -/
def swapOn (b : Backend σ) (spec : AreaSpec) (limit : UInt64) (meanwhile : Run σ Unit := pure ()) :
    Run σ (Except Refusal Area) := do
  match ← checkVacant spec.number with
  | .error why => return .error why
  | .ok () =>
    meanwhile
    match ← activate b spec limit with
    | .error why => return .error why
    | .ok area => register area

/-- **Take an area down.**  Requests it has in flight keep it. -/
def swapOff (number : UInt32) : Run σ (Except Refusal Area) := do
  match (← get).area? number with
  | none => return .error .noArea
  | some a =>
    modify fun s => { s with registry := s.registry.set number.toNat none }
    return .ok a

/-- The area with a number. -/
def swapArea (number : UInt32) : Run σ (Except Refusal Area) := do
  match (← get).area? number with
  | none => return .error .noArea
  | some a => return .ok a

/-- The area that holds the slot of a page. -/
def areaOf (p : PageId) : Run σ (Except Refusal Area) := do
  match (← Run.page p).slot with
  | none => return .error .noSlot
  | some slot =>
    match (← get).area? slot.area with
    | none => return .error .noSlot
    | some a => return .ok a

end PageSwap
