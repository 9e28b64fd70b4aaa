/-
# Slot maps, front store and stalls of a bench

* `SlotCounts` -- references to slots, one unless told otherwise.
* `Front` -- a front store that follows settings, or a plain one that takes or gives everything.
* `StallMeter` -- how often stalls were entered, and how many last.
-/
import PageSwap.Page

namespace PageSwap.Bench

/-! ## 1. Slot counts -/

/-- References to slots. -/
structure SlotCounts where
  /-- The name in events, none if calls make no events. -/
  name : Option String := none
  /-- Slots are never freed. -/
  bare : Bool := false
  counts : List (UInt64 × UInt64) := []
  deriving Inhabited

namespace SlotCounts

/-- References to a slot. -/
def count (m : SlotCounts) (offset : UInt64) : UInt64 := (m.counts.lookup offset).getD 1

/-- Set the references to a slot. -/
def set (m : SlotCounts) (offset count : UInt64) : SlotCounts :=
  { m with counts := (offset, count) :: m.counts }

/-- Drop the slot of a page if nothing refers to it. -/
def tryFree (m : SlotCounts) (p : Page) : Bool × Page :=
  match p.slot with
  | some slot =>
    if !m.bare && m.count slot.offset = 0 then (true, p.dropSlot.setDirty) else (false, p)
  | none => (false, p)

end SlotCounts

/-! ## 2. Front stores -/

/-- How a front store answers a load. -/
inductive LoadRule
  /-- It does not have the page. -/
  | no
  /-- It will fill the page later. -/
  | later
  /-- It has the page. -/
  | hit
  /-- It has the page if it was stored. -/
  | stored
  deriving DecidableEq, Inhabited

/-- What a front store does to the slot of every page it sees. -/
inductive Meddling
  | none
  | drop
  /-- The page gets a slot; its area number may be one that fits no slot. -/
  | set (area : UInt32) (offset : UInt64)
  deriving DecidableEq, Inhabited

/-- Settings of a scripted front store. -/
structure FrontSettings where
  store : Bool := false
  load : LoadRule := .no
  loadLater : LoadRule := .no
  meddling : Meddling := .none
  deriving DecidableEq, Inhabited

/-- A front store of a bench. -/
inductive Front
  /-- It follows settings and keeps what it stored under the slot; `bare` if loading later is the
  same as loading. -/
  | scripted (bare : Bool) (settings : FrontSettings) (kept : List (Slot × Bytes))
  /-- It takes everything or nothing, gives everything or nothing, and counts. -/
  | plain (store load : Bool) (stores loads laterLoads : Nat)
  deriving Inhabited

namespace Front

/-- Meddle with a page. -/
def meddle (m : Meddling) (p : Page) : Except Fault Page :=
  match m with
  | .none => .ok p
  | .drop => .ok p.dropSlot
  | .set area offset => return p.setSlot (← Slot.new area offset)

/-- The page is filled and handed back. -/
def handBack (p : Page) : Page :=
  let p := p.setUptodate
  { p with flags.locked := false }

/-- Answer a load by a rule. -/
def answer (rule : LoadRule) (kept : List (Slot × Bytes)) (p : Page) : Bool × Page :=
  match rule with
  | .no => (false, p)
  | .later => (true, p)
  | .hit => (true, handBack p)
  | .stored =>
    match p.slot.bind fun slot => kept.lookup slot with
    | some bytes =>
      if bytes.size = p.bytes.size then (true, handBack { p with bytes }) else (false, p)
    | none => (false, p)

/-- Take the content of a page. -/
def store (p : Page) : Front → Except Fault ((Bool × Page) × Front)
  | .scripted bare s kept => do
    let p ← meddle s.meddling p
    if s.store then
      let copies := p.slot.toList.map fun slot => (slot, p.bytes)
      return ((true, p), .scripted bare s (copies ++ kept))
    else return ((false, p), .scripted bare s kept)
  | .plain store load stores loads laterLoads =>
    .ok ((store, p), .plain store load (if store then stores + 1 else stores) loads laterLoads)

/-- Fill a page, perhaps later. -/
def load (later : Bool) (p : Page) : Front → Except Fault ((Bool × Page) × Front)
  | .scripted bare s kept => do
    let p ← meddle s.meddling p
    return (answer (if later && !bare then s.loadLater else s.load) kept p, .scripted bare s kept)
  | .plain store load stores loads laterLoads =>
    if load then
      let front := if later then Front.plain store load stores loads (laterLoads + 1)
        else .plain store load stores (loads + 1) laterLoads
      .ok ((true, handBack p), front)
    else .ok ((false, p), .plain store load stores loads laterLoads)

end Front

/-! ## 3. Stalls -/

/-- What a stall is answered with. -/
inductive StallRule
  /-- Stalls are not accounted. -/
  | none
  /-- Their number, and there are events. -/
  | numbered
  /-- How many lasted already, and there are no events. -/
  | counted
  deriving DecidableEq, Inhabited

/-- The account of stalls. -/
structure StallMeter where
  rule : StallRule := .numbered
  entered : UInt64 := 0
  active : UInt64 := 0
  deriving DecidableEq, Inhabited

namespace StallMeter

/-- A stall begins. -/
def enter (m : StallMeter) : UInt64 × StallMeter :=
  match m.rule with
  | .none => (0, m)
  | .numbered => (m.entered + 1, { m with entered := m.entered + 1, active := m.active + 1 })
  | .counted => (m.active, { m with entered := m.entered + 1, active := m.active + 1 })

/-- A stall ends. -/
def leave (m : StallMeter) : StallMeter :=
  match m.rule with
  | .none => m
  | _ => { m with active := m.active - 1 }

end StallMeter

end PageSwap.Bench
