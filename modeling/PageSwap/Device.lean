/-
# Block devices

A device has a number, a size in sectors, a request queue, and a bounded set of request tags.
A request holds a tag as long as it exists.

* `reserveTag`, `releaseTag` -- take a tag and give it back.
* `reserveTag_eq_some_iff`, `releaseTag_eq_ok_iff` -- when they can.
-/
import PageSwap.Fault

namespace PageSwap

/-- A request queue, by number. -/
abbrev QueueId := Nat

/-- A block device, by number. -/
abbrev DeviceId := Nat

/-- The number of a device: eight bits of major and eight of minor number. -/
def deviceNumber (major minor : UInt32) : UInt32 := ((major <<< 8) &&& 0xff00) ||| (minor &&& 0xff)

/-- A block device. -/
structure Device where
  number : UInt32
  /-- Size in sectors. -/
  sectors : UInt64
  queue : QueueId
  /-- Requests the queue takes at the same time. -/
  depth : Nat
  /-- Tags in use. -/
  inflight : Nat := 0
  deriving DecidableEq, Inhabited

namespace Device

/-- Requests a queue takes at the same time, unless it says otherwise. -/
def defaultDepth : UInt64 := 128

def major (d : Device) : UInt32 := (d.number >>> 8) &&& 0xff

def minor (d : Device) : UInt32 := d.number &&& 0xff

/-- Major and minor number. -/
def name (d : Device) : String := s!"{d.major}:{d.minor}"

/-- Devices are compared by number alone. -/
instance : Ord Device := ⟨fun a b => compare a.number b.number⟩

/-- Take a tag, if one is free. -/
def reserveTag (d : Device) : Option Device :=
  if d.inflight < d.depth then some { d with inflight := d.inflight + 1 } else none

/-- Give a tag back. -/
def releaseTag (d : Device) : Except Fault Device :=
  if d.inflight = 0 then .error .tagNotHeld else .ok { d with inflight := d.inflight - 1 }

/-- A tag is had exactly if one is free. -/
theorem reserveTag_eq_some_iff {d d' : Device} :
    d.reserveTag = some d' ↔ d.inflight < d.depth ∧ d' = { d with inflight := d.inflight + 1 } := by
  unfold reserveTag
  split
  · rename_i h
    simp [h, eq_comm]
  · rename_i h
    simp [h]

/-- A tag can be given back exactly if one is in use. -/
theorem releaseTag_eq_ok_iff {d d' : Device} :
    d.releaseTag = .ok d' ↔ 0 < d.inflight ∧ d' = { d with inflight := d.inflight - 1 } := by
  unfold releaseTag
  split
  · rename_i h
    simp [h]
  · rename_i h
    simp [Nat.pos_of_ne_zero h, eq_comm]

end Device

end PageSwap
