/-
# What is known of a page without its bytes

A page carries five flags, a slot in some swap area if it has one, and at most one transfer.
This module holds the flags and the two state types; the page itself is `PageSwap.Page`.

* `Flags` -- the flags a caller or the swap path may raise and clear.
* `Transfer` -- the transfer attached to a page: none, a read or a write.
* `Condition` -- the one-word summary of flags and transfer that callers look at.
-/
namespace PageSwap

/-- Flags of a page.  That the page sits in the swap cache is not among them: it is the
presence of a slot. -/
structure Flags where
  /-- Exclusive access, held by whoever moves the page in or out. -/
  locked : Bool := false
  /-- The content is valid. -/
  uptodate : Bool := false
  /-- The last transfer failed. -/
  error : Bool := false
  /-- The content has to be written back before it can be dropped. -/
  dirty : Bool := false
  /-- Reclaim wants the page gone as soon as its write finishes. -/
  reclaim : Bool := false
  deriving DecidableEq, Inhabited

/-- The transfer attached to a page.  A read and a write exclude each other. -/
inductive Transfer
  | idle
  | reading
  | writing
  deriving DecidableEq, Inhabited

/-- A point-in-time summary of a page. -/
inductive Condition
  /-- Not locked and holding no valid content. -/
  | unlocked
  /-- Locked by its owner, no transfer started. -/
  | lockedPending
  | reading
  | writing
  /-- Unlocked with valid content. -/
  | valid
  /-- The last transfer failed. -/
  | errored
  deriving DecidableEq, Inhabited

/-- The name a transfer has in messages. -/
def Transfer.name : Transfer → String
  | .idle => "Idle"
  | .reading => "ReadInFlight"
  | .writing => "WritebackInFlight"

/-- The name a condition has in messages. -/
def Condition.name : Condition → String
  | .unlocked => "Unlocked"
  | .lockedPending => "LockedPending"
  | .reading => "ReadInFlight"
  | .writing => "WritebackInFlight"
  | .valid => "Valid"
  | .errored => "Errored"

/-- A transfer in flight decides; otherwise the lock, then an error, then valid content. -/
def Condition.of (flags : Flags) : Transfer → Condition
  | .reading => .reading
  | .writing => .writing
  | .idle =>
    if flags.locked then .lockedPending
    else if flags.error then .errored
    else if flags.uptodate then .valid
    else .unlocked

end PageSwap
