/-
# What a disk does

A disk is known by its content, a `Storage`.  A transfer moves a page to or from a place on it or
fails and leaves everything as it was; nothing but transfers, and the notice that a slot is free,
changes what a disk holds.

* `Moved` -- one transfer, and `Moved.write_page`, `Moved.read_page` for a page on its block.
* `Backend.Drives` -- what is asked of the driver of a disk.
* `ramDisk`, `ramUp`, `ramFilled` -- disks in memory with their driver, brought up, and a page to
  write to one.
-/
import Mathlib.Logic.Function.Basic
import PageSwap.Proofs.Completions
import PageSwap.Storage

namespace PageSwap

variable {σ : Type}

/-! ## 1. Pages on a disk -/

/-- The content of a page block. -/
def Storage.page (disk : Storage) (block : Nat) : Bytes := disk.read (block * 4096) 4096

/-- A page written to its block is read back, and no other block has changed. -/
theorem Storage.page_write (disk : Storage) {bytes : Bytes} (hsize : bytes.size = 4096)
    (block block' : Nat) :
    (disk.write (block * 4096) bytes).page block' =
      if block' = block then bytes else disk.page block' := by
  unfold Storage.page
  split
  · rename_i h
    subst h
    rw [← hsize]
    exact disk.read_write _ _
  · exact disk.read_write_of_disjoint (by omega)

/-! ## 2. Transfers -/

/-- **A transfer** of a page with the bytes `old` at `sector`: the page holds `new` after it, and
the disk has gone from `before` to `after`. -/
def Moved (direction : Direction) (status : Status) (sector : UInt64) (old : Bytes)
    (before : Storage) (new : Bytes) (after : Storage) : Prop :=
  match status, direction with
  | .error _, _ => new = old ∧ after = before
  | .ok (), .write => new = old ∧ after = before.write (sector.toNat * 512) old
  | .ok (), .read => new = before.read (sector.toNat * 512) old.size ∧ after = before

section

variable {direction : Direction} {sector : UInt64} {block : Nat} {old new : Bytes}
  {before after : Storage}

theorem Moved.failed {e : Errno} (h : Moved direction (.error e) sector old before new after) :
    new = old ∧ after = before := h

/-- A write leaves the page as it is, and changes the content of its block only. -/
theorem Moved.write_page (h : Moved .write (.ok ()) sector old before new after)
    (hsector : sector.toNat * 512 = block * 4096) (hsize : old.size = 4096) :
    new = old ∧ ∀ other, after.page other = if other = block then old else before.page other := by
  obtain ⟨hnew, rfl⟩ := h
  rw [hsector]
  exact ⟨hnew, before.page_write hsize _⟩

/-- A read leaves the disk as it is, and fills the page with the content of its block. -/
theorem Moved.read_page (h : Moved .read (.ok ()) sector old before new after)
    (hsector : sector.toNat * 512 = block * 4096) (hsize : old.size = 4096) :
    new = before.page block ∧ after = before := by
  obtain ⟨rfl, hafter⟩ := h
  rw [hsector, hsize]
  exact ⟨rfl, hafter⟩

end

/-- **What is asked of the driver of a disk**: it transfers pages, and changes the disk in no other
way.  `disk` is the content of the disk behind `queue`. -/
structure Backend.Drives (b : Backend σ) (queue : QueueId) (disk : σ → Storage) : Prop where
  transfer : ∀ {sector direction p page w status bytes w'},
    b.queues.transfer queue sector direction p page w = .ok ((status, bytes), w') →
      Moved direction status sector page.bytes (disk w) bytes (disk w')
  settle : ∀ {f q page w status bytes w'},
    b.queues.settle queue f q page w = .ok ((status, bytes), w') →
      Moved q.direction status q.sector page.bytes (disk w) bytes (disk w')
  chore : ∀ {w w'}, Chore b w w' → disk w' = disk w

theorem Backend.Drives.chores {b : Backend σ} {queue : QueueId} {disk : σ → Storage}
    (h : b.Drives queue disk) {w w' : σ} (hw : Chores b w w') : disk w' = disk w := by
  induction hw with
  | refl => rfl
  | tail _ hstep ih => exact (h.chore hstep).trans ih

/-- What is done about the slot of a page that was read: if it is given up, the driver is told of
this one slot. -/
theorem noticed_cases (b : Backend σ) {area : Area} {d : DeviceId}
    (harea : area.backing = .device d)
    (devices : Table Device) (slot : Slot) (w : σ) :
    (∃ w', Chores b w w' ∧ noticed b area devices (some slot) w = (false, w')) ∨
      ∃ w', Chores b w w' ∧ noticed b area devices (some slot) w =
        (true, b.queues.slotFreed (devices.get d).queue slot.offset w') := by
  unfold noticed
  rw [harea]
  dsimp only
  split
  · split
    · exact Or.inr ⟨_, .single (.count _ _ w), rfl⟩
    · exact Or.inl ⟨_, .single (.count _ _ w), rfl⟩
  · exact Or.inl ⟨w, .refl, rfl⟩

/-! ## 3. Disks in memory -/

/-- Disks in memory, one behind each queue, and a file. -/
structure RamDisk where
  disk : QueueId → Storage := fun _ => {}
  file : Storage := {}
  /-- The drivers transfer pages without a request. -/
  direct : Bool := false

/-- The disk behind `queue` is written to. -/
def RamDisk.write (w : RamDisk) (queue : QueueId) (position : Nat) (bytes : Bytes) : RamDisk :=
  { w with disk := Function.update w.disk queue ((w.disk queue).write position bytes) }

/-- A transfer that does not fail. -/
def RamDisk.move (w : RamDisk) (queue : QueueId) (sector : UInt64) (direction : Direction)
    (page : Page) : Transferred × RamDisk :=
  match direction with
  | .write => ((.ok (), page.bytes), w.write queue (sector.toNat * 512) page.bytes)
  | .read => ((.ok (), (w.disk queue).read (sector.toNat * 512) page.bytes.size), w)

/-- Disks in memory whose requests stay with the driver until they are finished.  `Steady` ones keep
a slot they are told is free, and their transfers do not fail; otherwise the slot is wiped, and a
request fails if it is finished with an error. -/
def ramDisk (steady : Bool) : Backend RamDisk where
  queues :=
    { maxPages := fun _ _ => 64
      depth := fun _ _ => 2
      wantsFreed := fun _ _ => true
      synchronous := fun _ _ => false
      submit := fun _ _ _ _ _ w => ((0, []), w)
      poll := fun _ _ _ w => ((false, []), w)
      settle := fun queue f q page w => .ok <|
        match steady, f.status with
        | false, some (.error e) => ((.error e, page.bytes), w)
        | _, _ => w.move queue q.sector q.direction page
      transfer := fun queue sector direction _ page w => .ok <|
        if w.direct then w.move queue sector direction page
        else ((.error Errno.unsupported, page.bytes), w)
      slotFreed := fun queue offset w =>
        if steady then w else w.write queue (offset.toNat * 4096) (Bytes.fill 4096 0) }
  files :=
    { blockMap := fun _ w =>
        ⟨12, w.file.size.toUInt64, fun i => if i < 8 then some (23 - i) else none⟩
      read := fun _ position bytes w =>
        ((.ok bytes.size.toUInt64, w.file.read position.toNat bytes.size), w)
      write := fun _ position pieces w =>
        let bytes := pieces.foldl (· ++ ·) Bytes.empty
        (.ok bytes.size.toUInt64, { w with file := w.file.write position.toNat bytes })
      dirtied := fun _ _ page w => ((!page.flags.dirty, page.setDirty), w) }
  slotMaps :=
    { count := fun _ _ w => (1, w)
      tryFree := fun _ _ page w => ((false, page), w) }
  front := none
  statistics :=
    { record := fun _ w => w
      recordMany := fun _ _ w => w
      accumulate := fun _ w => w
      cycles := fun w => (0, w) }
  stalls := { enter := fun w => (0, w), leave := fun _ w => w }
  relax := fun w => ([], w)
  ending := fun _ _ => pure ()
  patience := 0

theorem RamDisk.disk_write (w : RamDisk) (queue : QueueId) (position : Nat) (bytes : Bytes) :
    (w.write queue position bytes).disk queue = (w.disk queue).write position bytes :=
  Function.update_self ..

theorem ramDisk_move (w : RamDisk) (queue : QueueId) (sector : UInt64) (direction : Direction)
    (page : Page) :
    Moved direction (w.move queue sector direction page).1.1 sector page.bytes (w.disk queue)
      (w.move queue sector direction page).1.2
      ((w.move queue sector direction page).2.disk queue) := by
  cases direction with
  | write => exact ⟨rfl, w.disk_write ..⟩
  | read => exact ⟨rfl, rfl⟩

theorem RamDisk.status_move (w : RamDisk) (queue : QueueId) (sector : UInt64)
    (direction : Direction) (page : Page) : (w.move queue sector direction page).1.1 = .ok () := by
  cases direction <;> rfl

/-- A transfer leaves the disks behind other queues alone. -/
theorem RamDisk.disk_move_of_ne (w : RamDisk) {queue other : QueueId} (h : other ≠ queue)
    (sector : UInt64) (direction : Direction) (page : Page) :
    (w.move queue sector direction page).2.disk other = w.disk other := by
  cases direction with
  | write => exact Function.update_of_ne h ..
  | read => rfl

theorem ramDisk_chore {steady : Bool} {w w' : RamDisk} (h : Chore (ramDisk steady) w w') :
    w' = w := by
  cases h with
  | turn h => exact absurd h List.not_mem_nil
  | _ => rfl

/-- The driver does what is asked of it. -/
theorem ramDisk_drives (steady : Bool) (queue : QueueId) :
    (ramDisk steady).Drives queue (·.disk queue) where
  transfer := by
    intro sector direction p page w status bytes w' h
    injection h with h
    by_cases hdirect : w.direct = true
    · rw [if_pos hdirect] at h
      have hmove := ramDisk_move w queue sector direction page
      rw [h] at hmove
      exact hmove
    · rw [if_neg hdirect] at h
      injection h with h hw
      injection h with hstatus hbytes
      subst hstatus hbytes hw
      exact ⟨rfl, rfl⟩
  settle := by
    intro f q page w status bytes w' h
    injection h with h
    split at h
    · injection h with h hw
      injection h with hstatus hbytes
      subst hstatus hbytes hw
      exact ⟨rfl, rfl⟩
    · have hmove := ramDisk_move w queue q.sector q.direction page
      rw [h] at hmove
      exact hmove
  chore := fun h => congrArg (·.disk queue) (ramDisk_chore h)

/-- An area on device 0 or file 0. -/
def ramSpec (backing : Backing) : AreaSpec := { number := 0, backing, slotMap := 0 }

/-- A single device, which takes two requests, and a file of eight pages. -/
def ramStart : System RamDisk :=
  { devices := ⟨#[{ number := 0, sectors := 256, queue := 0, depth := 2 }]⟩
    world := { file := { size := 32768 } } }

/-- The first eight pages of the device. -/
def ramArea : Area :=
  { number := 0, backing := .device 0, slotMap := 0, table := ⟨[⟨0, 8, 0⟩]⟩, nrExtents := 1,
    max := 8, pages := 7, span := 7 }

/-- The state after an area of eight pages is brought up. -/
def ramUp (steady : Bool) (backing : Backing) : System RamDisk :=
  match (swapOn (ramDisk steady) (ramSpec backing) 8) ramStart with
  | .ok (_, s) => s
  | .error _ => ramStart

theorem swapOn_ramDisk (steady : Bool) :
    (swapOn (ramDisk steady) (ramSpec (.device 0)) 8) ramStart =
      .ok (.ok ramArea, ramUp steady (.device 0)) := rfl

/-- Page 0 gets slot 1. -/
def ramTaken (steady : Bool) (backing : Backing) : System RamDisk :=
  let s := ramUp steady backing
  let page : Page := { flags.locked := true, slot := some ⟨1⟩, bytes := Bytes.fill 4096 0 }
  { s with pages := s.pages.set 0 page }

/-- It is filled with sevens. -/
def ramFilled (steady : Bool) (backing : Backing) : System RamDisk :=
  let s := ramTaken steady backing
  let page := { s.pages.get 0 with bytes := Bytes.fill 4096 7, flags.dirty := true }
  { s with pages := s.pages.set 0 page }

end PageSwap
