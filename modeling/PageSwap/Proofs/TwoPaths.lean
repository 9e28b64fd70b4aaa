/-
# Two paths to a device

A driver that transfers pages directly and one that only takes requests, finishing each of them as
soon as it gets it, come to the same.  Both are made from the same parts (`Setup`): what is on the
disk, how a transfer changes it, who counts what.  `Setup.outcome` says what a call leaves, without
saying on which path, and each path is shown to leave that.

The two systems are not related to each other but each to this third thing.  A relation between them
would have to follow both through a call, and in the middle of one they have nothing in common: one
has a request, a tag out and a reader, the other none.  At the end of a call they differ in requests
that came and went, in sleepers and in what the console shows, so `Left` looks at everything but
these.  The third thing is a function, which makes it do for any number of calls: equal states and
equal jobs leave equal outcomes.

* `Setup.writeDevice_leaves`, `Setup.readDevice_leaves` -- one transfer, on either path.
* `Setup.run_leaves` -- a call leaves its outcome, on either path.
* `paths_agree` -- whatever is called, both systems look the same after every call.
-/
import PageSwap.Proofs.Bounds
import PageSwap.Proofs.Handshake

namespace PageSwap

/-! ## 1. Two backends from the same parts -/

/-- What the collaborators of a setup remember. -/
structure SetupState (δ κ : Type) where
  /-- What is on the disks. -/
  disk : δ
  /-- The slots that were given up, the last one first. -/
  freed : List (QueueId × UInt64) := []
  /-- What counters and the account of stalls remember. -/
  ledger : κ

/-- The counters and the account of stalls change, and nothing else. -/
def SetupState.book {δ κ : Type} (w : SetupState δ κ) (f : κ → κ) : SetupState δ κ :=
  { w with ledger := f w.ledger }

/-- The collaborators of two systems.  A transfer depends on what is on the disks, on the bytes of
the page, on where and in which direction they go; one that fails changes nothing.  Slots have fixed
counts, and there is no front store. -/
structure Setup (δ κ : Type) where
  transfer : QueueId → (sector : UInt64) → Direction → Bytes → δ → Except Errno (Bytes × δ)
  maxPages : QueueId → UInt64
  depth : QueueId → UInt64
  wantsFreed : QueueId → Bool
  /-- What giving a slot up does to the disk. -/
  wipe : QueueId → (offset : UInt64) → δ → δ
  count : SlotMapId → (offset : UInt64) → UInt64
  tryFree : SlotMapId → PageId → Page → Bool × Page
  /-- A slot map leaves a page as large and as held as it was. -/
  tryFree_keeps : ∀ m p page, (tryFree m p page).2.order = page.order ∧
    (tryFree m p page).2.flags.locked = page.flags.locked ∧
    (tryFree m p page).2.transfer = page.transfer
  files : Files (SetupState δ κ)
  statistics : Statistics κ
  stalls : Stalls κ
  /-- Enough for a reader to notice that its read is over. -/
  patience : Nat

namespace Setup

variable {δ κ : Type}

/-- A transfer, as a driver reports it. -/
def move (u : Setup δ κ) (queue : QueueId) (sector : UInt64) (direction : Direction) (bytes : Bytes)
    (w : SetupState δ κ) : Transferred × SetupState δ κ :=
  match u.transfer queue sector direction bytes w.disk with
  | .ok (bytes, disk) => ((.ok (), bytes), { w with disk })
  | .error e => ((.error e, bytes), w)

/-- The backend whose driver transfers pages directly, or the one whose driver does not.  Requests
are finished inside `submit`. -/
def backend (u : Setup δ κ) (direct : Bool) : Backend (SetupState δ κ) where
  queues :=
    { maxPages := fun queue _ => u.maxPages queue
      depth := fun queue _ => u.depth queue
      wantsFreed := fun queue _ => u.wantsFreed queue
      synchronous := fun _ _ => true
      submit := fun _ r _ _ _ w => ((0, [{ request := r }]), w)
      poll := fun _ _ _ w => ((false, []), w)
      settle := fun queue _ q page w => .ok (u.move queue q.sector q.direction page.bytes w)
      transfer := fun queue sector direction _ page w => .ok <|
        if direct then u.move queue sector direction page.bytes w
        else ((.error Errno.unsupported, page.bytes), w)
      slotFreed := fun queue offset w =>
        { w with disk := u.wipe queue offset w.disk, freed := (queue, offset) :: w.freed } }
  files := u.files
  slotMaps :=
    { count := fun m offset w => (u.count m offset, w)
      tryFree := fun m p page w => (u.tryFree m p page, w) }
  front := none
  statistics :=
    { record := fun t w => w.book (u.statistics.record t)
      recordMany := fun t n w => w.book (u.statistics.recordMany t n)
      accumulate := fun n w => w.book (u.statistics.accumulate n)
      cycles := fun w =>
        ((u.statistics.cycles w.ledger).1, w.book fun k => (u.statistics.cycles k).2) }
  stalls :=
    { enter := fun w => ((u.stalls.enter w.ledger).1, w.book fun k => (u.stalls.enter k).2)
      leave := fun n w => w.book (u.stalls.leave n) }
  relax := fun w => ([], w)
  ending := fun _ _ => pure ()
  patience := u.patience + 3

end Setup

/-! ## 2. What a call leaves -/

/-- What a call on a page leaves: its answer, the page, and the world. -/
structure Outcome (σ : Type) where
  status : Status
  page : Page
  world : σ

/-- A call on page `p` of `s` has left `o`.  Requests that came and went, sleepers and the console
are not looked at. -/
structure Left {σ : Type} (s : System σ) (p : PageId) (o : Outcome σ) (answer : Status)
    (s' : System σ) : Prop where
  answer : answer = o.status
  pages : s'.pages = s.pages.set p o.page
  devices : ∀ d, s'.devices.get d = s.devices.get d
  registry : s'.registry = s.registry
  world : s'.world = o.world

namespace Setup

variable {δ κ : Type}

/-- What a write to a sector leaves. -/
def written (u : Setup δ κ) (queue : QueueId) (sector : UInt64) (page : Page)
    (w : SetupState δ κ) : Outcome (SetupState δ κ) :=
  let (moved, w) := u.move queue sector .write page.bytes w
  { status := .ok ()
    page := page.released.ended .write moved.1 moved.2 false
    world := (u.backend false).countedOut page w }

/-- What a read from a sector leaves. -/
def filled (u : Setup δ κ) (devices : Table Device) (a : Area) (queue : QueueId) (sector : UInt64)
    (page : Page) (w : SetupState δ κ) : Outcome (SetupState δ κ) :=
  let (moved, w) := u.move queue sector .read page.bytes w
  let freed := match moved.1 with
    | .ok () => noticed (u.backend false) a devices page.slot w
    | .error _ => (false, w)
  { status := .ok ()
    page := page.ended .read moved.1 moved.2 freed.1
    world := (u.backend false).statistics.record .pageIn freed.2 }

/-- What a write to a slot leaves. -/
def slotWritten (u : Setup δ κ) (devices : Table Device) (a : Area) (page : Page)
    (w : SetupState δ κ) : Outcome (SetupState δ κ) :=
  match a.sector page.slot, a.backing.device? with
  | .ok sector, some d => u.written (devices.get d).queue sector page w
  | .error (.refused why), _ => { status := .error why.errno, page := page.spilled, world := w }
  | _, _ => { status := .ok (), page, world := w }

/-- What a write leaves if the slot map was asked first, and this is its answer. -/
def droppedOrWritten (u : Setup δ κ) (devices : Table Device) (a : Area) (tried : Bool × Page)
    (w : SetupState δ κ) : Outcome (SetupState δ κ) :=
  if tried.1 then { status := .ok (), page := tried.2.released, world := w }
  else u.slotWritten devices a tried.2 ((u.backend false).statistics.cycles w).2

/-- What a read from a slot leaves. -/
def slotFilled (u : Setup δ κ) (devices : Table Device) (a : Area) (page : Page)
    (w : SetupState δ κ) : Outcome (SetupState δ κ) :=
  match a.sector page.slot, a.backing.device? with
  | .ok sector, some d => u.filled devices a (devices.get d).queue sector page w
  | .error (.refused why), _ => { status := .error why.errno, page := page.unread, world := w }
  | _, _ => { status := .ok (), page, world := w }

end Setup

/-- What a caller does. -/
inductive Job
  /-- It changes a page. -/
  | edit (p : PageId) (page : Page)
  /-- It writes a page out. -/
  | pageOut (p : PageId) (w : Writeback)
  /-- It writes a page to its slot, with the ending of writes. -/
  | pageOutPast (p : PageId) (w : Writeback)
  /-- It reads a page in. -/
  | pageIn (p : PageId) (pace : Pace)

namespace Job

def page : Job → PageId
  | .edit p _ => p
  | .pageOut p _ => p
  | .pageOutPast p _ => p
  | .pageIn p _ => p

def run {σ : Type} (b : Backend σ) : Job → Run σ Status
  | .edit p page => do
    Run.editPage p fun _ => page
    return .ok ()
  | .pageOut p w => PageSwap.pageOut b p w
  | .pageOutPast p w => PageSwap.pageOutPast b p w .write
  | .pageIn p pace => PageSwap.pageIn b p pace

end Job

namespace Setup

variable {δ κ : Type}

/-- **What a job leaves**, on whichever path. -/
def outcome (u : Setup δ κ) (s : System (SetupState δ κ)) (j : Job) :
    Outcome (SetupState δ κ) :=
  let page := s.pages.get j.page
  match j, s.areaAt j.page with
  | .edit _ page, _ => { status := .ok (), page, world := s.world }
  | .pageIn _ _, none =>
    { status := .error Refusal.noSlot.errno, page := page.unread, world := s.world }
  | _, none =>
    { status := .error Refusal.noSlot.errno, page := page.spilled, world := s.world }
  | .pageOut p _, some a =>
    u.droppedOrWritten s.devices a (u.tryFree a.slotMap p page.clearDirty) s.world
  | .pageOutPast _ _, some a => u.slotWritten s.devices a page s.world
  | .pageIn _ _, some a =>
    let stall := (u.backend false).stalls.enter s.world
    let o := u.slotFilled s.devices a page stall.2
    { o with world := (u.backend false).stalls.leave stall.1 o.world }

end Setup

/-! ## 3. Counting commutes with moving -/

namespace Setup

variable {δ κ : Type} {u : Setup δ κ} {direct : Bool}

theorem move_book (queue : QueueId) (sector : UInt64) (direction : Direction) (bytes : Bytes)
    (w : SetupState δ κ) (f : κ → κ) :
    u.move queue sector direction bytes (w.book f) =
      ((u.move queue sector direction bytes w).1,
        (u.move queue sector direction bytes w).2.book f) := by
  have hdisk : (w.book f).disk = w.disk := rfl
  unfold move
  rw [hdisk]
  cases u.transfer queue sector direction bytes w.disk with
  | ok moved => rfl
  | error e => rfl

/-- What is counted for a page that was written. -/
def countOut (u : Setup δ κ) (page : Page) (k : κ) : κ :=
  u.statistics.recordMany .pageOut page.nrPages
    (if page.isHuge then u.statistics.record .hugePageOut k else k)

theorem countedOut_eq (page : Page) (w : SetupState δ κ) :
    (u.backend direct).countedOut page w = w.book (u.countOut page) := by
  unfold Backend.countedOut countOut
  by_cases hhuge : page.isHuge = true
  · simp only [if_pos hhuge]; rfl
  · simp only [if_neg hhuge]; rfl

theorem noticed_book (a : Area) (devices : Table Device) (slot : Option Slot)
    (w : SetupState δ κ) (f : κ → κ) :
    noticed (u.backend direct) a devices slot (w.book f) =
      ((noticed (u.backend false) a devices slot w).1,
        (noticed (u.backend false) a devices slot w).2.book f) := by
  unfold noticed
  rcases slot with _ | slot
  · rfl
  rcases a.backing with d | ⟨file, d⟩ | file
  · dsimp only [backend]
    by_cases hwants : u.wantsFreed (devices.get d).queue = true
    · by_cases hcount : u.count a.slotMap slot.offset = 1
      · simp only [hwants, hcount, if_true]; rfl
      · simp only [hwants, hcount, if_true, if_false]
    · simp only [hwants, if_false, Bool.false_eq_true]
  · rfl
  · rfl

/-- The direct path moves what there is to move, or the page is as it was. -/
theorem transfer_cases (u : Setup δ κ) (direct : Bool) (queue : QueueId) (sector : UInt64)
    (direction : Direction) (p : PageId) (page : Page) (w : SetupState δ κ) :
    (∃ bytes disk, u.move queue sector direction page.bytes w = ((.ok (), bytes), { w with disk }) ∧
      (u.backend direct).queues.transfer queue sector direction p page w =
        .ok ((.ok (), bytes), { w with disk })) ∨
      ∃ e, (u.backend direct).queues.transfer queue sector direction p page w =
        .ok ((.error e, page.bytes), w) := by
  dsimp only [backend]
  cases direct with
  | false => exact Or.inr ⟨_, rfl⟩
  | true =>
    rw [if_pos rfl]
    unfold move
    cases u.transfer queue sector direction page.bytes w.disk with
    | ok moved => exact Or.inl ⟨moved.1, moved.2, rfl, rfl⟩
    | error e => exact Or.inr ⟨e, rfl⟩

end Setup

/-! ## 4. A request that is finished at once -/

section

variable {σ : Type} {b : Backend σ} {s s' : System σ} {p : PageId} {o : Outcome σ}
  {stop : Fault → Prop}

/-- A step for which a reader needs nothing from the outside. -/
theorem await_move {d : DeviceId} {cookie : UInt64} {i : SleeperId} {n : Nat}
    {reader reader' : Reader} {x : Sleeper} {post : Unit → System σ → Prop}
    (hdemand : reader.demand = .none)
    (hstep : reader.step false (s.sleepers.get i) = .ok (reader', x))
    (hrest : (await b d cookie i n reader').wp post stop
      { s with sleepers := s.sleepers.set i x }) :
    (await b d cookie i (n + 1) reader).wp post stop s := by
  rw [await_eq_move, hdemand]
  simp only [reduceCtorEq, if_false, pure_bind, Reader.move, Run.wp_bind, Run.wp_sleeper, hstep,
    Run.wp_check_ok, Run.wp_setSleeper, Run.wp_pure]
  exact hrest

/-- **A reader whose waker is gone leaves** without looking around. -/
theorem await_taken {d : DeviceId} {cookie : UInt64} {i : SleeperId} {n : Nat}
    {post : Unit → System σ → Prop} (htaken : (s.sleepers.get i).waiter.isPending = false)
    (hpost : ∀ sleepers, post () { s with sleepers }) :
    (await b d cookie i (n + 3) Reader.start).wp post stop s := by
  have hdone : ∀ t budget,
      (await b d cookie i n ⟨.done, budget⟩).wp post stop t ↔ post () t := by
    intro t budget
    cases n with
    | zero => exact Iff.rfl
    | succ n => exact Iff.rfl
  refine await_move rfl rfl ?_
  have hcheck : ∀ budget x, x.waiter.isPending = false →
      (⟨.check, budget⟩ : Reader).step false x = .ok (⟨.leave, budget⟩, x) := by
    intro budget x hx
    unfold Reader.step
    dsimp only
    rw [hx]
    rfl
  refine await_move rfl (hcheck _ _ (by rw [Table.get_set_self]; exact htaken)) ?_
  refine await_move rfl rfl ?_
  exact (hdone _ _).mpr (hpost _)

/-- The page and the world before the call only show through the outcome. -/
theorem Left.of_edit {page : Page} {w : σ} {answer : Status}
    (h : Left { s with pages := s.pages.set p page, world := w } p o answer s') :
    Left s p o answer s' :=
  ⟨h.answer, by rw [h.pages, Table.set_set], h.devices, h.registry, h.world⟩

end

namespace Setup

variable {δ κ : Type} {u : Setup δ κ} {direct : Bool} {s : System (SetupState δ κ)} {p : PageId}
  {a : Area} {d : DeviceId} {sector : UInt64} {stop : Fault → Prop}

/-- Page `p`, held, can be moved to or from `sector` of device `d` by a request. -/
structure Fits (u : Setup δ κ) (s : System (SetupState δ κ)) (p : PageId) (a : Area) (d : DeviceId)
    (sector : UInt64) : Prop where
  held : (s.pages.get p).Held
  sector : a.sector (s.pages.get p).slot = .ok sector
  room : (s.pages.get p).nrPages ≤ u.maxPages (s.devices.get d).queue
  free : (s.devices.get d).inflight < (s.devices.get d).depth

/-- After an attempt without a request, it still can. -/
theorem Fits.again (h : u.Fits s p a d sector) :
    u.Fits { s with pages := s.pages.set p { s.pages.get p with transfer := .idle } } p a d
      sector where
  held := by rw [Table.get_set_self]; exact ⟨h.held.1, rfl⟩
  sector := by rw [Table.get_set_self]; exact h.sector
  room := by rw [Table.get_set_self]; exact h.room
  free := h.free

/-- A request is finished as soon as it is handed over. -/
theorem submit_wp {r : RequestId} {q : Request} {post : UInt64 → System (SetupState δ κ) → Prop}
    (hq : s.requests.get r = some q) (hr : Ready s q)
    (hpost : ∀ console,
      let moved := u.move (s.devices.get q.device).queue q.sector q.direction
        (s.pages.get q.page).bytes s.world
      post 0 { s.finished (u.backend direct) r q moved.1.1 moved.1.2 moved.2 with console }) :
    (submit (u.backend direct) r q).wp post stop s := by
  unfold submit
  simp only [Run.wp_bind, Run.wp_device, Run.wp_log, Run.wp_page, Run.wp_world]
  change (PageSwap.finish (u.backend direct) { request := r } >>= fun _ => pure ()).wp _ _ _
  rw [Run.wp_bind]
  refine finish_wp (b := u.backend direct) hq ⟨hr.ending, hr.transfer, hr.locked, hr.tag⟩
    (fun e he => ?_) fun status bytes w console hsettle => ?_
  · cases he
  · injection hsettle with hmove
    have hmove : u.move (s.devices.get q.device).queue q.sector q.direction
      (s.pages.get q.page).bytes s.world = ((status, bytes), w) := hmove
    have hpost := hpost console
    dsimp only at hpost
    rw [hmove] at hpost
    exact hpost

/-- A request for a page that fits is had while the device has a tag. -/
theorem allocRequest_wp {direction : Direction} {ending : Ending}
    {post : Except Refusal Request → System (SetupState δ κ) → Prop}
    (hfits : u.Fits s p a d sector)
    (hpost : post (.ok { direction, sector, page := p, device := d, area := a, ending }) { s with
      devices := s.devices.set d
        { s.devices.get d with inflight := (s.devices.get d).inflight + 1 } }) :
    (allocRequest (u.backend direct) direction a d p ending).wp post stop s := by
  refine PageSwap.allocRequest_wp hfits.sector (fun hlarge => ?_) (fun hnone => ?_)
    fun dev _ htag => ?_
  · exact absurd hlarge (UInt64.not_lt.mpr hfits.room)
  · rw [Device.reserveTag, if_pos hfits.free] at hnone
    exact absurd hnone nofun
  · obtain ⟨-, rfl⟩ := Device.reserveTag_eq_some_iff.mp htag
    exact hpost

/-- A write by a request. -/
theorem writeRequest_leaves {w : Writeback} (hfits : u.Fits s p a d sector) :
    (writeRequest (u.backend direct) a d p w .write).wp
      (Left s p (u.written (s.devices.get d).queue sector (s.pages.get p) s.world)) stop s := by
  obtain ⟨hlocked, hidle⟩ := hfits.held
  unfold writeRequest
  rw [Run.wp_bind]
  refine allocRequest_wp hfits ?_
  simp only [Run.wp_bind, Run.wp_addRequest]
  refine countPageOut_wp_iff.mpr (startWrite_wp hlocked hidle (submit_wp
    (Table.get_set_self _ _ _) ⟨rfl, ?_, fun hread => ?_, ?_⟩ fun console => ?_))
  · dsimp only [Request.associate]
    rw [Table.get_set_self]
    rfl
  · cases hread
  · dsimp only [Request.associate]
    rw [Table.get_set_self]
    exact Nat.succ_pos _
  · dsimp only [Request.associate, System.finished, noticedBy]
    simp only [Table.get_set_self, Table.set_set, countedOut_eq, move_book, Nat.add_sub_cancel]
    exact ⟨rfl, rfl, Table.get_set_get _ _, rfl, by dsimp only [written]; rw [countedOut_eq]; rfl⟩

/-- Of the devices, only their queues matter. -/
theorem filled_congr (u : Setup δ κ) {devices devices' : Table Device}
    (h : ∀ d, (devices'.get d).queue = (devices.get d).queue) (a : Area) (queue : QueueId)
    (sector : UInt64) (page : Page) (w : SetupState δ κ) :
    u.filled devices' a queue sector page w = u.filled devices a queue sector page w := by
  have hnoticed : ∀ w, noticed (u.backend false) a devices' page.slot w =
      noticed (u.backend false) a devices page.slot w := by
    intro w
    unfold noticed
    simp only [h]
  unfold filled
  simp only [hnoticed]

/-- A read that is handed over is finished at once. -/
theorem issue_wp {q : Request} {post : UInt64 → System (SetupState δ κ) → Prop}
    {o : Outcome (SetupState δ κ)}
    (ho : u.filled s.devices q.area (s.devices.get q.device).queue q.sector (s.pages.get q.page)
      s.world = o)
    (hdirection : q.direction = .read) (hending : q.ending = .read)
    (hheld : (s.pages.get q.page).Held) (htag : 0 < (s.devices.get q.device).inflight)
    (hpost : ∀ requests console, post 0 { s with
      pages := s.pages.set q.page o.page
      devices := s.devices.set q.device
        { s.devices.get q.device with inflight := (s.devices.get q.device).inflight - 1 }
      requests, console
      sleepers := match q.direction, q.sleeper with
        | .read, some i => s.sleepers.set i (s.sleepers.get i).wake
        | _, _ => s.sleepers
      world := o.world }) :
    (readRequest.issue (u.backend direct) q.page q).wp post stop s := by
  obtain ⟨hlocked, hidle⟩ := hheld
  refine issue_leaves hidle (submit_wp (Table.get_set_self _ _ _) ⟨?_, ?_, fun _ => ?_, htag⟩
    fun console => ?_)
  · rw [hdirection]
    exact hending
  · rw [hdirection, Table.get_set_self]
    rfl
  · rw [Table.get_set_self]
    exact hlocked
  · have hpost := hpost (s.requests.set s.requests.fresh none) console
    have hcount : (u.backend direct).statistics.record .pageIn s.world =
      s.world.book (u.statistics.record .pageIn) := rfl
    have hbook : ∀ w, (u.backend false).statistics.record .pageIn w =
      w.book (u.statistics.record .pageIn) := fun _ => rfl
    subst ho
    dsimp only [System.finished, noticedBy]
    simp only [hdirection, Table.get_set_self, Table.set_set, hcount, move_book]
    dsimp only [filled] at hpost
    rcases hmove : u.move (s.devices.get q.device).queue q.sector .read (s.pages.get q.page).bytes
      s.world with ⟨⟨status, bytes⟩, w⟩
    simp only [hdirection, hmove, hbook] at hpost ⊢
    cases status with
    | ok _ =>
      simp only [noticed_book]
      exact hpost
    | error e => exact hpost

/-- A tag is taken, a read is handed over, and the tag is back. -/
theorem issued_wp {q : Request} {post : UInt64 → System (SetupState δ κ) → Prop}
    {sleepers : Table Sleeper} (hdirection : q.direction = .read) (hending : q.ending = .read)
    (hheld : (s.pages.get q.page).Held)
    (hpost : ∀ s', Left s q.page (u.filled s.devices q.area (s.devices.get q.device).queue q.sector
        (s.pages.get q.page) s.world) (.ok ()) s' →
      (∀ i, q.sleeper = some i → s'.sleepers = sleepers.set i (sleepers.get i).wake) →
      post 0 s') :
    (readRequest.issue (u.backend direct) q.page q).wp post stop { s with
      devices := s.devices.set q.device
        { s.devices.get q.device with inflight := (s.devices.get q.device).inflight + 1 }
      sleepers } := by
  -- the tag does not show in the outcome
  have hqueue : ∀ d, ((s.devices.set q.device
      { s.devices.get q.device with inflight := (s.devices.get q.device).inflight + 1 }).get
        d).queue = (s.devices.get d).queue := by
    intro d
    rw [Table.get_set]
    split
    · rename_i hd
      rw [hd]
    · rfl
  refine issue_wp ((u.filled_congr hqueue _ _ _ _ _).trans (by rw [Table.get_set_self])) hdirection
    hending hheld (by rw [Table.get_set_self]; exact Nat.succ_pos _) fun requests console =>
      hpost _ ⟨rfl, rfl, ?_, rfl, rfl⟩ fun i hi => ?_
  · simp only [Table.get_set_self, Table.set_set]
    exact Table.get_set_get _ _
  · rw [hdirection, hi]

/-- A read by a request, whether its caller waits or not. -/
theorem readRequest_leaves {pace : Pace} (hfits : u.Fits s p a d sector) :
    (readRequest (u.backend direct) a d p pace).wp
      (Left s p (u.filled s.devices a (s.devices.get d).queue sector (s.pages.get p) s.world))
      stop s := by
  unfold readRequest
  rw [Run.wp_bind]
  refine allocRequest_wp hfits ?_
  dsimp only
  let q : Request :=
    { direction := .read, sector, page := p, device := d, area := a, ending := .read }
  by_cases hpace : pace = .await
  · rw [if_pos hpace, Run.wp_bind, Run.wp_addSleeper, Run.wp_bind]
    refine issued_wp (q := q.awaitedBy s.sleepers.fresh) rfl rfl hfits.held
      fun s' hleft hwoken => ?_
    have hsleepers := hwoken _ rfl
    rw [Run.wp_bind]
    refine await_taken ?_ fun sleepers =>
      ⟨hleft.answer, hleft.pages, hleft.devices, hleft.registry, hleft.world⟩
    dsimp only
    rw [hsleepers, Table.get_set_self, Table.get_set_self]
    rfl
  · rw [if_neg hpace, Run.wp_bind]
    exact issued_wp (q := q) rfl rfl hfits.held fun s' hleft _ => hleft

/-- **A write to a device comes to the same on either path.** -/
theorem writeDevice_leaves {w : Writeback} (hfits : u.Fits s p a d sector) :
    (writeDevice (u.backend direct) a d p w .write).wp
      (Left s p (u.written (s.devices.get d).queue sector (s.pages.get p) s.world)) stop s := by
  obtain ⟨hlocked, hidle⟩ := hfits.held
  unfold writeDevice transferNow
  simp only [Run.wp_bind, Run.wp_page, Run.wp_attempt, hfits.sector]
  refine Run.wp_tryPage_of_ok (startWrite_of hidle) ?_
  simp only [Run.wp_device, Run.wp_tryWorld, Table.get_set_self]
  rcases u.transfer_cases direct (s.devices.get d).queue sector .write p
      { s.pages.get p with transfer := .writing } s.world with
    ⟨bytes, disk, hmove, htransfer⟩ | ⟨e, htransfer⟩
  · rw [htransfer]
    simp only [Run.wp_editPage, Table.get_set_self, Table.set_set, Run.wp_pure, Run.wp_bind]
    refine Run.wp_tryPage_of_ok (unlock_of (by rw [Table.get_set_self]; exact hlocked)) ?_
    simp only [Table.get_set_self, Table.set_set]
    refine Run.wp_tryPage_of_ok (endWrite_of (by rw [Table.get_set_self])) ?_
    simp only [Table.get_set_self, Table.set_set]
    refine countPageOut_wp_iff.mpr ?_
    have hmove : u.move (s.devices.get d).queue sector .write (s.pages.get p).bytes s.world =
      ((.ok (), bytes), { s.world with disk }) := hmove
    simp only [Table.get_set_self, countedOut_eq, written, hmove]
    exact ⟨rfl, rfl, fun _ => rfl, rfl, rfl⟩
  · rw [htransfer]
    simp only [Run.wp_editPage, Table.get_set_self, Table.set_set, Run.wp_pure, Run.wp_bind]
    refine Run.wp_tryPage_of_ok (endWrite_of (by rw [Table.get_set_self])) ?_
    simp only [Table.get_set_self, Table.set_set]
    have hrequest := @writeRequest_leaves _ _ u direct _ p a d sector stop w hfits.again
    simp only [Table.get_set_self] at hrequest
    refine Run.wp_mono hrequest (fun answer s' h => ?_) fun _ hf => hf
    rw [← hidle] at h
    exact h.of_edit

/-- **A read from a device comes to the same on either path.** -/
theorem readDevice_leaves {pace : Pace} (hfits : u.Fits s p a d sector) :
    (readDevice (u.backend direct) a d p pace).wp
      (Left s p (u.filled s.devices a (s.devices.get d).queue sector (s.pages.get p) s.world))
      stop s := by
  obtain ⟨hlocked, hidle⟩ := hfits.held
  unfold readDevice transferNow
  simp only [Run.wp_bind, Run.wp_page, Run.wp_attempt, hfits.sector]
  refine Run.wp_tryPage_of_ok (startRead_of hidle) ?_
  simp only [Run.wp_device, Run.wp_tryWorld, Table.get_set_self]
  rcases u.transfer_cases direct (s.devices.get d).queue sector .read p
      { s.pages.get p with transfer := .reading } s.world with
    ⟨bytes, disk, hmove, htransfer⟩ | ⟨e, htransfer⟩
  · rw [htransfer]
    simp only [Run.wp_editPage, Table.get_set_self, Table.set_set, Run.wp_pure, Run.wp_bind]
    refine readDone_leaves (by rw [Table.get_set_self]; exact hlocked) (by rw [Table.get_set_self])
      ?_
    have hmove : u.move (s.devices.get d).queue sector .read (s.pages.get p).bytes s.world =
      ((.ok (), bytes), { s.world with disk }) := hmove
    simp only [Table.get_set_self, Table.set_set, filled, hmove]
    exact ⟨rfl, rfl, fun _ => rfl, rfl, rfl⟩
  · rw [htransfer]
    simp only [Run.wp_editPage, Table.get_set_self, Table.set_set, Run.wp_pure, Run.wp_bind]
    refine Run.wp_tryPage_of_ok (endRead_of (by rw [Table.get_set_self])) ?_
    simp only [Table.get_set_self, Table.set_set]
    have hrequest := @readRequest_leaves _ _ u direct _ p a d sector stop pace hfits.again
    simp only [Table.get_set_self] at hrequest
    refine Run.wp_mono hrequest (fun answer s' h => ?_) fun _ hf => hf
    rw [← hidle] at h
    exact h.of_edit

end Setup

/-! ## 5. A call -/

/-- A slot of an area with an ordered table has a sector or is refused. -/
theorem Area.sector_cases {a : Area} (h : a.table.Ordered) (slot : Option Slot) :
    (∃ sector, a.sector slot = .ok sector) ∨ ∃ why, a.sector slot = .error (.refused why) := by
  unfold Area.sector Area.block
  cases a.offset slot with
  | error why => exact Or.inr ⟨why, rfl⟩
  | ok offset =>
    obtain ⟨r, hr, -⟩ := h.map?_spec offset
    simp only [Except.mapError, bind, Except.bind, liftM, monadLift, MonadLift.monadLift, hr]
    cases r with
    | none => exact Or.inr ⟨_, rfl⟩
    | some block => exact Or.inl ⟨_, rfl⟩

/-- No request is on its way. -/
def System.Calm {σ : Type} (s : System σ) : Prop := ∀ d, (s.devices.get d).inflight = 0

namespace Setup

variable {δ κ : Type}

/-- Area `a` lies on a device that takes `page` in one request.  Its table is ordered, as the tables
of all areas that were brought up are (`Area.BroughtUp`). -/
structure Takes (u : Setup δ κ) (devices : Table Device) (a : Area) (page : Page) : Prop where
  ordered : a.table.Ordered
  device : ∃ d, a.backing.device? = some d ∧ 0 < (devices.get d).depth ∧
    page.nrPages ≤ u.maxPages (devices.get d).queue

/-- Page `p` may be moved: it is held, and its area takes it. -/
structure Movable (u : Setup δ κ) (s : System (SetupState δ κ)) (p : PageId) : Prop where
  held : (s.pages.get p).Held
  takes : ∀ a, s.areaAt p = some a → u.Takes s.devices a (s.pages.get p)

variable {u : Setup δ κ} {direct : Bool} {s : System (SetupState δ κ)} {p : PageId} {a : Area}
  {stop : Fault → Prop}

/-- **A write to a slot comes to the same on either path.** -/
theorem writeSlot_leaves {w : Writeback} (hcalm : s.Calm) (hheld : (s.pages.get p).Held)
    (htakes : u.Takes s.devices a (s.pages.get p)) :
    (writeSlot (u.backend direct) a p w .write).wp
      (Left s p (u.slotWritten s.devices a (s.pages.get p) s.world)) stop s := by
  obtain ⟨d, hdevice, hdepth, hroom⟩ := htakes.device
  unfold slotWritten
  rcases Area.sector_cases htakes.ordered (s.pages.get p).slot with
    ⟨sector, hsector⟩ | ⟨why, hsector⟩
  · rw [writeSlot_eq_writeDevice hdevice, hsector, hdevice]
    exact writeDevice_leaves ⟨hheld, hsector, hroom, hcalm d ▸ hdepth⟩
  · rw [hsector]
    exact writeSlot_lost (by rw [hdevice]; rfl) hsector hheld.1 ⟨rfl, rfl, fun _ => rfl, rfl, rfl⟩

/-- **A read from a slot comes to the same on either path.** -/
theorem readSlot_leaves {pace : Pace} (hcalm : s.Calm) (hheld : (s.pages.get p).Held)
    (htakes : u.Takes s.devices a (s.pages.get p)) :
    (readSlot (u.backend direct) a p pace).wp
      (Left s p (u.slotFilled s.devices a (s.pages.get p) s.world)) stop s := by
  obtain ⟨d, hdevice, hdepth, hroom⟩ := htakes.device
  unfold slotFilled
  rcases Area.sector_cases htakes.ordered (s.pages.get p).slot with
    ⟨sector, hsector⟩ | ⟨why, hsector⟩
  · rw [readSlot_eq_readDevice hdevice, hsector, hdevice]
    exact readDevice_leaves ⟨hheld, hsector, hroom, hcalm d ▸ hdepth⟩
  · rw [hsector]
    exact readSlot_lost (by rw [hdevice]; rfl) hsector hheld.1 ⟨rfl, rfl, fun _ => rfl, rfl, rfl⟩

end Setup

/-- The call may be made: the page may be moved, and is not valid yet if it is to be read. -/
def Job.Allowed {δ κ : Type} (u : Setup δ κ) (s : System (SetupState δ κ)) : Job → Prop
  | .edit _ _ => True
  | .pageOut p _ => u.Movable s p
  | .pageOutPast p _ => u.Movable s p
  | .pageIn p _ => u.Movable s p ∧ (s.pages.get p).flags.uptodate = false

namespace Setup

variable {δ κ : Type} {u : Setup δ κ} {direct : Bool} {s : System (SetupState δ κ)} {p : PageId}
  {stop : Fault → Prop}

theorem pageOut_leaves {w : Writeback} (hcalm : s.Calm) (hok : u.Movable s p) :
    (pageOut (u.backend direct) p w).wp (Left s p (u.outcome s (.pageOut p w))) stop s := by
  have hlocked := hok.held.1
  unfold pageOut frontStore outcome
  simp only [Run.wp_bind, Run.wp_page, hlocked, if_true, Run.wp_editPage, Job.page]
  rw [areaOf_wp, System.areaAt_clearDirty]
  cases harea : s.areaAt p with
  | none =>
    refine failWrite_wp (by rw [Table.get_set_self]; exact hlocked) ?_
    exact ⟨rfl, by simp only [Table.get_set_self, Table.set_set]; rfl, fun _ => rfl, rfl, rfl⟩
  | some a =>
    simp only [Run.wp_bind, Run.wp_withPage, Table.get_set_self, Table.set_set]
    have hfree : (u.backend direct).slotMaps.tryFree a.slotMap p (s.pages.get p).clearDirty
      s.world = (u.tryFree a.slotMap p (s.pages.get p).clearDirty, s.world) := rfl
    obtain ⟨horder, hkept, htransfer⟩ := u.tryFree_keeps a.slotMap p (s.pages.get p).clearDirty
    simp only [hfree]
    generalize u.tryFree a.slotMap p (s.pages.get p).clearDirty = tried at *
    have hheld : tried.2.Held := ⟨hkept.trans hlocked, htransfer.trans hok.held.2⟩
    unfold droppedOrWritten
    by_cases hdropped : tried.1 = true
    · rw [if_pos hdropped, if_pos hdropped, Run.wp_bind]
      refine Run.wp_tryPage_of_ok (unlock_of (by rw [Table.get_set_self]; exact hheld.1)) ?_
      simp only [Table.get_set_self, Table.set_set, Run.wp_pure]
      exact ⟨rfl, rfl, fun _ => rfl, rfl, rfl⟩
    · have hfront : (u.backend direct).front = none := rfl
      rw [if_neg hdropped, if_neg hdropped]
      simp only [Run.wp_bind, Run.wp_world, hfront, Run.wp_pure, Bool.false_eq_true, if_false]
      have hwrite := @writeSlot_leaves _ _ u direct { s with
        pages := s.pages.set p tried.2
        world := ((u.backend false).statistics.cycles s.world).2 } p a stop w hcalm
      simp only [Table.get_set_self] at hwrite
      refine Run.wp_mono (hwrite hheld ?_) (fun answer s' h => h.of_edit) fun _ hf => hf
      obtain ⟨hordered, d, hdevice, hdepth, hroom⟩ := hok.takes a harea
      refine ⟨hordered, d, hdevice, hdepth, ?_⟩
      unfold Page.nrPages
      rw [horder]
      exact hroom

theorem pageOutPast_leaves {w : Writeback} (hcalm : s.Calm) (hok : u.Movable s p) :
    (pageOutPast (u.backend direct) p w .write).wp (Left s p (u.outcome s (.pageOutPast p w))) stop
      s := by
  have hlocked := hok.held.1
  unfold pageOutPast outcome
  simp only [Run.wp_bind, Run.wp_page, hlocked, if_true, Job.page]
  rw [areaOf_wp]
  cases harea : s.areaAt p with
  | none => exact failWrite_wp hlocked ⟨rfl, rfl, fun _ => rfl, rfl, rfl⟩
  | some a => exact writeSlot_leaves hcalm hok.held (hok.takes a harea)

theorem pageIn_leaves {pace : Pace} (hcalm : s.Calm) (hok : u.Movable s p)
    (hstale : (s.pages.get p).flags.uptodate = false) :
    (pageIn (u.backend direct) p pace).wp (Left s p (u.outcome s (.pageIn p pace))) stop s := by
  have hlocked := hok.held.1
  unfold pageIn frontLoad outcome
  simp only [Run.wp_bind, Run.wp_page, hlocked, hstale, if_true, Bool.false_eq_true, if_false,
    Job.page]
  rw [areaOf_wp]
  cases harea : s.areaAt p with
  | none =>
    refine failRead_wp hok.held ⟨rfl, ?_, fun _ => rfl, rfl, rfl⟩
    rw [Page.ended_of_idle hok.held.2]
    rfl
  | some a =>
    have hfront : (u.backend direct).front = none := rfl
    simp only [Run.wp_bind, hfront, Run.wp_pure, Bool.false_eq_true, if_false, Run.wp_world]
    refine Run.wp_mono (readSlot_leaves hcalm hok.held (hok.takes a harea))
      (fun answer s' h => ⟨h.answer, h.pages, h.devices, h.registry, ?_⟩) fun _ hf => hf
    rw [h.world]
    rfl

/-- **A call leaves its outcome**, on either path. -/
theorem run_leaves {j : Job} (hcalm : s.Calm) (hok : j.Allowed u s) :
    (j.run (u.backend direct)).wp (Left s j.page (u.outcome s j)) stop s := by
  cases j with
  | edit p page => exact ⟨rfl, rfl, fun _ => rfl, rfl, rfl⟩
  | pageOut p w => exact pageOut_leaves hcalm hok
  | pageOutPast p w => exact pageOutPast_leaves hcalm hok
  | pageIn p pace => exact pageIn_leaves hcalm hok.1 hok.2

/-- A call that has answered has left its outcome. -/
theorem left_of_ok {j : Job} {answer : Status} {s' : System (SetupState δ κ)} (hcalm : s.Calm)
    (hok : j.Allowed u s) (h : j.run (u.backend direct) s = .ok (answer, s')) :
    Left s j.page (u.outcome s j) answer s' := by
  have hwp : (j.run (u.backend direct)).wp _ (fun _ => False) s := run_leaves hcalm hok
  exact hwp.of_ok h

end Setup

/-! ## 6. Calls in a row -/

/-- Two systems that look the same. -/
structure Alike {σ : Type} (s t : System σ) : Prop where
  pages : ∀ p, s.pages.get p = t.pages.get p
  devices : ∀ d, s.devices.get d = t.devices.get d
  registry : s.registry = t.registry
  world : s.world = t.world

/-- What is seen after a call. -/
structure Seen (σ : Type) where
  answer : Status
  pages : PageId → Page
  inflight : DeviceId → Nat
  world : σ

/-- What is seen of a system that has answered. -/
def System.seen {σ : Type} (s : System σ) (answer : Status) : Seen σ :=
  { answer, pages := s.pages.get, inflight := fun d => (s.devices.get d).inflight
    world := s.world }

/-- Calls one after the other, and what is seen after each. -/
def watch {σ : Type} (b : Backend σ) : List Job → System σ → Except Fault (List (Seen σ))
  | [], _ => .ok []
  | j :: jobs, s => do
    let (answer, s) ← j.run b s
    return s.seen answer :: (← watch b jobs s)

/-- Every call of these may be made when it is made. -/
def Setup.Orderly {δ κ : Type} (u : Setup δ κ) (direct : Bool) :
    List Job → System (SetupState δ κ) → Prop
  | [], _ => True
  | j :: jobs, s => j.Allowed u s ∧
    ∀ answer s', j.run (u.backend direct) s = .ok (answer, s') → u.Orderly direct jobs s'

namespace Alike

variable {σ δ κ : Type}

theorem refl (s : System σ) : Alike s s := ⟨fun _ => rfl, fun _ => rfl, rfl, rfl⟩

theorem areaAt {s t : System σ} (h : Alike s t) (p : PageId) : s.areaAt p = t.areaAt p := by
  unfold System.areaAt System.area?
  rw [h.pages, h.registry]

theorem calm {s t : System σ} (h : Alike s t) (hcalm : s.Calm) : t.Calm :=
  fun d => (congrArg Device.inflight (h.devices d)).symm.trans (hcalm d)

/-- **The same call leaves systems that look the same alike.** -/
theorem left {s t s' t' : System σ} {p : PageId} {o : Outcome σ} {answer answer' : Status}
    (h : Alike s t) (hs : Left s p o answer s') (ht : Left t p o answer' t') : Alike s' t' where
  pages := by
    intro q
    rw [hs.pages, ht.pages, Table.get_set, Table.get_set, h.pages]
  devices := fun d => (hs.devices d).trans ((h.devices d).trans (ht.devices d).symm)
  registry := hs.registry.trans (h.registry.trans ht.registry.symm)
  world := hs.world.trans ht.world.symm

theorem seen {s t : System σ} (h : Alike s t) (answer : Status) :
    s.seen answer = t.seen answer := by
  unfold System.seen
  simp only [h.devices, h.world, funext h.pages]

variable {s t : System (SetupState δ κ)} {u : Setup δ κ}

theorem movable (h : Alike s t) {p : PageId} (hs : u.Movable s p) : u.Movable t p where
  held := h.pages p ▸ hs.held
  takes := by
    intro a ha
    obtain ⟨hordered, hdevice⟩ := hs.takes a ((h.areaAt p).trans ha)
    simp only [h.devices, h.pages] at hdevice
    exact ⟨hordered, hdevice⟩

theorem allowed (h : Alike s t) {j : Job} (hs : j.Allowed u s) : j.Allowed u t := by
  cases j with
  | edit p page => trivial
  | pageOut p w => exact h.movable hs
  | pageOutPast p w => exact h.movable hs
  | pageIn p pace => exact ⟨h.movable hs.1, h.pages p ▸ hs.2⟩

/-- The outcome of a call shows nothing else either. -/
theorem outcome (h : Alike s t) (j : Job) : u.outcome s j = u.outcome t j := by
  have hqueue : ∀ d, (s.devices.get d).queue = (t.devices.get d).queue :=
    fun d => congrArg Device.queue (h.devices d)
  have hwritten : ∀ a page w,
      u.slotWritten s.devices a page w = u.slotWritten t.devices a page w := by
    intro a page w
    unfold Setup.slotWritten
    simp only [hqueue]
  have hfilled : ∀ a page w,
      u.slotFilled s.devices a page w = u.slotFilled t.devices a page w := by
    intro a page w
    unfold Setup.slotFilled
    simp only [hqueue, u.filled_congr hqueue]
  unfold Setup.outcome Setup.droppedOrWritten
  simp only [h.pages, h.areaAt, h.world, hwritten, hfilled]

end Alike

/-- **One call** of two systems that look the same, whatever their paths. -/
theorem Alike.step {δ κ : Type} {u : Setup δ κ} (direct direct' : Bool)
    {s t : System (SetupState δ κ)} {j : Job} (h : Alike s t) (hcalm : s.Calm)
    (hok : j.Allowed u s) : ∃ answer s' t',
      j.run (u.backend direct) s = .ok (answer, s') ∧
      j.run (u.backend direct') t = .ok (answer, t') ∧ s'.Calm ∧ Alike s' t' := by
  obtain ⟨answer, s', hs, hleft⟩ := Run.exists_ok_of_wp (Setup.run_leaves hcalm hok)
  obtain ⟨answer', t', ht, hleft'⟩ :=
    Run.exists_ok_of_wp (Setup.run_leaves (h.calm hcalm) (h.allowed hok))
  rw [← h.outcome] at hleft'
  have hanswer : answer = answer' := hleft.answer.trans hleft'.answer.symm
  subst hanswer
  refine ⟨answer, s', t', hs, ht, fun d => ?_, h.left hleft hleft'⟩
  rw [hleft.devices]
  exact hcalm d

/-- **Calls in a row** of two systems that look the same, whatever their paths. -/
theorem Alike.watch {δ κ : Type} {u : Setup δ κ} {direct : Bool} (direct' : Bool) {jobs : List Job}
    {s t : System (SetupState δ κ)} (h : Alike s t) (hcalm : s.Calm)
    (hok : u.Orderly direct jobs s) : ∃ seen,
      PageSwap.watch (u.backend direct) jobs s = .ok seen ∧
      PageSwap.watch (u.backend direct') jobs t = .ok seen ∧
      seen.length = jobs.length ∧ ∀ o ∈ seen, ∀ d, o.inflight d = 0 := by
  -- looking the same, and having no request on its way, is what a call keeps
  induction jobs generalizing s t with
  | nil => exact ⟨[], rfl, rfl, rfl, nofun⟩
  | cons j jobs ih =>
    obtain ⟨answer, s', t', hs, ht, hcalm', halike⟩ := h.step direct direct' hcalm hok.1
    obtain ⟨seen, hseen, hseen', hlength, hnone⟩ := ih halike hcalm' (hok.2 answer s' hs)
    refine ⟨s'.seen answer :: seen, ?_, ?_, congrArg (· + 1) hlength, ?_⟩
    · simp only [PageSwap.watch, hs, hseen, bind, Except.bind, pure, Except.pure]
    · simp only [PageSwap.watch, ht, hseen', bind, Except.bind, pure, Except.pure,
        halike.seen answer]
    · intro o ho
      rcases List.mem_cons.mp ho with rfl | ho
      · exact hcalm'
      · exact hnone o ho

/-- **The two paths agree.**  A driver that transfers pages directly and one that does not are
called in the same way, with calls that may be made on one of them.  Then no call faults on either,
and after every call the same is seen of both: the answer, every page, the tags in use, what is on
the disk, the slots that were given up, and the counters.  Transfers may fail as they like. -/
theorem paths_agree {δ κ : Type} {u : Setup δ κ} {direct : Bool} {jobs : List Job}
    {s : System (SetupState δ κ)} (hcalm : s.Calm) (hok : u.Orderly direct jobs s) : ∃ seen,
      watch (u.backend true) jobs s = .ok seen ∧ watch (u.backend false) jobs s = .ok seen ∧
      seen.length = jobs.length ∧ ∀ o ∈ seen, ∀ d, o.inflight d = 0 := by
  cases direct with
  | true => exact (Alike.refl s).watch false hcalm hok
  | false =>
    obtain ⟨seen, hrequest, hdirect, hlength, hnone⟩ := (Alike.refl s).watch true hcalm hok
    exact ⟨seen, hdirect, hrequest, hlength, hnone⟩

/-- A disk in memory, which fails transfers past its end, and counters. -/
def ramSetup : Setup Storage Counters where
  transfer := fun _ sector direction bytes disk =>
    let position := sector.toNat * 512
    if position + bytes.size ≤ disk.size then
      match direction with
      | .read => .ok (disk.read position bytes.size, disk)
      | .write => .ok (bytes, disk.write position bytes)
    else .error Errno.io
  maxPages := fun _ => 64
  depth := fun _ => 2
  wantsFreed := fun _ => true
  wipe := fun _ offset disk => disk.write (offset.toNat * 4096) (Bytes.fill 4096 0)
  count := fun _ _ => 1
  tryFree := fun _ _ page => (false, page)
  tryFree_keeps := fun _ _ _ => ⟨rfl, rfl, rfl⟩
  files :=
    { blockMap := fun _ _ => ⟨12, 0, fun _ => none⟩
      read := fun _ _ bytes w => ((.error Errno.io, bytes), w)
      write := fun _ _ _ w => (.error Errno.io, w)
      dirtied := fun _ _ page w => ((!page.flags.dirty, page.setDirty), w) }
  statistics :=
    { record := fun t c => c.add t 1
      recordMany := fun t n c => c.add t n
      accumulate := fun n c => c.addLatency n
      cycles := fun c => (0, c) }
  stalls := { enter := fun c => (0, c), leave := fun _ c => c }
  patience := 0

/-- Page 0 in slot 1, locked. -/
def ramHeld (byte : UInt8) : Page :=
  { flags.locked := true, slot := some ⟨1⟩, bytes := Bytes.fill 4096 byte }

/-- The area of eight pages, and a page of sevens. -/
def ramSetupStart : System (SetupState Storage Counters) :=
  { pages := ⟨#[ramHeld 7]⟩, devices := ramStart.devices, registry := ⟨#[some ramArea]⟩
    world := { disk := { size := 32768 }, ledger := {} } }

/-- The page may be moved whenever it has been locked again. -/
theorem ramSetup_movable {s : System (SetupState Storage Counters)} {byte : UInt8}
    (hpage : s.pages.get 0 = ramHeld byte) (hregistry : s.registry = ramSetupStart.registry)
    (hdevices : ∀ d, s.devices.get d = ramSetupStart.devices.get d) : ramSetup.Movable s 0 where
  held := hpage ▸ ⟨rfl, rfl⟩
  takes := by
    intro a ha
    have harea : s.areaAt 0 = some ramArea := by
      unfold System.areaAt System.area?
      rw [hpage, hregistry]
      rfl
    obtain rfl : ramArea = a := Option.some.inj (harea.symm.trans ha)
    obtain ⟨blocks, -, -, hup, -, -⟩ := swapOn_ok (swapOn_ramDisk true)
    refine ⟨hup.lists.ordered, 0, rfl, ?_, ?_⟩
    · rw [hdevices]
      decide
    · rw [hpage]
      exact (by decide : (1 : UInt64) <<< 0 ≤ 64)

/-- The page is written out, locked again with other bytes in it, and read back. -/
theorem sevens_on_both_paths : ∃ seen,
    let jobs := [Job.pageOut 0 {}, .edit 0 (ramHeld 0), .pageIn 0 .await]
    watch (ramSetup.backend true) jobs ramSetupStart = .ok seen ∧
    watch (ramSetup.backend false) jobs ramSetupStart = .ok seen ∧ seen.length = 3 ∧
    ∀ o ∈ seen, ∀ d, o.inflight d = 0 := by
  have hcalm : ramSetupStart.Calm := by
    intro d
    cases d with
    | zero => rfl
    | succ d =>
      have hdefault := Table.get_of_fresh_le ramSetupStart.devices (Nat.le_add_left 1 d)
      rw [hdefault]
      rfl
  have hstart := @ramSetup_movable ramSetupStart 7 rfl rfl fun _ => rfl
  refine @paths_agree _ _ ramSetup true _ _ hcalm ⟨hstart, fun answer s' hwrite => ⟨trivial,
    fun answer' s'' hedit => ?_⟩⟩
  have hwrite := Setup.left_of_ok (j := .pageOut 0 {}) hcalm hstart hwrite
  have hcalm' : s'.Calm := fun d => congrArg Device.inflight (hwrite.devices d) ▸ hcalm d
  have hedit := Setup.left_of_ok (j := .edit 0 (ramHeld 0)) hcalm' trivial hedit
  have hpage : s''.pages.get 0 = ramHeld 0 := by
    rw [hedit.pages]
    exact Table.get_set_self _ _ _
  refine ⟨⟨ramSetup_movable hpage (hedit.registry.trans hwrite.registry)
    fun d => (hedit.devices d).trans (hwrite.devices d), ?_⟩, fun _ _ _ => trivial⟩
  rw [hpage]
  rfl

end PageSwap
