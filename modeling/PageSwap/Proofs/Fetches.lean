/-
# Reads that went well

A driver that wants to know is told of a slot once its content has been read and nobody else needs
it.  After that the device may forget what is in the slot, so the driver must not be told too early.
The endings of reads are cut here at the point where it is told: what comes before is run on its
own, and its end is the moment that counts.  There are two endings, that of a request and that of a
transfer without one, which has given the lock up by then and must take it again.

* `findFreed`, `tell` -- dealing with a slot, before and after the cut; `notifyFreed_eq`,
  `endRead_eq` and `readDone_eq` say that nothing is lost.
* `due` -- what a driver is to be told.
* `Fetch`, `Fetch.Sound` -- a read that its driver has carried out without error, and what it must
  be like.
* `Entry.matters`, `Grown` -- what of it is in the journal.
-/
import PageSwap.Proofs.Journal

namespace PageSwap

variable {σ : Type}

/-! ## 1. Up to the moment, and from it on -/

/-- A driver that is told that a slot is free: its queue, and the offset of the slot. -/
abbrev Notice := QueueId × UInt64

/-- Deal with the slot of a page that was read, **up to the moment its driver is told**.  The answer
is what it is told. -/
def findFreed (b : Backend σ) (area : Area) (p : PageId) : Run σ (Option Notice) := do
  let page ← Run.page p
  match page.slot, area.backing with
  | some slot, .device d =>
    let queue := (← Run.device d).queue
    if b.queues.wantsFreed queue (← get).world then
      if (← Run.world (b.slotMaps.count area.slotMap slot.offset)) = 1 then
        Run.editPage p Page.setDirty
        return some (queue, slot.offset)
    return none
  | _, _ => return none

/-- Tell the driver. -/
def tell (b : Backend σ) : Option Notice → Run σ Unit
  | some (queue, offset) => Run.world fun w => ((), b.queues.slotFreed queue offset w)
  | none => pure ()

/-- **What a driver is to be told** after its device was read: that the slot is free, if the area is
the whole device, the driver wants to know, and the slot has one user. -/
def due (b : Backend σ) (area : Area) (devices : Table Device) (slot : Option Slot) (w : σ) :
    Option Notice :=
  match slot, area.backing with
  | some slot, .device d =>
    if b.queues.wantsFreed (devices.get d).queue w ∧
        (b.slotMaps.count area.slotMap slot.offset w).1 = 1 then
      some ((devices.get d).queue, slot.offset)
    else none
  | _, _ => none

/-- What a read without error does to its page before the slot is dealt with, if it had a
request. -/
def validate (q : Request) : Run σ Unit := do
  Run.log .trace s!"swap: read done at sector {q.sector}: {Status.text q.status}"
  Run.editPage q.page Page.setUptodate

/-- The same without a request.  The answer is whether the lock could be taken again. -/
def relock (p : PageId) : Run σ Bool := do
  Run.editPage p Page.setUptodate
  Run.tryPage p Page.endRead
  Run.tryPage p Page.unlock
  let (taken, page) := (← Run.page p).tryLock
  Run.editPage p fun _ => page
  return taken

/-- The state once a page that was read is valid and locked again. -/
def System.relocked (s : System σ) (p : PageId) : System σ :=
  let page := s.pages.get p
  { s with pages := s.pages.set p { page with
      transfer := .idle
      flags := { page.flags with locked := true, uptodate := true, error := false } } }

/-- **Nobody else was quicker** to take the lock. -/
theorem relock_eq {s : System σ} {p : PageId} (hlocked : (s.pages.get p).flags.locked = true)
    (hreading : (s.pages.get p).transfer = .reading) :
    relock p s = .ok (true, s.relocked p) := by
  refine Run.eq_ok_of_wp ?_
  unfold relock
  simp only [Run.wp_bind, Run.wp_editPage]
  refine Run.wp_tryPage_of_ok (endRead_of (by rw [Table.get_set_self]; exact hreading))
    (Run.wp_tryPage_of_ok (unlock_of (by simp only [Table.get_set_self]; exact hlocked)) ?_)
  simp only [Table.get_set_self, Table.set_set, Run.wp_page, Page.tryLock, Bool.not_false,
    Run.wp_pure]
  exact ⟨trivial, rfl⟩

section

variable {b : Backend σ} {area : Area} {p : PageId}

/-- **Dealing with a slot**, cut at the moment. -/
theorem notifyFreed_eq : notifyFreed b area p = findFreed b area p >>= tell b := by
  unfold notifyFreed findFreed
  simp only [bind_assoc]
  congr
  funext page
  rcases page.slot with _ | slot
  · rfl
  rcases area.backing with d | ⟨f, d⟩ | f
  · simp only [bind_assoc]
    congr
    funext device
    congr
    funext s
    split
    · simp only [bind_assoc]
      congr
      funext count
      split
      · simp only [bind_assoc, pure_bind]
        rfl
      · simp only [pure_bind]
        rfl
    · simp only [pure_bind]
      rfl
  · rfl
  · rfl

/-- **The ending of a request**, cut at the moment. -/
theorem endRead_eq {r : RequestId} {q : Request} (h : q.status = .ok ()) :
    endRead b r q = (do
      validate q
      tell b (← findFreed b q.area q.page)
      releaseRead r q) := by
  unfold endRead validate
  simp only [h, notifyFreed_eq, bind_assoc]
  rfl

/-- **The ending of a transfer without a request**, cut at the moment. -/
theorem readDone_eq : readDone b area p = (do
    if ← relock p then
      tell b (← findFreed b area p)
      Run.tryPage p Page.unlock
    countPageIn b) := by
  unfold readDone relock
  rw [notifyFreed_eq]
  simp only [bind_assoc, pure_bind]

end

section

variable {b : Backend σ} {area : Area} {devices : Table Device} {slot : Option Slot} {w : σ}
  {queue : QueueId} {offset : UInt64}

theorem due_of_device {sl : Slot} {d : DeviceId} (hback : area.backing = .device d) :
    due b area devices (some sl) w =
      if b.queues.wantsFreed (devices.get d).queue w ∧
          (b.slotMaps.count area.slotMap sl.offset w).1 = 1 then
        some ((devices.get d).queue, sl.offset)
      else none := by
  unfold due
  rw [hback]

/-- What is due when a driver is told something. -/
theorem due_eq_some (h : due b area devices slot w = some (queue, offset)) :
    ∃ sl d, slot = some sl ∧ area.backing = .device d ∧ queue = (devices.get d).queue ∧
      offset = sl.offset := by
  unfold due at h
  split at h
  · rename_i sl d hbacking
    split at h
    · obtain ⟨hqueue, hoffset⟩ := Prod.mk.inj (Option.some.inj h)
      exact ⟨sl, d, rfl, hbacking, hqueue.symm, hoffset.symm⟩
    · exact absurd h nofun
  · exact absurd h nofun

/-- **What is found to be told is what is due**, and then the page is dirty and nobody but the slot
map has been asked. -/
theorem findFreed_wp {p : PageId} {post : Option Notice → System σ → Prop} {stop : Fault → Prop}
    {s : System σ} {pages : Table Page} {page : Page} (hs : s.pages = pages.set p page)
    (hpost : ∀ w', (∀ queue offset, due b area s.devices page.slot s.world = some (queue, offset) →
        w' = (b.slotMaps.count area.slotMap offset s.world).2) →
      post (due b area s.devices page.slot s.world) { s with
        pages := pages.set p (page.noting (due b area s.devices page.slot s.world).isSome)
        world := w' }) :
    (findFreed b area p).wp post stop s := by
  have hnone : due b area s.devices page.slot s.world = none →
      ∀ w', post none { s with world := w' } := by
    intro h w'
    have hpost := hpost w' fun _ _ hsome => absurd (h.symm.trans hsome) nofun
    rwa [h, Option.isSome_none, Page.noting_false, ← hs] at hpost
  unfold findFreed
  simp only [Run.wp_bind, Run.wp_page, hs, Table.get_set_self]
  rcases hslot : page.slot with _ | sl
  · exact hnone (by rw [hslot]; rfl) s.world
  rcases hback : area.backing with d | ⟨f, d⟩ | f
  · have hdue := @due_of_device _ b area s.devices s.world sl d hback
    rw [hslot] at hpost hnone
    simp only [Run.wp_bind, Run.wp_device, Run.wp_get, Run.wp_ite]
    split
    · rename_i hwants
      simp only [Run.wp_world]
      split
      · rename_i hone
        rw [if_pos ⟨hwants, hone⟩] at hdue
        simp only [Run.wp_editPage, hs, Table.get_set_self, Table.set_set, Run.wp_pure,
          ← Page.noting_true]
        rw [hdue] at hpost
        refine hpost _ fun queue offset h => ?_
        rw [(Prod.mk.inj (Option.some.inj h)).2]
      · rename_i hmany
        exact hnone (hdue.trans (if_neg fun h => hmany h.2)) _
    · rename_i hwants
      exact hnone (hdue.trans (if_neg fun h => hwants h.1)) s.world
  · exact hnone (by unfold due; rw [hslot, hback]) s.world
  · exact hnone (by unfold due; rw [hslot, hback]) s.world

end

/-! ## 2. Reads that went well -/

/-- **A read that its driver has carried out without error.**  What was read is given as a request,
also where there was none; `state` is what the driver has left: the content is in the page, and
nothing has been done about it yet. -/
structure Fetch (σ : Type) where
  job : Request
  /-- The request, if there was one. -/
  number : Option RequestId
  state : System σ

namespace Fetch

/-- The page that was read. -/
def page (x : Fetch σ) : Page := x.state.pages.get x.job.page

/-- The queue it was read from. -/
def queue (x : Fetch σ) : QueueId := (x.state.devices.get x.job.device).queue

/-- How the read is ended. -/
def ending (b : Backend σ) (x : Fetch σ) : Run σ Unit :=
  match x.number with
  | some r => endRead b r { x.job with status := .ok () }
  | none => readDone b x.job.area x.job.page

/-- The same up to the moment at which the driver is told. -/
def upToNotice (b : Backend σ) (x : Fetch σ) : Run σ (Option Notice) := do
  match x.number with
  | some _ => validate { x.job with status := .ok () }
  | none => unless ← relock x.job.page do return none
  findFreed b x.job.area x.job.page

/-- What is left of it once the driver has been told, or is not to be. -/
def closing (b : Backend σ) (x : Fetch σ) : Run σ Unit :=
  match x.number with
  | some r => releaseRead r { x.job with status := .ok () }
  | none => do
    Run.tryPage x.job.page Page.unlock
    countPageIn b

/-- What the driver is to be told about the slot of the page. -/
def notice (b : Backend σ) (x : Fetch σ) : Option Notice :=
  due b x.job.area x.state.devices x.page.slot x.state.world

/-- The entry of the read. -/
def entry (x : Fetch σ) : Entry :=
  match x.number with
  | some _ => .settled x.queue x.job x.page.order (.ok ())
  | none => .transferred x.queue .read x.job.page x.page.order (.ok ())

/-- The entries of the read and of its notice. -/
def entries (b : Backend σ) (x : Fetch σ) : List Entry :=
  x.entry :: (x.notice b).toList.map fun n => .told n.1 n.2

/-- **The moment at which a driver is told** that the slot at this offset is free: the page that was
read is locked, valid, not errored and dirty already, and the slot is its own. -/
structure Moment (journal : σ → List Entry) (x : Fetch σ) (offset : UInt64) (t : System σ) :
    Prop where
  locked : (t.pages.get x.job.page).flags.locked = true
  uptodate : (t.pages.get x.job.page).flags.uptodate = true
  sound : (t.pages.get x.job.page).flags.error = false
  dirty : (t.pages.get x.job.page).flags.dirty = true
  content : (t.pages.get x.job.page).bytes = x.page.bytes
  slot : ∃ slot, (t.pages.get x.job.page).slot = some slot ∧ slot.offset = offset ∧
    x.job.area.sector (some slot) = .ok x.job.sector
  journal : journal t.world = journal x.state.world ++ [.counted x.job.area.slotMap offset]

/-- The page is locked and valid, and its slot has not been dealt with yet. -/
structure Validated (x : Fetch σ) (s : System σ) (page : Page) : Prop where
  pages : s.pages = x.state.pages.set x.job.page page
  devices : s.devices = x.state.devices
  world : s.world = x.state.world
  locked : page.flags.locked = true
  uptodate : page.flags.uptodate = true
  sound : page.flags.error = false
  content : page.bytes = x.page.bytes
  slot : page.slot = x.page.slot

/-- The driver is told what is due, if anything, and now is the moment. -/
def Timely (b : Backend σ) (journal : σ → List Entry) (x : Fetch σ) (n : Option Notice)
    (t : System σ) : Prop :=
  n = x.notice b ∧
    ∀ queue offset, n = some (queue, offset) → queue = x.queue ∧ x.Moment journal offset t

/-- **The read was from the slot of its page, and what is told comes at the moment**: the ending
gets there, tells it, and closes. -/
structure Sound (b : Backend σ) (journal : σ → List Entry) (x : Fetch σ) : Prop where
  read : x.job.direction = .read
  device : x.job.area.backing.device? = some x.job.device
  slot : x.job.area.sector x.page.slot = .ok x.job.sector
  told : ∃ n t, x.upToNotice b x.state = .ok (n, t) ∧ x.Timely b journal n t ∧
    x.ending b x.state = (do tell b n; x.closing b) t

/-- The fetch of a request that is done: its bytes are in the page, and it knows how it went. -/
def settled (u : System σ) (r : RequestId) (q : Request) (bytes : Bytes) (w : σ) : Fetch σ where
  job := q
  number := some r
  state := { u with
    pages := u.pages.set q.page { u.pages.get q.page with bytes }
    requests := u.requests.set r (some { q with status := .ok () })
    world := w }

/-- The fetch of a transfer without a request. -/
def transferred (u : System σ) (area : Area) (d : DeviceId) (p : PageId) (sector : UInt64)
    (bytes : Bytes) (w : σ) : Fetch σ where
  job := { direction := .read, sector, page := p, device := d, area, ending := .read }
  number := none
  state := { u with
    pages := u.pages.set p { u.pages.get p with transfer := .reading, bytes }
    world := w }

section

variable {b : Backend σ} {journal : σ → List Entry} {x : Fetch σ}

/-- **From a page that is locked and valid on, the moment comes**, if anything is due. -/
theorem Validated.timely (hj : b.Journals journal)
    (hdevice : x.job.area.backing.device? = some x.job.device)
    (hslot : x.job.area.sector x.page.slot = .ok x.job.sector) {s : System σ} {page : Page}
    (h : x.Validated s page) :
    (findFreed b x.job.area x.job.page).wp (x.Timely b journal) (fun _ => False) s := by
  refine findFreed_wp h.pages fun w' hw' => ?_
  rw [h.devices, h.world, h.slot] at hw' ⊢
  refine ⟨rfl, fun queue offset hnotice => ?_⟩
  obtain ⟨sl, d, hsl, hback, rfl, rfl⟩ := due_eq_some hnotice
  rw [hback] at hdevice
  obtain hd : d = x.job.device := Option.some.inj hdevice
  refine ⟨by rw [hd]; rfl, ?_⟩
  rw [hw' _ _ hnotice, hnotice, Option.isSome_some, Page.noting_true]
  have hpage := Table.get_set_self x.state.pages x.job.page page.setDirty
  constructor
  case locked => exact (congrArg (·.flags.locked) hpage).trans h.locked
  case uptodate => exact (congrArg (·.flags.uptodate) hpage).trans h.uptodate
  case sound => exact (congrArg (·.flags.error) hpage).trans h.sound
  case dirty => exact congrArg (·.flags.dirty) hpage
  case content => exact (congrArg (·.bytes) hpage).trans h.content
  case slot => exact ⟨sl, ((congrArg (·.slot) hpage).trans h.slot).trans hsl, rfl, hsl ▸ hslot⟩
  case journal => exact hj.count _ _ _

/-- A fetch is sound if its page is validated before its slot is dealt with. -/
theorem Validated.fetch_sound (hj : b.Journals journal) (hread : x.job.direction = .read)
    (hdevice : x.job.area.backing.device? = some x.job.device)
    (hslot : x.job.area.sector x.page.slot = .ok x.job.sector) {s : System σ} {page : Page}
    (hupTo : x.upToNotice b x.state = findFreed b x.job.area x.job.page s)
    (hending : x.ending b x.state =
      (do tell b (← findFreed b x.job.area x.job.page); x.closing b) s)
    (h : x.Validated s page) : x.Sound b journal := by
  obtain ⟨n, t, hrun, htimely⟩ :=
    Run.exists_ok_of_wp (Validated.timely (b := b) hj hdevice hslot h)
  exact ⟨hread, hdevice, hslot, n, t, hupTo.trans hrun, htimely,
    hending.trans (Run.bind_of_ok hrun)⟩

/-- A page that a request has read is validated under its lock. -/
theorem sound_settled (hj : b.Journals journal) {u : System σ} {r : RequestId} {q : Request}
    (bytes : Bytes) (w : σ) (hr : Ready u q) (hread : q.direction = .read)
    (hdevice : q.area.backing.device? = some q.device)
    (hslot : q.area.sector (u.pages.get q.page).slot = .ok q.sector) :
    (settled u r q bytes w).Sound b journal := by
  have hpage : (settled u r q bytes w).page = { u.pages.get q.page with bytes } :=
    Table.get_set_self _ _ _
  have hvalidate : validate { q with status := .ok () } (settled u r q bytes w).state =
      .ok ((), _) := rfl
  refine Validated.fetch_sound hj hread hdevice (by rw [hpage]; exact hslot)
    (Run.bind_of_ok hvalidate) ?_ ⟨rfl, rfl, rfl, ?_, rfl, rfl, rfl, rfl⟩
  · change endRead b r { q with status := .ok () } _ = _
    rw [endRead_eq rfl]
    exact Run.bind_of_ok hvalidate
  · exact (congrArg (·.flags.locked) hpage).trans (hr.locked hread)

/-- A page that was read without a request is locked again, which nobody else was quicker to do. -/
theorem sound_transferred (hj : b.Journals journal) {u : System σ} {area : Area} {d : DeviceId}
    {p : PageId} {sector : UInt64} (bytes : Bytes) (w : σ)
    (hlocked : (u.pages.get p).flags.locked = true) (hdevice : area.backing.device? = some d)
    (hslot : area.sector (u.pages.get p).slot = .ok sector) :
    (transferred u area d p sector bytes w).Sound b journal := by
  have hpage : (transferred u area d p sector bytes w).page =
      { u.pages.get p with transfer := .reading, bytes } := Table.get_set_self _ _ _
  have hrelock := relock_eq ((congrArg (·.flags.locked) hpage).trans hlocked)
    (congrArg (·.transfer) hpage)
  refine Validated.fetch_sound hj rfl hdevice (by rw [hpage]; exact hslot)
    (Run.bind_of_ok hrelock) ?_ ⟨rfl, rfl, rfl, rfl, rfl, rfl, rfl, rfl⟩
  change readDone b area p _ = _
  rw [readDone_eq]
  exact Run.bind_of_ok hrelock

/-- Only what is due is told. -/
theorem notice_of_told {queue : QueueId} {offset : UInt64}
    (h : Entry.told queue offset ∈ x.entries b) : x.notice b = some (queue, offset) := by
  rcases List.mem_cons.mp h with h | h
  · unfold entry at h
    split at h
    · exact absurd h nofun
    · exact absurd h nofun
  · obtain ⟨n, hn, htold⟩ := List.mem_map.mp h
    obtain ⟨rfl, rfl⟩ := Entry.told.inj htold
    exact Option.mem_toList.mp hn

theorem entries_settled (u : System σ) (r : RequestId) (q : Request) (bytes : Bytes) (w : σ) :
    (settled u r q bytes w).entries b =
      .settled (u.devices.get q.device).queue q (u.pages.get q.page).order (.ok ()) ::
        (due b q.area u.devices (u.pages.get q.page).slot w).toList.map fun n => .told n.1 n.2 := by
  have hpage : (settled u r q bytes w).page = { u.pages.get q.page with bytes } :=
    Table.get_set_self _ _ _
  unfold entries entry notice
  rw [hpage]
  rfl

theorem entries_transferred (u : System σ) (area : Area) (d : DeviceId) (p : PageId)
    (sector : UInt64) (bytes : Bytes) (w : σ) :
    (transferred u area d p sector bytes w).entries b =
      .transferred (u.devices.get d).queue .read p (u.pages.get p).order (.ok ()) ::
        (due b area u.devices (u.pages.get p).slot w).toList.map fun n => .told n.1 n.2 := by
  have hpage : (transferred u area d p sector bytes w).page =
      { u.pages.get p with transfer := .reading, bytes } := Table.get_set_self _ _ _
  unfold entries entry notice
  rw [hpage]
  rfl

/-- **A request that was read is ended** in one go. -/
theorem ending_settled {u : System σ} {r : RequestId} {q : Request} (bytes : Bytes) (w : σ)
    (hr : Ready u q) (hread : q.direction = .read) : ∃ console,
      (settled u r q bytes w).ending b (settled u r q bytes w).state =
        .ok ((), { u.finished b r q (.ok ()) bytes w with console }) := by
  have htransfer := hr.transfer
  rw [hread] at htransfer
  have hwp : (endRead b r { q with status := .ok () }).wp
      (fun _ v => ∃ console, v = { u.finished b r q (.ok ()) bytes w with console })
      (fun _ => False) (settled u r q bytes w).state := by
    unfold settled System.finished noticedBy
    rw [hread]
    refine endRead_wp (by rw [Table.get_set_self]; exact htransfer)
      (by rw [Table.get_set_self]; exact hr.locked hread) hr.tag fun console => ⟨console, ?_⟩
    simp only [Table.get_set_self, Table.set_set]
    rcases q.sleeper with _ | i <;> rfl
  obtain ⟨_, v, hrun, console, rfl⟩ := Run.exists_ok_of_wp hwp
  exact ⟨console, hrun⟩

/-- **A transfer without a request is ended** in one go. -/
theorem ending_transferred {u : System σ} {area : Area} {d : DeviceId} {p : PageId}
    (sector : UInt64) (bytes : Bytes) (w : σ) (hlocked : (u.pages.get p).flags.locked = true) :
    (transferred u area d p sector bytes w).ending b (transferred u area d p sector bytes w).state =
      .ok ((), { u with
        pages := u.pages.set p ((u.pages.get p).ended .read (.ok ()) bytes
          (PageSwap.noticed b area u.devices (u.pages.get p).slot w).1)
        world := b.statistics.record .pageIn
          (PageSwap.noticed b area u.devices (u.pages.get p).slot w).2 }) := by
  refine Run.eq_ok_of_wp ?_
  change (readDone b area p).wp _ _ _
  unfold transferred
  refine readDone_leaves (by rw [Table.get_set_self]; exact hlocked) (by rw [Table.get_set_self]) ?_
  simp only [Table.get_set_self, Table.set_set]
  exact ⟨trivial, rfl⟩

end

end Fetch

/-! ## 3. The entries that matter -/

/-- The entry tells of a read from a device that went well, or of a driver that was told. -/
def Entry.matters : Entry → Bool
  | .told _ _ => true
  | .transferred _ .read _ _ (.ok _) => true
  | .settled _ q _ (.ok _) => q.direction = .read
  | _ => false

/-- The journal has grown, and these are its new entries that matter. -/
def Grown (journal : σ → List Entry) (w w' : σ) (es : List Entry) : Prop :=
  ∃ news, journal w' = journal w ++ news ∧ news.filter Entry.matters = es

section

variable {b : Backend σ} {journal : σ → List Entry} {w w₁ w' : σ} {es es' : List Entry} {e : Entry}

theorem Grown.of_eq (h : journal w' = journal w) : Grown journal w w' [] :=
  ⟨[], by rw [h, List.append_nil], rfl⟩

theorem Grown.of_entry (h : journal w' = journal w ++ [e]) (he : e.matters = false) :
    Grown journal w w' [] :=
  ⟨[e], h, by rw [List.filter_cons_of_neg (by simp [he])]; rfl⟩

theorem Grown.of_matters (h : journal w' = journal w ++ [e]) (he : e.matters = true) :
    Grown journal w w' [e] :=
  ⟨[e], h, List.filter_cons_of_pos he⟩

theorem Grown.trans (h : Grown journal w w₁ es) (h' : Grown journal w₁ w' es') :
    Grown journal w w' (es ++ es') := by
  obtain ⟨news, hnews, rfl⟩ := h
  obtain ⟨news', hnews', rfl⟩ := h'
  exact ⟨news ++ news', by rw [hnews', hnews, List.append_assoc], List.filter_append _ _⟩

/-- **Dealing with the slot of a page that was read** leaves what is due in the journal. -/
theorem Backend.Journals.grown_noticed (hj : b.Journals journal) (area : Area)
    (devices : Table Device) (slot : Option Slot) (w : σ) :
    Grown journal w (PageSwap.noticed b area devices slot w).2
      ((due b area devices slot w).toList.map fun n => .told n.1 n.2) := by
  unfold PageSwap.noticed
  rcases slot with _ | sl
  · exact .of_eq rfl
  rcases hback : area.backing with d | ⟨f, d⟩ | f
  · have hcount := hj.count area.slotMap sl.offset w
    rw [due_of_device hback]
    dsimp only
    by_cases hwants : b.queues.wantsFreed (devices.get d).queue w = true
    · by_cases hone : (b.slotMaps.count area.slotMap sl.offset w).1 = 1
      · rw [if_pos hwants, if_pos hone, if_pos ⟨hwants, hone⟩]
        exact (Grown.of_entry hcount rfl).trans (.of_matters (hj.slotFreed _ _ _) rfl)
      · rw [if_pos hwants, if_neg hone, if_neg fun h => hone h.2]
        exact .of_entry hcount rfl
    · rw [if_neg hwants, if_neg fun h => hwants h.1]
      exact .of_eq rfl
  · unfold due
    rw [hback]
    exact .of_eq rfl
  · unfold due
    rw [hback]
    exact .of_eq rfl

end

end PageSwap
