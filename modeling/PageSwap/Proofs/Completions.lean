/-
# What a completion does

A completion settles a request in one go: the page, the request, the tag of its device, and the
sleeper change together.  `System.finished` is the state after it.  Operations that finish requests
in passing -- submitting, polling, relaxing, waiting -- do nothing else that an invariant of pages,
devices and requests could notice.

A call that waits lets ANY requests be finished in its middle, also those of other pages, so no
invariant can be carried through the text of such a call.  It is carried through a list of small
changes instead: a property that completions, asides of collaborators and writes to the console keep
is `Lasting`, and every operation that finishes requests keeps every such property.  To use this, an
invariant is looked at once for each kind of change, and the loops of polling and waiting are gone
through here and nowhere else.

Two things about `Lasting` are less obvious than they look.  It has `ready` among its fields, since
a completion faults on a request whose page is not in transfer or whose device has no tag out: a
property that does not imply this cannot last, whatever it says itself.  And it may not speak of
readers, since a reader that waits writes its own word at each step.  A property that has to say
whose waker was taken is `Attentive`, which asks for one more field; that a reader does not go to
sleep twice is then no part of the property but of the reader (`Reader.Calm`), because others can
only wake it (`Woken`).

* `finish_wp` -- a request that is `Ready` leaves `finished`, or the driver faults.
* `Tolerant`, `Backend.Foreign` -- the faults of collaborators.
* `Lasting` -- a property that completions and bookkeeping keep.
* `Attentive` -- one that may also say which readers have been woken.
* `Attentive.finishAll`, `Attentive.submit`, `Attentive.poll`, `Attentive.await` -- the operations
  above keep it, and a reader that waits leaves only when it has been woken.
-/
import Mathlib.Logic.Relation
import PageSwap.Proofs.Run

namespace PageSwap

variable {σ : Type}

/-! ## 1. The page -/

/-- The transfer a page is in while a request of this direction exists. -/
def Direction.transfer : Direction → Transfer
  | .read => .reading
  | .write => .writing

/-- The ending of requests of this direction. -/
def Direction.ending : Direction → Ending
  | .read => .read
  | .write => .write

/-- A page whose transfer is over.  The driver left `bytes`; `freed` is whether the slot of a page
that was read has been given up. -/
def Page.ended (direction : Direction) (status : Status) (bytes : Bytes) (freed : Bool)
    (page : Page) : Page :=
  { page with
    bytes, transfer := .idle
    flags := match direction, status with
      | .write, .ok () => page.flags
      | .write, .error _ => { page.flags with error := true, dirty := true, reclaim := false }
      | .read, .ok () =>
        { page.flags with
          locked := false, uptodate := true, error := false, dirty := page.flags.dirty || freed }
      | .read, .error _ => { page.flags with locked := false, uptodate := false, error := true } }

section

variable {direction : Direction} {status : Status} {bytes : Bytes} {freed : Bool} {page : Page}

@[simp] theorem Page.ended_slot : (page.ended direction status bytes freed).slot = page.slot := rfl

end

/-! ## 2. The slot of a page that has been read -/

/-- What becomes of the slot of a page that has been read: whether it is given up, and the world
after it.  Only the driver of a whole device is told, and only if the page is the slot's one
user. -/
def noticed (b : Backend σ) (area : Area) (devices : Table Device) (slot : Option Slot) (w : σ) :
    Bool × σ :=
  match slot, area.backing with
  | some slot, .device d =>
    let queue := (devices.get d).queue
    if b.queues.wantsFreed queue w then
      let (count, w) := b.slotMaps.count area.slotMap slot.offset w
      if count = 1 then (true, b.queues.slotFreed queue slot.offset w) else (false, w)
    else (false, w)
  | _, _ => (false, w)

/-- A page whose slot may have been given up: it is dirty then. -/
def Page.noting (freed : Bool) (page : Page) : Page :=
  { page with flags.dirty := page.flags.dirty || freed }

theorem Page.noting_false (page : Page) : page.noting false = page := by
  unfold noting; rw [Bool.or_false]

theorem Page.noting_true (page : Page) : page.noting true = page.setDirty := by
  unfold noting setDirty; rw [Bool.or_true]

theorem notifyFreed_wp {b : Backend σ} {area : Area} {p : PageId} {post : Unit → System σ → Prop}
    {stop : Fault → Prop} {s : System σ} {pages : Table Page} {page : Page}
    (hs : s.pages = pages.set p page) :
    (notifyFreed b area p).wp post stop s ↔
      post () { s with
        pages := pages.set p (page.noting (noticed b area s.devices page.slot s.world).1)
        world := (noticed b area s.devices page.slot s.world).2 } := by
  -- both ask in one order: a slot, a whole device, a driver that wants to know, a count of one
  unfold notifyFreed noticed
  simp only [Run.wp_bind, Run.wp_page, hs, Table.get_set_self]
  rcases hslot : page.slot with _ | slot
  · simp only [Page.noting_false, Run.wp_pure, ← hs]
  rcases hback : area.backing with d | ⟨f, d⟩ | f
  · simp only [Run.wp_bind, Run.wp_device, Run.wp_get, Run.wp_ite]
    split
    · simp only [Run.wp_world]
      split
      · simp only [Run.wp_editPage, hs, Table.get_set_self, Table.set_set, Page.noting_true]
      · simp only [Page.noting_false, ← hs, Run.wp_pure]
    · simp only [Page.noting_false, ← hs, Run.wp_pure]
  · simp only [Page.noting_false, ← hs, Run.wp_pure]
  · simp only [Page.noting_false, ← hs, Run.wp_pure]

/-! ## 3. A completion -/

/-- What a completion needs: the request ends as its direction says, its page is in that transfer
-- locked, for a read -- and its device has a tag out.  These are the assertions a completion makes;
it needs no more to go through. -/
structure Ready (s : System σ) (q : Request) : Prop where
  ending : q.ending = q.direction.ending
  transfer : (s.pages.get q.page).transfer = q.direction.transfer
  locked : q.direction = .read → (s.pages.get q.page).flags.locked = true
  tag : 0 < (s.devices.get q.device).inflight

/-- The slot of the page of a finished request: given up after a read without error. -/
def noticedBy (b : Backend σ) (s : System σ) (q : Request) (status : Status) (w : σ) : Bool × σ :=
  match q.direction, status with
  | .read, .ok () => noticed b q.area s.devices (s.pages.get q.page).slot w
  | _, _ => (false, w)

/-- **The state after a completion** of `q`, whose transfer ended with `status`, `bytes` and `w`. -/
def System.finished (b : Backend σ) (s : System σ) (r : RequestId) (q : Request) (status : Status)
    (bytes : Bytes) (w : σ) : System σ :=
  let freed := noticedBy b s q status w
  { s with
    pages := s.pages.set q.page ((s.pages.get q.page).ended q.direction status bytes freed.1)
    devices := s.devices.set q.device
      { s.devices.get q.device with inflight := (s.devices.get q.device).inflight - 1 }
    requests := s.requests.set r none
    sleepers := match q.direction, q.sleeper with
      | .read, some i => s.sleepers.set i (s.sleepers.get i).wake
      | _, _ => s.sleepers
    world := freed.2 }

theorem endWrite_of {p : Page} (h : p.transfer = .writing) :
    p.endWrite = .ok { p with transfer := .idle } :=
  Page.move_eq_ok_iff.mpr ⟨h, rfl⟩

theorem endRead_of {p : Page} (h : p.transfer = .reading) :
    p.endRead = .ok { p with transfer := .idle } :=
  Page.move_eq_ok_iff.mpr ⟨h, rfl⟩

theorem startWrite_of {p : Page} (h : p.transfer = .idle) :
    p.startWrite = .ok { p with transfer := .writing } :=
  Page.move_eq_ok_iff.mpr ⟨h, rfl⟩

theorem startRead_of {p : Page} (h : p.transfer = .idle) :
    p.startRead = .ok { p with transfer := .reading } :=
  Page.move_eq_ok_iff.mpr ⟨h, rfl⟩

theorem unlock_of {p : Page} (h : p.flags.locked = true) :
    p.unlock = .ok { p with flags.locked := false } :=
  Page.unlock_eq_ok_iff.mpr ⟨h, rfl⟩

section

variable {b : Backend σ} {s : System σ} {stop : Fault → Prop}

/-- The ending of a write. -/
theorem endWrite_wp {r : RequestId} {q : Request} {post : Unit → System σ → Prop}
    (htransfer : (s.pages.get q.page).transfer = .writing)
    (htag : 0 < (s.devices.get q.device).inflight)
    (hpost : ∀ console, post () { s with
      pages := s.pages.set q.page
        ((s.pages.get q.page).ended .write q.status (s.pages.get q.page).bytes false)
      devices := s.devices.set q.device
        { s.devices.get q.device with inflight := (s.devices.get q.device).inflight - 1 }
      requests := s.requests.set r none
      console }) :
    (endWrite r q).wp post stop s := by
  unfold endWrite
  simp only [Run.wp_bind, Run.wp_log]
  cases hst : q.status with
  | ok u =>
    rw [hst] at hpost
    simp only [Run.wp_bind]
    refine Run.wp_tryPage_of_ok (endWrite_of htransfer) (Run.wp_dropRequest_of_pos htag ?_)
    exact hpost _
  | error e =>
    rw [hst] at hpost
    simp only [Run.wp_bind, Run.wp_editPage, Run.wp_device, Run.wp_log, Table.get_set_self,
      Table.set_set]
    refine Run.wp_tryPage_of_ok (endWrite_of (by rw [Table.get_set_self]; exact htransfer))
      (Run.wp_dropRequest_of_pos htag ?_)
    simp only [Table.get_set_self, Table.set_set]
    exact hpost _

/-- The end of every read: its page is given back, the request is dropped, and the reader that waits
for it is woken.  The two branches of `endRead` differ in the flags they set before this. -/
def releaseRead (r : RequestId) (q : Request) : Run σ Unit := do
  Run.tryPage q.page Page.endRead
  Run.tryPage q.page Page.unlock
  Run.dropRequest r q
  match q.sleeper with
  | some i => Run.setSleeper i (← Run.sleeper i).wake
  | none => pure ()

theorem releaseRead_wp {r : RequestId} {q : Request} {post : Unit → System σ → Prop}
    (htransfer : (s.pages.get q.page).transfer = .reading)
    (hlocked : (s.pages.get q.page).flags.locked = true)
    (htag : 0 < (s.devices.get q.device).inflight)
    (hpost : post () { s with
      pages := s.pages.set q.page
        { s.pages.get q.page with transfer := .idle, flags.locked := false }
      devices := s.devices.set q.device
        { s.devices.get q.device with inflight := (s.devices.get q.device).inflight - 1 }
      requests := s.requests.set r none
      sleepers := match q.sleeper with
        | some i => s.sleepers.set i (s.sleepers.get i).wake
        | none => s.sleepers }) :
    (releaseRead r q).wp post stop s := by
  unfold releaseRead
  rw [Run.wp_bind]
  refine Run.wp_tryPage_of_ok (endRead_of htransfer) ?_
  rw [Run.wp_bind]
  refine Run.wp_tryPage_of_ok (unlock_of (by rw [Table.get_set_self]; exact hlocked)) ?_
  rw [Run.wp_bind]
  refine Run.wp_dropRequest_of_pos htag ?_
  simp only [Table.get_set_self, Table.set_set]
  cases hsl : q.sleeper with
  | none =>
    rw [hsl] at hpost
    exact hpost
  | some i =>
    rw [hsl] at hpost
    simp only [Run.wp_bind, Run.wp_sleeper, Run.wp_setSleeper]
    exact hpost

/-- The ending of a read. -/
theorem endRead_wp {r : RequestId} {q : Request} {post : Unit → System σ → Prop}
    (htransfer : (s.pages.get q.page).transfer = .reading)
    (hlocked : (s.pages.get q.page).flags.locked = true)
    (htag : 0 < (s.devices.get q.device).inflight)
    (hpost : ∀ console,
      let freed := match q.status with
        | .ok () => noticed b q.area s.devices (s.pages.get q.page).slot s.world
        | .error _ => (false, s.world)
      post () { s with
        pages := s.pages.set q.page
          ((s.pages.get q.page).ended .read q.status (s.pages.get q.page).bytes freed.1)
        devices := s.devices.set q.device
          { s.devices.get q.device with inflight := (s.devices.get q.device).inflight - 1 }
        requests := s.requests.set r none
        sleepers := match q.sleeper with
          | some i => s.sleepers.set i (s.sleepers.get i).wake
          | none => s.sleepers
        console
        world := freed.2 }) :
    (endRead b r q).wp post stop s := by
  unfold endRead
  simp only [Run.wp_bind, Run.wp_log]
  cases hst : q.status with
  | ok u =>
    rw [hst] at hpost
    simp only [Run.wp_bind, Run.wp_editPage]
    refine (notifyFreed_wp rfl).mpr ?_
    -- what is left of `endRead` is put together again, so that it can be read as `releaseRead`
    simp only [← Run.wp_bind]
    refine releaseRead_wp (by rw [Table.get_set_self]; exact htransfer)
      (by rw [Table.get_set_self]; exact hlocked) htag ?_
    simp only [Table.get_set_self, Table.set_set]
    exact hpost _
  | error e =>
    rw [hst] at hpost
    simp only [Run.wp_bind, Run.wp_editPage, Run.wp_device, Run.wp_log]
    simp only [← Run.wp_bind]
    refine releaseRead_wp (by rw [Table.get_set_self]; exact htransfer)
      (by rw [Table.get_set_self]; exact hlocked) htag ?_
    simp only [Table.get_set_self, Table.set_set]
    exact hpost _

/-- **A request that is ready is finished in one go**, unless the driver faults. -/
theorem finish_wp {f : Finish} {q : Request} {post : Unit → System σ → Prop}
    (hq : s.requests.get f.request = some q) (hr : Ready s q)
    (hfault : ∀ e, b.queues.settle (s.devices.get q.device).queue f q (s.pages.get q.page) s.world =
      .error e → stop e)
    (hpost : ∀ status bytes w console,
      b.queues.settle (s.devices.get q.device).queue f q (s.pages.get q.page) s.world =
        .ok ((status, bytes), w) →
      post () { s.finished b f.request q status bytes w with console }) :
    (finish b f).wp post stop s := by
  unfold finish
  simp only [Run.wp_bind, Run.wp_request?, hq, Run.wp_device, Run.wp_page, Run.wp_tryWorld]
  cases hset : b.queues.settle (s.devices.get q.device).queue f q (s.pages.get q.page) s.world with
  | error e => exact hfault e hset
  | ok out =>
    obtain ⟨⟨status, bytes⟩, w⟩ := out
    have hpost := fun console => hpost status bytes w console hset
    -- bytes and status of the driver are written first, and the ending of the request reads them
    unfold complete
    simp only [Run.wp_bind, Run.wp_editPage, Run.wp_request?, hq, Run.wp_setRequest, hr.ending]
    unfold System.finished noticedBy at hpost
    cases hdir : q.direction with
    | write =>
      have htransfer := hr.transfer
      rw [hdir] at hpost htransfer
      refine endWrite_wp (by rw [Table.get_set_self]; exact htransfer) hr.tag fun console => ?_
      simp only [Table.get_set_self, Table.set_set]
      exact hpost console
    | read =>
      have htransfer := hr.transfer
      have hlocked := hr.locked hdir
      rw [hdir] at hpost htransfer
      refine endRead_wp (by rw [Table.get_set_self]; exact htransfer)
        (by rw [Table.get_set_self]; exact hlocked) hr.tag fun console => ?_
      simp only [Table.get_set_self, Table.set_set]
      rcases hsl : q.sleeper with _ | i
      · rw [hsl] at hpost
        cases status with
        | ok u => exact hpost console
        | error e => exact hpost console
      · rw [hsl] at hpost
        cases status with
        | ok u => exact hpost console
        | error e => exact hpost console

end

/-! ## 4. Bookkeeping -/

/-- A step of a collaborator in passing: nothing is transferred, counted or looked up.  The finishes
a step answers are no part of it, they are completions of their own. -/
inductive Aside (b : Backend σ) : σ → σ → Prop
  | cycles (w : σ) : Aside b w (b.statistics.cycles w).2
  | enter (w : σ) : Aside b w (b.stalls.enter w).2
  | leave (n : UInt64) (w : σ) : Aside b w (b.stalls.leave n w)
  | submit (queue : QueueId) (r : RequestId) (q : Request) (d : Device) (page : Page) (w : σ) :
      Aside b w (b.queues.submit queue r q d page w).2
  | poll (queue : QueueId) (cookie : UInt64) (spin : Bool) (w : σ) :
      Aside b w (b.queues.poll queue cookie spin w).2
  | relax (w : σ) : Aside b w (b.relax w).2
  | turn {start : σ} {t : Turn σ} (h : t ∈ (b.relax start).1) (w : σ) : Aside b w (t w).2

/-- One step of bookkeeping of a collaborator: nothing is transferred.  Besides what it does in
passing a collaborator may be asked to count, and a log or a medium that is left alone by this is
left alone by all of a call but its transfer. -/
inductive Chore (b : Backend σ) : σ → σ → Prop
  | record (t : Tally) (w : σ) : Chore b w (b.statistics.record t w)
  | recordMany (t : Tally) (n : UInt64) (w : σ) : Chore b w (b.statistics.recordMany t n w)
  | accumulate (n : UInt64) (w : σ) : Chore b w (b.statistics.accumulate n w)
  | cycles (w : σ) : Chore b w (b.statistics.cycles w).2
  | enter (w : σ) : Chore b w (b.stalls.enter w).2
  | leave (n : UInt64) (w : σ) : Chore b w (b.stalls.leave n w)
  | count (m : SlotMapId) (offset : UInt64) (w : σ) : Chore b w (b.slotMaps.count m offset w).2
  | submit (queue : QueueId) (r : RequestId) (q : Request) (d : Device) (page : Page) (w : σ) :
      Chore b w (b.queues.submit queue r q d page w).2
  | poll (queue : QueueId) (cookie : UInt64) (spin : Bool) (w : σ) :
      Chore b w (b.queues.poll queue cookie spin w).2
  | relax (w : σ) : Chore b w (b.relax w).2
  | turn {start : σ} {t : Turn σ} (h : t ∈ (b.relax start).1) (w : σ) : Chore b w (t w).2

theorem Aside.chore {b : Backend σ} {w w' : σ} (h : Aside b w w') : Chore b w w' := by
  cases h with
  | cycles => exact .cycles _
  | enter => exact .enter _
  | leave => exact .leave _ _
  | submit => exact .submit _ _ _ _ _ _
  | poll => exact .poll _ _ _ _
  | relax => exact .relax _
  | turn h => exact .turn h _

/-- Bookkeeping, any number of steps. -/
abbrev Chores (b : Backend σ) : σ → σ → Prop := Relation.ReflTransGen (Chore b)

/-! ## 5. Properties that last -/

/-- A waker is taken once: to wake a sleeper a second time does nothing. -/
theorem Sleeper.wake_wake (x : Sleeper) : x.wake.wake = x.wake := by
  rcases x with ⟨⟨_ | u⟩, word⟩ <;> rfl

theorem Sleeper.word_wake (x : Sleeper) : x.wake.word = x.word ∨ x.wake.word = .running := by
  rcases x with ⟨⟨_ | u⟩, word⟩
  · exact Or.inl rfl
  · exact Or.inr rfl

/-- Sleepers change only by being woken. -/
def Woken (before after : Table Sleeper) : Prop :=
  ∀ i, after.get i = before.get i ∨ after.get i = (before.get i).wake

theorem Woken.refl (t : Table Sleeper) : Woken t t := fun _ => Or.inl rfl

theorem Woken.trans {t u v : Table Sleeper} (h : Woken t u) (h' : Woken u v) : Woken t v := by
  intro i
  rcases h i with h | h <;> rcases h' i with h' | h' <;> rw [h', h]
  · exact Or.inl rfl
  · exact Or.inr rfl
  · exact Or.inr rfl
  · exact Or.inr (Sleeper.wake_wake _)

theorem woken_wake (t : Table Sleeper) (i : SleeperId) : Woken t (t.set i (t.get i).wake) := by
  intro j
  rw [Table.get_set]
  split
  · rename_i h
    rw [h]
    exact Or.inr rfl
  · exact Or.inl rfl

theorem woken_finished (b : Backend σ) (s : System σ) (r : RequestId) (q : Request)
    (status : Status) (bytes : Bytes) (w : σ) :
    Woken s.sleepers (s.finished b r q status bytes w).sleepers := by
  unfold System.finished
  dsimp only
  split
  · exact woken_wake _ _
  · exact Woken.refl _

/-- The faults in `stop` include those of a front store. -/
structure FrontFaults (b : Backend σ) (stop : Fault → Prop) : Prop where
  store : ∀ {front p page w e}, b.front = some front → front.store p page w = .error e → stop e
  load : ∀ {front p page w e}, b.front = some front → front.load p page w = .error e → stop e
  loadLater : ∀ {front p page w e}, b.front = some front → front.loadLater p page w = .error e →
    stop e

/-- Where there is no front store, it has no faults. -/
theorem FrontFaults.of_absent {b : Backend σ} {stop : Fault → Prop} (h : b.front = none) :
    FrontFaults b stop := by
  constructor <;> exact fun hfront => absurd (h.symm.trans hfront) nofun

/-- The faults in `stop` include those of the collaborators that move pages, which pages, devices
and requests do not decide.  Whoever adds words up or waits says so besides. -/
structure Tolerant (b : Backend σ) (stop : Fault → Prop) : Prop extends FrontFaults b stop where
  settle : ∀ {queue f q page w e}, b.queues.settle queue f q page w = .error e → stop e
  transfer : ∀ {queue sector direction p page w e},
    b.queues.transfer queue sector direction p page w = .error e → stop e

/-- **A fault of a collaborator** that moves pages. -/
inductive Backend.Foreign (b : Backend σ) : Fault → Prop
  | settle {queue : QueueId} {f : Finish} {q : Request} {page : Page} {w : σ} {e : Fault}
      (h : b.queues.settle queue f q page w = .error e) : b.Foreign e
  | transfer {queue : QueueId} {sector : UInt64} {direction : Direction} {p : PageId} {page : Page}
      {w : σ} {e : Fault} (h : b.queues.transfer queue sector direction p page w = .error e) :
      b.Foreign e
  | store {front : FrontStore σ} {p : PageId} {page : Page} {w : σ} {e : Fault}
      (hfront : b.front = some front) (h : front.store p page w = .error e) : b.Foreign e
  | load {front : FrontStore σ} {p : PageId} {page : Page} {w : σ} {e : Fault}
      (hfront : b.front = some front) (h : front.load p page w = .error e) : b.Foreign e
  | loadLater {front : FrontStore σ} {p : PageId} {page : Page} {w : σ} {e : Fault}
      (hfront : b.front = some front) (h : front.loadLater p page w = .error e) : b.Foreign e

/-- The least tolerant `stop` is `b.Foreign`, so a property that lasts for every tolerant one also
says of each fault where it is from. -/
theorem Tolerant.of_foreign {b : Backend σ} {stop : Fault → Prop} (h : ∀ e, b.Foreign e → stop e) :
    Tolerant b stop where
  settle := fun hsettle => h _ (.settle hsettle)
  transfer := fun htransfer => h _ (.transfer htransfer)
  store := fun hfront hstore => h _ (.store hfront hstore)
  load := fun hfront hload => h _ (.load hfront hload)
  loadLater := fun hfront hload => h _ (.loadLater hfront hload)

/-- Where any fault will do. -/
theorem tolerant_any {b : Backend σ} : Tolerant b fun _ => True := .of_foreign fun _ _ => trivial

/-- **A property that lasts**: completions and what collaborators do in passing keep it, and it does
not speak of readers or of the console.  Whatever faults then is in `stop`. -/
structure Lasting (b : Backend σ) (stop : Fault → Prop) (I : System σ → Prop) : Prop where
  tolerant : Tolerant b stop
  blind : ∀ {s} sleepers console limiter, I s → I { s with sleepers, console, limiter }
  aside : ∀ {s w}, I s → Aside b s.world w → I { s with world := w }
  ready : ∀ {s r q}, I s → s.requests.get r = some q → Ready s q
  finished : ∀ {s f q status bytes w}, I s → s.requests.get f.request = some q →
    b.queues.settle (s.devices.get q.device).queue f q (s.pages.get q.page) s.world =
      .ok ((status, bytes), w) → I (s.finished b f.request q status bytes w)

/-- **A property that lasts while readers wait**: completions, what collaborators do in passing, and
the steps of a reader keep it.  Unlike one that is `Lasting` it may say whose waker was taken. -/
structure Attentive (b : Backend σ) (stop : Fault → Prop) (I : System σ → Prop) : Prop where
  tolerant : Tolerant b stop
  silent : ∀ {s} console limiter, I s → I { s with console, limiter }
  step : ∀ {s i x}, I s → x.waiter = (s.sleepers.get i).waiter →
    I { s with sleepers := s.sleepers.set i x }
  aside : ∀ {s w}, I s → Aside b s.world w → I { s with world := w }
  ready : ∀ {s r q}, I s → s.requests.get r = some q → Ready s q
  finished : ∀ {s f q status bytes w}, I s → s.requests.get f.request = some q →
    b.queues.settle (s.devices.get q.device).queue f q (s.pages.get q.page) s.world =
      .ok ((status, bytes), w) → I (s.finished b f.request q status bytes w)

namespace Attentive

variable {b : Backend σ} {stop : Fault → Prop} {I : System σ → Prop} {s : System σ}

/-- A request that is gone already is not finished again. -/
theorem finish (hI : Attentive b stop I) (f : Finish) (h : I s) :
    (PageSwap.finish b f).wp (fun _ s' => I s' ∧ Woken s.sleepers s'.sleepers) stop s := by
  cases hq : s.requests.get f.request with
  | none =>
    unfold PageSwap.finish
    simp only [Run.wp_bind, Run.wp_request?, hq, Run.wp_pure]
    exact ⟨h, Woken.refl _⟩
  | some q =>
    refine finish_wp hq (hI.ready h hq) (fun e he => hI.tolerant.settle he)
      fun status bytes w console hset => ⟨?_, ?_⟩
    · exact hI.silent console _ (hI.finished h hq hset)
    · exact woken_finished b s f.request q status bytes w

theorem finishAll (hI : Attentive b stop I) (fs : List Finish) :
    ∀ {s : System σ}, I s →
      (PageSwap.finishAll b fs).wp (fun _ s' => I s' ∧ Woken s.sleepers s'.sleepers) stop s := by
  induction fs with
  | nil => intro s h; exact ⟨h, Woken.refl _⟩
  | cons f fs ih =>
    intro s h
    change (PageSwap.finish b f >>= fun _ => PageSwap.finishAll b fs).wp _ stop s
    rw [Run.wp_bind]
    refine Run.wp_mono (hI.finish f h) (fun _ s' h' => ?_) fun _ hf => hf
    exact Run.wp_mono (ih h'.1) (fun _ s'' h'' => ⟨h''.1, h'.2.trans h''.2⟩) fun _ hf => hf

theorem submit (hI : Attentive b stop I) (r : RequestId) (q : Request) (h : I s) :
    (PageSwap.submit b r q).wp (fun _ s' => I s' ∧ Woken s.sleepers s'.sleepers) stop s := by
  unfold PageSwap.submit
  simp only [Run.wp_bind, Run.wp_device, Run.wp_log, Run.wp_page, Run.wp_world]
  have h' : ∀ console, I { s with
      console, world := (b.queues.submit (s.devices.get q.device).queue r q
        (s.devices.get q.device) (s.pages.get q.page) s.world).2 } := fun console =>
    hI.aside (hI.silent console s.limiter h) (.submit _ r q _ _ s.world)
  exact Run.wp_mono (hI.finishAll _ (h' _)) (fun _ _ h'' => h'') fun _ hf => hf

theorem poll (hI : Attentive b stop I) (d : DeviceId) (cookie : UInt64) (spin : Bool) (h : I s) :
    (PageSwap.poll b d cookie spin).wp (fun _ s' => I s' ∧ Woken s.sleepers s'.sleepers)
      stop s := by
  unfold PageSwap.poll
  simp only [Run.wp_bind, Run.wp_device, Run.wp_world]
  have h' := hI.aside h (.poll (s.devices.get d).queue cookie spin s.world)
  exact Run.wp_mono (hI.finishAll _ h') (fun _ _ h'' => h'') fun _ hf => hf

theorem relax (hI : Attentive b stop I) (h : I s) :
    (PageSwap.relax b).wp (fun _ s' => I s' ∧ Woken s.sleepers s'.sleepers) stop s := by
  -- each turn is one of those the outside world had planned, run in the world as it is by then
  have hturns : ∀ (turns : List (Turn σ)), (∀ t ∈ turns, t ∈ (b.relax s.world).1) →
      ∀ {s' : System σ}, I s' →
        (turns.forM fun turn => do PageSwap.finishAll b (← Run.world turn)).wp
          (fun _ s'' => I s'' ∧ Woken s'.sleepers s''.sleepers) stop s' := by
    intro turns
    induction turns with
    | nil => intro _ s' h'; exact ⟨h', Woken.refl _⟩
    | cons turn turns ih =>
      intro hmem s' h'
      change ((Run.world turn >>= PageSwap.finishAll b) >>= fun _ => turns.forM fun turn => do
        PageSwap.finishAll b (← Run.world turn)).wp _ stop s'
      simp only [Run.wp_bind, Run.wp_world]
      have hturn := hI.aside h' (.turn (hmem turn List.mem_cons_self) s'.world)
      refine Run.wp_mono (hI.finishAll _ hturn) (fun _ s₁ h₁ => ?_) fun _ hf => hf
      refine Run.wp_mono (ih (fun t ht => hmem t (List.mem_cons_of_mem _ ht)) h₁.1)
        (fun _ s₂ h₂ => ⟨h₂.1, h₁.2.trans h₂.2⟩) fun _ hf => hf
  unfold PageSwap.relax
  simp only [Run.wp_bind, Run.wp_world]
  exact hturns _ (fun _ ht => ht) (hI.aside h (.relax s.world))

end Attentive

namespace Lasting

variable {b : Backend σ} {stop : Fault → Prop} {I : System σ → Prop} {s : System σ}

/-- A fact that is no part of the state lasts with what lasts. -/
theorem guard (hI : Lasting b stop I) (P : Prop) : Lasting b stop fun s => P ∧ I s where
  tolerant := hI.tolerant
  blind := fun sleepers console limiter h => ⟨h.1, hI.blind sleepers console limiter h.2⟩
  aside := fun h hw => ⟨h.1, hI.aside h.2 hw⟩
  ready := fun h hq => hI.ready h.2 hq
  finished := fun h hq hsettle => ⟨h.1, hI.finished h.2 hq hsettle⟩

/-- What lasts for each index lasts for some index. -/
theorem any {ι : Type} [Inhabited ι] {I : ι → System σ → Prop} (hI : ∀ i, Lasting b stop (I i)) :
    Lasting b stop fun s => ∃ i, I i s where
  tolerant := (hI default).tolerant
  blind := fun sleepers console limiter ⟨i, h⟩ => ⟨i, (hI i).blind sleepers console limiter h⟩
  aside := fun ⟨i, h⟩ hw => ⟨i, (hI i).aside h hw⟩
  ready := fun ⟨i, h⟩ hq => (hI i).ready h hq
  finished := fun ⟨i, h⟩ hq hsettle => ⟨i, (hI i).finished h hq hsettle⟩

/-- Meanwhile no request is made: a completion writes to the place of a request that is there, and
so below the first fresh one. -/
theorem keepsFresh (hI : Lasting b stop I) (n : Nat) :
    Lasting b stop fun s => s.requests.fresh = n ∧ I s where
  tolerant := hI.tolerant
  blind := fun sleepers console limiter h => ⟨h.1, hI.blind sleepers console limiter h.2⟩
  aside := fun h hw => ⟨h.1, hI.aside h.2 hw⟩
  ready := fun h hq => hI.ready h.2 hq
  finished := fun {s f q _ _ _} h hq hsettle => by
    have hold : f.request < s.requests.fresh := Nat.lt_of_not_le fun hge => by
      rw [Table.get_of_fresh_le _ hge] at hq
      exact absurd hq nofun
    exact ⟨(Table.fresh_set_of_lt s.requests hold none).trans h.1, hI.finished h.2 hq hsettle⟩

/-- What lasts lasts while readers wait. -/
theorem attentive (hI : Lasting b stop I) : Attentive b stop I where
  tolerant := hI.tolerant
  silent := fun {s} console limiter h => hI.blind s.sleepers console limiter h
  step := fun {s _ _} h _ => hI.blind _ s.console s.limiter h
  aside := hI.aside
  ready := hI.ready
  finished := hI.finished

theorem finish (hI : Lasting b stop I) (f : Finish) (h : I s) :
    (PageSwap.finish b f).wp (fun _ s' => I s' ∧ Woken s.sleepers s'.sleepers) stop s :=
  hI.attentive.finish f h

theorem submit (hI : Lasting b stop I) (r : RequestId) (q : Request) (h : I s) :
    (PageSwap.submit b r q).wp (fun _ s' => I s') stop s :=
  Run.wp_mono (hI.attentive.submit r q h) (fun _ _ h' => h'.1) fun _ hf => hf

end Lasting

/-! ## 6. A reader that waits -/

/-- A reader that may go to sleep next has not gone to sleep already.  The points are those between
preparing the word and starting to sleep; before them the word is about to be written, and once a
sleep has started it may find the word in any state. -/
def Reader.Calm (r : Reader) (w : Parker) : Prop :=
  match r.point with
  | .check | .poll | .sleep (.start _) => w ≠ .parked
  | _ => True

theorem Reader.calm_start (w : Parker) : Reader.start.Calm w := trivial

/-- **A reader never goes to sleep twice**, so its steps do not fault. -/
theorem Reader.step_of_calm {r : Reader} {x : Sleeper} (hit : Bool) (h : r.Calm x.word) :
    ∃ r' x', r.step hit x = .ok (r', x') ∧ r'.Calm x'.word := by
  obtain ⟨point, budget⟩ := r
  cases point with
  | prepare => exact ⟨_, _, rfl, nofun⟩
  | check =>
    refine ⟨_, _, rfl, ?_⟩
    unfold Reader.Calm
    dsimp only
    cases x.waiter.isPending with
    | true => exact h
    | false => trivial
  | poll =>
    unfold Reader.step
    cases hit with
    | true => exact ⟨_, _, rfl, trivial⟩
    | false =>
      by_cases hb : 0 < budget
      · simp only [Bool.false_eq_true, if_false, hb, if_true]
        exact ⟨_, _, rfl, trivial⟩
      · simp only [Bool.false_eq_true, if_false, hb]
        exact ⟨_, _, rfl, h⟩
  | withdraw => exact ⟨_, _, rfl, trivial⟩
  | relax => exact ⟨_, _, rfl, trivial⟩
  | leave => exact ⟨_, _, rfl, trivial⟩
  | done => exact ⟨_, _, rfl, trivial⟩
  | sleep here =>
    -- past its start a sleep may be in any state of the word
    unfold Reader.step
    cases here with
    | start left =>
      obtain ⟨waiter, word⟩ := x
      cases word with
      | running => exact ⟨_, _, rfl, trivial⟩
      | parking => rcases left with _ | _ | n <;> exact ⟨_, _, rfl, trivial⟩
      | parked => exact absurd rfl h
    | look left =>
      simp only [Sleep.step]
      cases x.word.isRunning with
      | true => exact ⟨_, _, rfl, trivial⟩
      | false => exact ⟨_, _, rfl, trivial⟩
    | relax left =>
      simp only [Sleep.step]
      rcases left with _ | _ | _ | n <;> exact ⟨_, _, rfl, trivial⟩
    | giveUp => exact ⟨_, _, rfl, trivial⟩
    | awake woken => exact ⟨_, _, rfl, trivial⟩

theorem Reader.Calm.woken {r : Reader} {t u : Table Sleeper} {i : SleeperId}
    (h : r.Calm (t.get i).word) (hw : Woken t u) : r.Calm (u.get i).word := by
  have hword : (u.get i).word = (t.get i).word ∨ (u.get i).word = .running := by
    rcases hw i with hw | hw <;> rw [hw]
    · exact Or.inl rfl
    · exact Sleeper.word_wake _
  rcases hword with hword | hword
  · rw [hword]; exact h
  · rw [hword]
    unfold Reader.Calm
    split
    · exact Parker.noConfusion
    · exact Parker.noConfusion
    · exact Parker.noConfusion
    · trivial

/-- A reader touches its word only, never the waker. -/
theorem Reader.step_waiter {r r' : Reader} {x x' : Sleeper} {hit : Bool}
    (h : r.step hit x = .ok (r', x')) : x'.waiter = x.waiter := by
  obtain ⟨point, budget⟩ := r
  have hsame : ∀ {out : Except Fault (Reader × Sleeper)} {next : Reader} {word : Parker},
      out = .ok (r', x') → out = .ok (next, { x with word }) → x'.waiter = x.waiter := by
    intro out next word hout heq
    obtain ⟨-, rfl⟩ := Prod.mk.inj (Except.ok.inj (hout.symm.trans heq))
    rfl
  cases point with
  | poll =>
    unfold Reader.step at h
    cases hit with
    | true => exact hsame h rfl
    | false =>
      by_cases hb : 0 < budget
      · simp only [Bool.false_eq_true, if_false, hb, if_true] at h
        exact hsame h rfl
      · simp only [Bool.false_eq_true, if_false, hb] at h
        exact hsame h rfl
  | sleep here =>
    unfold Reader.step at h
    dsimp only at h
    split at h
    · exact hsame h rfl
    · exact hsame h rfl
    · exact absurd h nofun
  | prepare => exact hsame h rfl
  | check => exact hsame h rfl
  | withdraw => exact hsame h rfl
  | relax => exact hsame h rfl
  | leave => exact hsame h rfl
  | done => exact hsame h rfl

/-- The reader is about to leave, or has left. -/
def Reader.Gone (r : Reader) : Prop := r.point = .leave ∨ r.point = .done

/-- **A reader leaves only when its waker has been taken.**  Of all its points `check` alone leads
out, and it does where nothing is pending. -/
theorem Reader.step_gone {r r' : Reader} {x x' : Sleeper} {hit : Bool}
    (h : r.step hit x = .ok (r', x')) (hgone : r'.Gone) :
    r.Gone ∨ x.waiter.isPending = false := by
  obtain ⟨point, budget⟩ := r
  have hstays : ∀ {out : Except Fault (Reader × Sleeper)} {next : Reader} {y : Sleeper},
      out = .ok (r', x') → out = .ok (next, y) → next.Gone := by
    intro out next y hout heq
    obtain ⟨rfl, -⟩ := Prod.mk.inj (Except.ok.inj (hout.symm.trans heq))
    exact hgone
  have hnot : ∀ {point : Point} {budget : Nat}, point ≠ .leave → point ≠ .done →
      ¬ Reader.Gone ⟨point, budget⟩ :=
    fun hleave hdone hg => hg.elim hleave hdone
  cases point with
  | check =>
    have hnext := hstays h rfl
    cases hpending : x.waiter.isPending with
    | false => exact Or.inr rfl
    | true =>
      rw [hpending] at hnext
      exact absurd hnext (hnot nofun nofun)
  | poll =>
    unfold Reader.step at h
    cases hit with
    | true => exact absurd (hstays h rfl) (hnot nofun nofun)
    | false =>
      by_cases hb : 0 < budget
      · simp only [Bool.false_eq_true, if_false, hb, if_true] at h
        exact absurd (hstays h rfl) (hnot nofun nofun)
      · simp only [Bool.false_eq_true, if_false, hb] at h
        exact absurd (hstays h rfl) (hnot nofun nofun)
  | sleep here =>
    unfold Reader.step at h
    dsimp only at h
    split at h
    · exact absurd (hstays h rfl) (hnot nofun nofun)
    · exact absurd (hstays h rfl) (hnot nofun nofun)
    · exact absurd h nofun
  | prepare => exact absurd (hstays h rfl) (hnot nofun nofun)
  | withdraw => exact absurd (hstays h rfl) (hnot nofun nofun)
  | relax => exact absurd (hstays h rfl) (hnot nofun nofun)
  | leave => exact Or.inl (Or.inl rfl)
  | done => exact Or.inl (Or.inr rfl)

/-- A reader that wants to stop has left. -/
theorem Reader.gone_of_demand_stop {r : Reader} (h : r.demand = .stop) : r.Gone := by
  obtain ⟨point, budget⟩ := r
  cases point with
  | done => exact Or.inr rfl
  | sleep here => cases here <;> cases h
  | prepare | check | poll | withdraw | relax | leave => cases h

/-- A reader that is about to leave needs nothing from the outside. -/
theorem Reader.Gone.demand {r : Reader} (h : r.Gone) : r.demand = .none ∨ r.demand = .stop := by
  obtain ⟨point, budget⟩ := r
  rcases h with h | h
  · cases h
    exact Or.inl rfl
  · cases h
    exact Or.inr rfl

/-- **What lasts while readers wait lasts while this one waits**, and when it leaves its waker has
been taken. -/
theorem Attentive.await {b : Backend σ} {stop : Fault → Prop} {I : System σ → Prop}
    (hI : Attentive b stop I) (hwait : stop .stalled) (d : DeviceId) (cookie : UInt64)
    (i : SleeperId) :
    ∀ (fuel : Nat) {r : Reader} {s : System σ}, I s → r.Calm (s.sleepers.get i).word →
      (r.Gone → (s.sleepers.get i).waiter.isPending = false) →
      (PageSwap.await b d cookie i fuel r).wp
        (fun _ s' => I s' ∧ (s'.sleepers.get i).waiter.isPending = false) stop s := by
  intro fuel
  induction fuel with
  | zero =>
    intro r s h hcalm hgone
    -- out of fuel: the reader has left already, or the wait does not end
    unfold PageSwap.await
    by_cases hd : r.demand = .stop
    · rw [if_pos hd]; exact ⟨h, hgone (Reader.gone_of_demand_stop hd)⟩
    · rw [if_neg hd]; exact hwait
  | succ fuel ih =>
    intro r s h hcalm hgone
    -- what is left once the outside world has had its turn
    have hrest : ∀ hit (s' : System σ), I s' → Woken s.sleepers s'.sleepers →
        (r.Gone → (s'.sleepers.get i).waiter.isPending = false) →
        (do
          let x ← Run.check (r.step hit (← Run.sleeper i))
          Run.setSleeper i x.2
          PageSwap.await b d cookie i fuel x.1 : Run σ Unit).wp
            (fun _ s' => I s' ∧ (s'.sleepers.get i).waiter.isPending = false) stop s' := by
      intro hit s' h' hw hgone'
      obtain ⟨r', x', hstep, hcalm'⟩ := Reader.step_of_calm hit (hcalm.woken hw)
      have hwaiter := Reader.step_waiter hstep
      simp only [Run.wp_bind, Run.wp_sleeper, hstep, Run.wp_check_ok, Run.wp_setSleeper]
      refine ih (hI.step h' hwaiter) ?_ fun hnext => ?_
      · rw [Table.get_set_self]
        exact hcalm'
      · rw [Table.get_set_self, hwaiter]
        exact (Reader.step_gone hstep hnext).elim hgone' id
    unfold PageSwap.await
    cases hd : r.demand with
    | stop => exact ⟨h, hgone (Reader.gone_of_demand_stop hd)⟩
    | none => exact hrest false s h (Woken.refl _) hgone
    | poll =>
      dsimp only
      rw [if_pos rfl, Run.wp_bind]
      refine Run.wp_mono (hI.poll d cookie true h) (fun hit s' h' => ?_) fun _ hf => hf
      rw [if_neg (by decide)]
      refine hrest hit s' h'.1 h'.2 fun hg => ?_
      rcases hg.demand with hnone | hstop
      · cases hd.symm.trans hnone
      · cases hd.symm.trans hstop
    | relax =>
      dsimp only
      rw [if_neg (by decide), Run.wp_bind, Run.wp_pure, if_pos rfl, Run.wp_bind]
      refine Run.wp_mono (hI.relax h) (fun _ s' h' => ?_) fun _ hf => hf
      refine hrest false s' h'.1 h'.2 fun hg => ?_
      rcases hg.demand with hnone | hstop
      · cases hd.symm.trans hnone
      · cases hd.symm.trans hstop

/-- What lasts also lasts while a reader waits. -/
theorem Lasting.await {b : Backend σ} {stop : Fault → Prop} {I : System σ → Prop} {s : System σ}
    (hI : Lasting b stop I) (hwait : stop .stalled) (d : DeviceId) (cookie : UInt64)
    (i : SleeperId) (fuel : Nat) (h : I s) :
    (PageSwap.await b d cookie i fuel Reader.start).wp (fun _ s' => I s') stop s :=
  Run.wp_mono
    (hI.attentive.await hwait d cookie i fuel h (Reader.calm_start _)
      fun hgone => hgone.elim nofun nofun) (fun _ _ h' => h'.1) fun _ hf => hf

end PageSwap
