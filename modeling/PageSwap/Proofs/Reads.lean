/-
# What reading a page in does

Up to the moment its request is handed over, a read is a single step from one state to another:
`DeviceRead` and `FileRead` list the ways it can go, `SlotRead` is either of them, and `PageRead`
puts the front store in front.  Everything after that moment, a wait included, is completions and
bookkeeping.

As for writes (`PageSwap.Proofs.Writes`), these relations are all that is known of reading
elsewhere. A read differs in what it does to the page before the request is handed over, which is
nothing but to start its transfer: the page stays locked, so nobody but the completion can unlock
it, and a reader that waits needs no word about the page, only about its waker.  A request with a
reader is the same as one without but for that reader, and both are one constructor
(`DeviceRead.issued`); the sleeper that is made for it is looked at only where a wait is counted or
ended.

* `readDevice_steps`, `pageIn_steps` -- what follows whom.
* `readDevice_wp`, `readFile_wp` -- reading from a device and through a file system.
* `pageIn_wp` -- the entry point.
-/
import PageSwap.Proofs.Writes

namespace PageSwap

variable {σ : Type}

/-! ## 1. Steps -/

/-- The end of a read on a page that has no transfer. -/
theorem Page.ended_of_idle {page : Page} (h : page.transfer = .idle) (e : Errno) :
    page.ended .read (.error e) page.bytes false =
      { page with
        flags := { page.flags with locked := false, uptodate := false, error := true } } := by
  unfold Page.ended
  rw [← h]

section

variable {b : Backend σ} {s : System σ} {p : PageId} {stop : Fault → Prop}

theorem failRead_wp {why : Refusal} {post : Status → System σ → Prop}
    (hheld : (s.pages.get p).Held)
    (hpost : post (.error why.errno) { s with
      pages := s.pages.set p
        ((s.pages.get p).ended .read (.error why.errno) (s.pages.get p).bytes false) }) :
    (failRead p why).wp post stop s := by
  unfold failRead
  simp only [Run.wp_bind, Run.wp_editPage]
  refine Run.wp_tryPage_of_ok (unlock_of (by rw [Table.get_set_self]; exact hheld.1)) ?_
  simp only [Table.get_set_self, Table.set_set, Run.wp_pure]
  rw [Page.ended_of_idle hheld.2] at hpost
  exact hpost

end

/-! ## 2. From a device -/

/-- **How reading from a device goes** up to handing a request over: the page has no sector, the
driver fills the page at once, no request is to be had, or a request is issued. -/
inductive DeviceRead (b : Backend σ) (area : Area) (d : DeviceId) (p : PageId) (s : System σ) :
    Status → System σ → Prop
  | lost {why : Refusal} (hsector : area.sector (s.pages.get p).slot = .error (.refused why)) :
      DeviceRead b area d p s (.error why.errno) { s with
        pages := s.pages.set p
          ((s.pages.get p).ended .read (.error why.errno) (s.pages.get p).bytes false) }
  | direct {sector : UInt64} {bytes : Bytes} {w₁ w₂ : σ}
      (hsector : area.sector (s.pages.get p).slot = .ok sector)
      (htransfer : b.queues.transfer (s.devices.get d).queue sector .read p
        { s.pages.get p with transfer := .reading } s.world = .ok ((.ok (), bytes), w₁))
      (hchores : Chores b (noticed b area s.devices (s.pages.get p).slot w₁).2 w₂)
      (hcounted : w₂ = b.statistics.record .pageIn
        (noticed b area s.devices (s.pages.get p).slot w₁).2) :
      DeviceRead b area d p s (.ok ()) { s with
        pages := s.pages.set p ((s.pages.get p).ended .read (.ok ()) bytes
          (noticed b area s.devices (s.pages.get p).slot w₁).1)
        world := w₂ }
  | crowded {sector : UInt64} {e : Errno} {bytes : Bytes} {w₁ : σ} {why : Refusal}
      (hsector : area.sector (s.pages.get p).slot = .ok sector)
      (htransfer : b.queues.transfer (s.devices.get d).queue sector .read p
        { s.pages.get p with transfer := .reading } s.world = .ok ((.error e, bytes), w₁))
      (hwhy : b.queues.maxPages (s.devices.get d).queue w₁ < (s.pages.get p).nrPages ∧
          why = .requestTooLarge ∨
        (s.devices.get d).reserveTag = none ∧ why = .noTag) :
      DeviceRead b area d p s (.error why.errno) { s with
        pages := s.pages.set p { (s.pages.get p).released with transfer := .idle, bytes }
        world := w₁ }
  | issued {sector : UInt64} {e : Errno} {bytes : Bytes} {w₁ w₂ : σ} {dev : Device} {q : Request}
      (hsector : area.sector (s.pages.get p).slot = .ok sector)
      (htransfer : b.queues.transfer (s.devices.get d).queue sector .read p
        { s.pages.get p with transfer := .reading } s.world = .ok ((.error e, bytes), w₁))
      (hroom : ¬ b.queues.maxPages (s.devices.get d).queue w₁ < (s.pages.get p).nrPages)
      (htag : (s.devices.get d).reserveTag = some dev)
      (hq : q = { direction := .read, sector, page := p, device := d, area, ending := .read } ∨
        ∃ i, q = Request.awaitedBy
          { direction := .read, sector, page := p, device := d, area, ending := .read } i)
      (hchores : Chores b w₁ w₂) (hcounted : w₂ = b.statistics.record .pageIn w₁) :
      DeviceRead b area d p s (.ok ()) { s with
        pages := s.pages.set p { s.pages.get p with transfer := .reading, bytes }
        devices := s.devices.set d dev
        requests := s.requests.set s.requests.fresh (some q)
        world := w₂ }

section

variable {b : Backend σ} {area : Area} {d : DeviceId} {p : PageId} {pace : Pace} {s : System σ}
  {stop : Fault → Prop} {I : Status → System σ → Prop}

/-- The slot is dealt with under the lock, which nobody else was quicker to take. -/
theorem readDone_leaves {post : Unit → System σ → Prop}
    (hlocked : (s.pages.get p).flags.locked = true)
    (hreading : (s.pages.get p).transfer = .reading)
    (hpost : post () { s with
      pages := s.pages.set p ((s.pages.get p).ended .read (.ok ()) (s.pages.get p).bytes
        (noticed b area s.devices (s.pages.get p).slot s.world).1)
      world := b.statistics.record .pageIn
        (noticed b area s.devices (s.pages.get p).slot s.world).2 }) :
    (readDone b area p).wp post stop s := by
  unfold readDone
  simp only [Run.wp_bind, Run.wp_editPage]
  refine Run.wp_tryPage_of_ok (endRead_of (by rw [Table.get_set_self]; exact hreading))
    (Run.wp_tryPage_of_ok (unlock_of (by simp only [Table.get_set_self]; exact hlocked)) ?_)
  simp only [Table.get_set_self, Table.set_set, Run.wp_page, Page.tryLock, Bool.not_false, if_true,
    Run.wp_bind]
  refine (notifyFreed_wp rfl).mpr ?_
  refine Run.wp_tryPage_of_ok (unlock_of (by rw [Table.get_set_self]; rfl)) ?_
  simp only [Table.get_set_self, Table.set_set, countPageIn, Run.wp_world]
  exact hpost

/-- A read that is counted and handed over. -/
theorem issue_leaves {q : Request} {post : UInt64 → System σ → Prop}
    (hidle : (s.pages.get p).transfer = .idle)
    (hpost : (submit b s.requests.fresh q).wp post stop { s with
      pages := s.pages.set p { s.pages.get p with transfer := .reading }
      requests := s.requests.set s.requests.fresh (some q)
      world := b.statistics.record .pageIn s.world }) :
    (readRequest.issue b p q).wp post stop s := by
  unfold readRequest.issue
  simp only [Run.wp_bind, Run.wp_addRequest, countPageIn, Run.wp_world]
  exact Run.wp_tryPage_of_ok (startRead_of hidle) hpost

/-- A read that is handed over. -/
theorem issue_wp {q : Request} {post : UInt64 → System σ → Prop}
    (hidle : (s.pages.get p).transfer = .idle)
    (hpost : ∀ w, Chores b s.world w →
      (submit b s.requests.fresh q).wp post stop { s with
        pages := s.pages.set p { s.pages.get p with transfer := .reading }
        requests := s.requests.set s.requests.fresh (some q)
        world := w }) :
    (readRequest.issue b p q).wp post stop s :=
  issue_leaves hidle (hpost _ (.single (.record _ _)))

/-- **Reading from a device, step by step**: it is one step of `DeviceRead` that makes no request,
or one that makes one, which is handed over, and waited for if asked to. -/
theorem readDevice_steps {post : Status → System σ → Prop} (hb : Tolerant b stop)
    (hsums : area.Sums b stop) (hheld : (s.pages.get p).Held)
    (hmain : ∀ status s', DeviceRead b area d p s status s' → s'.requests = s.requests →
      post status s')
    (hissued : ∀ q s', pace ≠ .await → DeviceRead b area d p s (.ok ()) s' →
      s'.requests = s.requests.set s.requests.fresh (some q) → q.page = p → q.sleeper = none →
      (submit b s.requests.fresh q).wp (fun _ => post (.ok ())) stop s')
    (hawaited : ∀ q s', pace = .await → DeviceRead b area d p s (.ok ()) s' →
      s'.requests = s.requests.set s.requests.fresh (some q) → q.page = p →
      q.sleeper = some s.sleepers.fresh → s'.sleepers = s.sleepers →
      (submit b s.requests.fresh q).wp
        (fun cookie => (await b d cookie s.sleepers.fresh b.patience Reader.start).wp
          (fun _ => post (.ok ())) stop)
        stop { s' with sleepers := s.sleepers.set s.sleepers.fresh {} }) :
    (readDevice b area d p pace).wp post stop s := by
  obtain ⟨hlocked, hidle⟩ := hheld
  unfold readDevice
  simp only [Run.wp_bind, Run.wp_page, Run.wp_attempt]
  cases hsector : area.sector (s.pages.get p).slot with
  | error e =>
    cases e with
    | fault f => exact hsums.sector hsector
    | refused why => exact failRead_wp ⟨hlocked, hidle⟩ (hmain _ _ (.lost hsector) rfl)
  | ok sector =>
    dsimp only
    refine Run.wp_tryPage_of_ok (startRead_of hidle)
      (transferNow_wp hb fun status bytes w₁ htr => ?_)
    rw [Table.get_set_self] at htr
    cases status with
    | ok u =>
      simp only [Run.wp_bind, Table.get_set_self, Table.set_set]
      refine readDone_leaves (by rw [Table.get_set_self]; exact hlocked)
        (by rw [Table.get_set_self]) ?_
      simp only [Table.get_set_self, Table.set_set, Run.wp_pure]
      exact hmain _ _ (.direct hsector htr (.single (.record _ _)) rfl) rfl
    | error e =>
      simp only [Run.wp_bind, Table.get_set_self, Table.set_set]
      refine Run.wp_tryPage_of_ok (endRead_of (by rw [Table.get_set_self])) ?_
      simp only [Table.get_set_self, Table.set_set]
      unfold readRequest
      rw [Run.wp_bind]
      refine allocRequest_wp (by rw [Table.get_set_self]; exact hsector)
        (fun hlarge => ?_) (fun htag => ?_) (fun dev hroom htag => ?_)
      · rw [Run.wp_bind]
        refine Run.wp_tryPage_of_ok (unlock_of (by rw [Table.get_set_self]; exact hlocked)) ?_
        simp only [Table.get_set_self, Table.set_set, Run.wp_pure] at hlarge ⊢
        exact hmain _ _ (.crowded hsector htr (Or.inl ⟨hlarge, rfl⟩)) rfl
      · rw [Run.wp_bind]
        refine Run.wp_tryPage_of_ok (unlock_of (by rw [Table.get_set_self]; exact hlocked)) ?_
        simp only [Table.get_set_self, Table.set_set, Run.wp_pure] at htag ⊢
        exact hmain _ _ (.crowded hsector htr (Or.inr ⟨htag, rfl⟩)) rfl
      · simp only [Table.get_set_self] at hroom
        -- the sleeper is made between the request and handing it over
        by_cases hpace : pace = .await
        · dsimp only
          rw [if_pos hpace]
          simp only [Run.wp_bind, Run.wp_addSleeper, Run.wp_pure]
          refine issue_leaves (by rw [Table.get_set_self]) ?_
          simp only [Table.get_set_self, Table.set_set]
          have hstep := DeviceRead.issued hsector htr hroom htag (Or.inr ⟨s.sleepers.fresh, rfl⟩)
            (.single (.record _ _)) rfl
          have hrest := hawaited _ _ hpace hstep rfl rfl rfl rfl
          exact hrest
        · dsimp only
          simp only [if_neg hpace, Run.wp_bind, Run.wp_pure]
          refine issue_leaves (by rw [Table.get_set_self]) ?_
          simp only [Table.get_set_self, Table.set_set]
          have hstep := DeviceRead.issued hsector htr hroom htag (Or.inl rfl)
            (.single (.record _ _)) rfl
          exact hissued _ _ hpace hstep rfl rfl rfl

/-- **Reading from a device** is one step of `DeviceRead`, and what lasts. -/
theorem readDevice_wp (hI : ∀ status, Lasting b stop (I status)) (hsums : area.Sums b stop)
    (hwait : pace = .await → stop .stalled) (hheld : (s.pages.get p).Held)
    (hmain : ∀ status s', DeviceRead b area d p s status s' → I status s') :
    (readDevice b area d p pace).wp I stop s := by
  refine readDevice_steps (hI (.ok ())).tolerant hsums hheld
    (fun status s' h _ => hmain status s' h)
    (fun q s' _ h _ _ _ => (hI _).submit _ q (hmain _ _ h)) fun q s' hpace h _ _ _ _ => ?_
  have hentered := (hI _).blind (s.sleepers.set s.sleepers.fresh {}) s'.console s'.limiter
    (hmain _ _ h)
  exact Run.wp_mono ((hI _).submit _ q hentered)
    (fun cookie _ h' => (hI _).await (hwait hpace) d cookie _ _ h') fun _ hf => hf

end

/-! ## 3. Through a file system -/

/-- The status of a read of a page of `size` bytes by what the file answers. -/
def readStatus (result : Except Errno UInt64) (size : UInt64) : Status :=
  match result with
  | .ok n => if n = size then .ok () else .error Refusal.shortRead.errno
  | .error e => .error e

/-- The end of a read of a page by a file, which is known to have gone like this. -/
def endFileRead (b : Backend σ) (p : PageId) (status : Status) : Run σ Status := do
  match status with
  | .ok () =>
    Run.editPage p Page.setUptodate
    countPageIn b
  | .error _ => Run.editPage p Page.setReadError
  Run.tryPage p Page.unlock
  return status

/-- The world after a read that ended with `status` has been counted. -/
def Backend.countedIn (b : Backend σ) (status : Status) (w : σ) : σ :=
  match status with
  | .ok () => b.statistics.record .pageIn w
  | .error _ => w

theorem Backend.chores_countedIn (b : Backend σ) (status : Status) (w : σ) :
    Chores b w (b.countedIn status w) := by
  cases status with
  | ok u => exact .single (.record _ _)
  | error e => exact .refl

/-- **How reading through a file system goes**: the page has no position, or the file answers. -/
inductive FileRead (b : Backend σ) (area : Area) (f : FileId) (p : PageId) (s : System σ) :
    Status → System σ → Prop
  | lost {why : Refusal} (hposition : area.position (s.pages.get p).slot = .error why) :
      FileRead b area f p s (.error why.errno) { s with
        pages := s.pages.set p
          ((s.pages.get p).ended .read (.error why.errno) (s.pages.get p).bytes false) }
  | read {position : UInt64} {result : Except Errno UInt64} {bytes : Bytes} {w₁ w₂ : σ}
      (hposition : area.position (s.pages.get p).slot = .ok position)
      (hread : b.files.read f position (s.pages.get p).bytes s.world = ((result, bytes), w₁))
      (hchores : Chores b w₁ w₂)
      (hcounted : w₂ = b.countedIn (readStatus result (s.pages.get p).size) w₁) :
      FileRead b area f p s (readStatus result (s.pages.get p).size) { s with
        pages := s.pages.set p
          ((s.pages.get p).ended .read (readStatus result (s.pages.get p).size) bytes false)
        world := w₂ }

section

variable {b : Backend σ} {area : Area} {f : FileId} {p : PageId} {s : System σ}
  {stop : Fault → Prop} {I : Status → System σ → Prop}

/-- What follows once the file has answered. -/
theorem endFileRead_wp {status : Status} {post : Status → System σ → Prop} {stop : Fault → Prop}
    (hlocked : (s.pages.get p).flags.locked = true)
    (hpost : post status { s with
      pages := s.pages.set p
        { (s.pages.get p).ended .read status (s.pages.get p).bytes false with
          transfer := (s.pages.get p).transfer }
      world := b.countedIn status s.world }) :
    (endFileRead b p status).wp post stop s := by
  unfold endFileRead
  cases status with
  | ok u =>
    simp only [Run.wp_bind, Run.wp_editPage, countPageIn, Run.wp_world]
    refine Run.wp_tryPage_of_ok (unlock_of (by rw [Table.get_set_self]; exact hlocked)) ?_
    simp only [Table.get_set_self, Table.set_set, Run.wp_pure]
    simp only [Page.ended, Bool.or_false] at hpost
    exact hpost
  | error e =>
    simp only [Run.wp_bind, Run.wp_editPage]
    refine Run.wp_tryPage_of_ok (unlock_of (by rw [Table.get_set_self]; exact hlocked)) ?_
    simp only [Table.get_set_self, Table.set_set, Run.wp_pure]
    exact hpost

/-- **Reading through a file system** is one step of `FileRead`. -/
theorem readFile_wp (hheld : (s.pages.get p).Held)
    (hmain : ∀ status s', FileRead b area f p s status s' → I status s') :
    (readFile b area f p).wp I stop s := by
  unfold readFile
  simp only [Run.wp_bind, Run.wp_page]
  cases hposition : area.position (s.pages.get p).slot with
  | error why => exact failRead_wp hheld (hmain _ _ (.lost hposition))
  | ok position =>
    simp only [Run.wp_bind]
    refine Run.wp_tryPage_of_ok (startRead_of hheld.2) ?_
    rcases hread : b.files.read f position (s.pages.get p).bytes s.world with ⟨⟨result, bytes⟩, w₁⟩
    simp only [Run.wp_world, hread, Run.wp_editPage, Table.get_set_self, Table.set_set]
    refine Run.wp_tryPage_of_ok (endRead_of (by rw [Table.get_set_self])) ?_
    simp only [Table.get_set_self, Table.set_set]
    change (endFileRead b p (readStatus result (s.pages.get p).size)).wp I stop _
    refine endFileRead_wp (by rw [Table.get_set_self]; exact hheld.1) ?_
    simp only [Table.get_set_self, Table.set_set]
    exact hmain _ _ (.read hposition hread (b.chores_countedIn _ _) rfl)

end

/-! ## 4. Entry point -/

/-- **How reading from a slot goes**: through the file system or from the device. -/
inductive SlotRead (b : Backend σ) (area : Area) (p : PageId) (s : System σ) :
    Status → System σ → Prop
  | file {f : FileId} {status : Status} {s' : System σ} (hbacking : area.backing = .file f)
      (h : FileRead b area f p s status s') : SlotRead b area p s status s'
  | device {d : DeviceId} {status : Status} {s' : System σ}
      (hbacking : area.backing.device? = some d)
      (h : DeviceRead b area d p s status s') : SlotRead b area p s status s'

/-- What the front store is asked for a page. -/
def FrontStore.fill (front : FrontStore σ) (p : PageId) (pace : Pace) :
    Page → σ → Except Fault ((Bool × Page) × σ) :=
  if pace = .background then front.loadLater p else front.load p

/-- **How reading a page in goes**: the page has no slot, the front store has it, or it is read from
its slot. -/
inductive PageRead (b : Backend σ) (p : PageId) (pace : Pace) (s : System σ) :
    Status → System σ → Prop
  | lost (harea : s.areaAt p = none) :
      PageRead b p pace s (.error Refusal.noSlot.errno) { s with
        pages := s.pages.set p
          ((s.pages.get p).ended .read (.error Refusal.noSlot.errno) (s.pages.get p).bytes false) }
  | loaded {area : Area} {front : FrontStore σ} {page : Page} {w₁ : σ}
      (harea : s.areaAt p = some area) (hfront : b.front = some front)
      (hfill : front.fill p pace (s.pages.get p) s.world = .ok ((true, page), w₁)) :
      PageRead b p pace s (.ok ()) { s with pages := s.pages.set p page, world := w₁ }
  | slot {area : Area} {w₂ : σ} {s₁ s' : System σ} {status : Status}
      (harea : s.areaAt p = some area)
      (hfront : FrontDeclines b (FrontStore.fill · p pace) p s s₁)
      (hchores : Chores b s₁.world w₂)
      (h : SlotRead b area p { s₁ with world := w₂ } status s')
      (hstall : w₂ = (b.stalls.enter s₁.world).2) :
      PageRead b p pace s status s'

/-- A front store that does not have a page leaves it held. -/
def Backend.MindsReads (b : Backend σ) : Prop :=
  ∀ {front p pace page w page' w'}, b.front = some front →
    front.fill p pace page w = .ok ((false, page'), w') → page.Held → page'.Held

section

variable {b : Backend σ} {p : PageId} {pace : Pace} {s : System σ} {stop : Fault → Prop}
  {I : Status → System σ → Prop}

/-- An area that reaches a device. -/
theorem readSlot_eq_readDevice {area : Area} {d : DeviceId} (h : area.backing.device? = some d) :
    readSlot b area p pace = readDevice b area d p pace := by
  unfold readSlot
  cases hback : area.backing with
  | device d' => rw [hback] at h; injection h with h; rw [h]
  | mapped f d' => rw [hback] at h; injection h with h; rw [h]
  | file f => rw [hback] at h; cases h

/-- **Reading from a slot** is one step of `SlotRead`, and what lasts. -/
theorem readSlot_wp {area : Area} (hI : ∀ status, Lasting b stop (I status))
    (hsums : area.Sums b stop) (hwait : pace = .await → stop .stalled)
    (hheld : (s.pages.get p).Held)
    (hmain : ∀ status s', SlotRead b area p s status s' → I status s') :
    (readSlot b area p pace).wp I stop s := by
  unfold readSlot
  cases hback : area.backing with
  | file f => exact readFile_wp hheld fun status s' h => hmain _ _ (.file hback h)
  | device d =>
    exact readDevice_wp hI hsums hwait hheld
      fun status s' h => hmain _ _ (.device (by rw [hback]; rfl) h)
  | mapped f d =>
    exact readDevice_wp hI hsums hwait hheld
      fun status s' h => hmain _ _ (.device (by rw [hback]; rfl) h)

/-- **Reading a page in, step by step**: the page has no area, the front store has it, or it is read
from its slot while the stall is accounted for. -/
theorem pageIn_steps {post : Status → System σ → Prop} (hfaults : FrontFaults b stop)
    (hb : b.MindsReads) (hheld : (s.pages.get p).Held)
    (hclean : (s.pages.get p).flags.uptodate = false)
    (hlost : s.areaAt p = none → post (.error Refusal.noSlot.errno) { s with
      pages := s.pages.set p
        ((s.pages.get p).ended .read (.error Refusal.noSlot.errno) (s.pages.get p).bytes false) })
    (hloaded : ∀ area front page w₁, s.areaAt p = some area → b.front = some front →
      front.fill p pace (s.pages.get p) s.world = .ok ((true, page), w₁) →
      post (.ok ()) { s with pages := s.pages.set p page, world := w₁ })
    (hslot : ∀ area s₁, s.areaAt p = some area →
      FrontDeclines b (FrontStore.fill · p pace) p s s₁ → (s₁.pages.get p).Held →
      (readSlot b area p pace).wp
        (fun status s' => post status
          { s' with world := b.stalls.leave (b.stalls.enter s₁.world).1 s'.world })
        stop { s₁ with world := (b.stalls.enter s₁.world).2 }) :
    (pageIn b p pace).wp post stop s := by
  unfold pageIn
  simp only [Run.wp_bind, Run.wp_page, hheld.1, hclean, if_true, Bool.false_eq_true, if_false]
  rw [areaOf_wp]
  cases harea : s.areaAt p with
  | none => exact failRead_wp hheld (hlost harea)
  | some area =>
    simp only [Run.wp_bind]
    unfold frontLoad
    cases hfront : b.front with
    | none =>
      simp only [Run.wp_pure, Bool.false_eq_true, if_false, Run.wp_bind, Run.wp_world]
      exact hslot area s harea (.absent hfront) hheld
    | some front =>
      change (Run.tryWithPage p (front.fill p pace)).wp _ stop s
      rw [Run.wp_tryWithPage]
      cases hfill : front.fill p pace (s.pages.get p) s.world with
      | error e =>
        unfold FrontStore.fill at hfill
        split at hfill
        · exact hfaults.loadLater hfront hfill
        · exact hfaults.load hfront hfill
      | ok out =>
        obtain ⟨⟨answer, page⟩, w₁⟩ := out
        cases answer with
        | true => exact hloaded area front page w₁ harea hfront hfill
        | false =>
          have hpage := hb hfront hfill hheld
          simp only [Bool.false_eq_true, if_false, Run.wp_bind, Run.wp_world, Run.wp_pure]
          exact hslot area _ harea (.declined hfront hfill)
            (by rw [Table.get_set_self]; exact hpage)

/-- **Reading a page in** is one step of `PageRead`, and what lasts. -/
theorem pageIn_wp (hI : ∀ status, Lasting b stop (I status)) (hb : b.MindsReads)
    (hsums : ∀ area, s.areaAt p = some area → area.Sums b stop)
    (hwait : pace = .await → stop .stalled) (hheld : (s.pages.get p).Held)
    (hclean : (s.pages.get p).flags.uptodate = false)
    (hmain : ∀ status s', PageRead b p pace s status s' → I status s') :
    (pageIn b p pace).wp I stop s := by
  refine pageIn_steps (hI (.ok ())).tolerant.toFrontFaults hb hheld hclean
    (fun harea => hmain _ _ (.lost harea))
    (fun area front page w₁ harea hfront hfill => hmain _ _ (.loaded harea hfront hfill))
    fun area s₁ harea hfront hheld' => ?_
  refine Run.wp_mono (readSlot_wp hI (hsums area harea) hwait hheld' fun status s' h => ?_)
    (fun status s' h => ?_) fun _ hf => hf
  · exact hmain _ _ (.slot harea hfront (.single (.enter _)) h rfl)
  · exact (hI status).aside h (.leave _ _)

end

end PageSwap
