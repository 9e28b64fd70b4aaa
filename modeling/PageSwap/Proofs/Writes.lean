/-
# What writing a page out does

Up to the moment its request is handed over, a write is a single step from one state to another:
`DeviceWrite` and `FileWrite` list the ways it can go, `SlotWrite` is either of them, and
`PageWrite` puts in front what the slot map and the front store do.  Everything after that moment
is completions and bookkeeping.

These relations are what every other module knows about writing: an invariant is checked against
their constructors, one case for each way to return, and the code of the operations is opened in
this module only.  So a constructor keeps all that was decided on the way to it, also what the
invariant at hand does not ask for -- the answer of the driver, the reason there was no request, the
world in which each collaborator was asked.  A relation that forgot the reason for a refusal would
still do for every invariant, and could not tell a call that is refused from one that gives up for
nothing.

A write comes in two strengths.  The `_steps` lemmas take any postcondition and hand back the state
in which the request is submitted, for properties that are broken between making a request and
handing it over.  The `_wp` lemmas are those for a property that is `Lasting`, where handing over is
one more thing that keeps it.

* `Area.Unserved`, `Area.Crowded` -- why there was no request to be had.
* `writeDevice_steps`, `pageOut_steps`, `pageOutPast_steps` -- what follows whom.
* `writeDevice_wp`, `writeFile_wp` -- writing to a device and through a file system.
* `pageOut_wp`, `pageOutPast_wp` -- the entry points.
-/
import PageSwap.Proofs.Completions
import PageSwap.Proofs.Extents

namespace PageSwap

variable {σ : Type}

/-! ## 1. Pages whose write is over -/

/-- The page, unlocked. -/
def Page.released (page : Page) : Page := { page with flags.locked := false }

/-- The page after a write that was given up: dirty and unlocked.  Its error flag is as it was. -/
def Page.spilled (page : Page) : Page := { page.released with flags.dirty := true }

/-- The page can be handed to a transfer: it is locked and has none. -/
def Page.Held (page : Page) : Prop := page.flags.locked = true ∧ page.transfer = .idle

/-! ## 2. Where a page goes -/

/-- Looking for a slot, nothing but a sum of words can go wrong.  The other ways to have no sector
are refusals. -/
theorem Area.sector_fault {area : Area} {slot : Option Slot} {f : Fault}
    (h : area.sector slot = .error (.fault f)) : f = .overflow .add := by
  unfold Area.sector Area.block at h
  rcases hoff : area.offset slot with why | offset
  · rw [hoff] at h; exact absurd h nofun
  · rw [hoff] at h
    rcases hmap : area.table.map? offset with e | r
    · simp only [hmap, Except.mapError, bind, Except.bind, liftM, monadLift,
      MonadLift.monadLift] at h
      injection h with h
      injection h with h
      exact h ▸ ExtentTable.onlySums_map? _ _ e hmap
    · simp only [hmap, Except.mapError, bind, Except.bind, liftM, monadLift,
      MonadLift.monadLift] at h
      cases r with
      | none => exact absurd h nofun
      | some block => exact absurd h nofun

/-- **The sums of an area that may not fit are in `stop`**: those made to look a slot up, and the
one made to tell of a page that a file did not take all of. -/
structure Area.Sums (area : Area) (b : Backend σ) (stop : Fault → Prop) : Prop where
  sector : ∀ {slot f}, area.sector slot = .error (.fault f) → stop f
  short : ∀ {f position bytes w result w'}, area.backing = .file f →
    b.files.write f position [bytes] w = (result, w') → result ≠ .ok bytes.size.toUInt64 →
    stop (.overflow .add)

/-- Where sums may fail to fit, those of every area may. -/
theorem Area.Sums.of_stop {area : Area} {b : Backend σ} {stop : Fault → Prop}
    (h : stop (.overflow .add)) : area.Sums b stop :=
  ⟨fun hsector => (sector_fault hsector).symm ▸ h, fun _ _ _ => h⟩

/-- The area that holds the slot of a page. -/
def System.areaAt (s : System σ) (p : PageId) : Option Area :=
  (s.pages.get p).slot.bind fun slot => s.area? slot.area

/-- The dirty flag is no part of where a page goes. -/
theorem System.areaAt_clearDirty (s : System σ) (p : PageId) :
    System.areaAt { s with pages := s.pages.set p (s.pages.get p).clearDirty } p = s.areaAt p := by
  unfold System.areaAt
  rw [Table.get_set_self]
  rfl

theorem areaOf_wp {s : System σ} {p : PageId} {post : Except Refusal Area → System σ → Prop}
    {stop : Fault → Prop} :
    (areaOf p).wp post stop s ↔
      match s.areaAt p with
      | none => post (.error .noSlot) s
      | some area => post (.ok area) s := by
  unfold areaOf System.areaAt
  simp only [Run.wp_bind, Run.wp_page]
  cases (s.pages.get p).slot with
  | none => exact Iff.rfl
  | some slot =>
    simp only [Run.wp_bind, Run.wp_get, Option.bind_some]
    cases s.area? slot.area with
    | none => exact Iff.rfl
    | some area => exact Iff.rfl

/-! ## 3. Steps -/

section

variable {b : Backend σ} {s : System σ} {p : PageId} {stop : Fault → Prop}

theorem failWrite_wp {why : Refusal} {post : Status → System σ → Prop}
    (hlocked : (s.pages.get p).flags.locked = true)
    (hpost : post (.error why.errno) { s with pages := s.pages.set p (s.pages.get p).spilled }) :
    (failWrite p why).wp post stop s := by
  unfold failWrite
  simp only [Run.wp_bind, Run.wp_editPage]
  refine Run.wp_tryPage_of_ok (unlock_of (by rw [Table.get_set_self]; exact hlocked)) ?_
  simp only [Table.get_set_self, Table.set_set, Run.wp_pure]
  exact hpost

theorem startWrite_wp {post : Unit → System σ → Prop}
    (hlocked : (s.pages.get p).flags.locked = true) (hidle : (s.pages.get p).transfer = .idle)
    (hpost : post () { s with
      pages := s.pages.set p { (s.pages.get p).released with transfer := .writing } }) :
    (startWrite p).wp post stop s := by
  unfold startWrite
  rw [Run.wp_bind]
  refine Run.wp_tryPage_of_ok (startWrite_of hidle)
    (Run.wp_tryPage_of_ok (unlock_of (by rw [Table.get_set_self]; exact hlocked)) ?_)
  simp only [Table.get_set_self, Table.set_set]
  exact hpost

/-- The world after a page has been counted as written. -/
def Backend.countedOut (b : Backend σ) (page : Page) (w : σ) : σ :=
  b.statistics.recordMany .pageOut page.nrPages
    (if page.isHuge then b.statistics.record .hugePageOut w else w)

theorem countPageOut_wp_iff {post : Unit → System σ → Prop} :
    (countPageOut b p).wp post stop s ↔
      post () { s with world := b.countedOut (s.pages.get p) s.world } := by
  unfold countPageOut Backend.countedOut
  simp only [Run.wp_bind, Run.wp_page]
  by_cases hhuge : (s.pages.get p).isHuge = true
  · simp only [hhuge, if_true, Run.wp_bind, Run.wp_world]
  · simp only [hhuge, if_false, Bool.false_eq_true, Run.wp_world]

/-- Counting is bookkeeping. -/
theorem Backend.chores_countedOut (b : Backend σ) (page : Page) (w : σ) :
    Chores b w (b.countedOut page w) := by
  unfold Backend.countedOut
  by_cases hhuge : page.isHuge = true
  · rw [if_pos hhuge]
    exact .tail (.single (.record _ _)) (.recordMany _ _ _)
  · rw [if_neg hhuge]
    exact .single (.recordMany _ _ _)

theorem countPageOut_wp {post : Unit → System σ → Prop}
    (hpost : ∀ w, Chores b s.world w → post () { s with world := w }) :
    (countPageOut b p).wp post stop s :=
  countPageOut_wp_iff.mpr (hpost _ (b.chores_countedOut _ _))

/-- A request is had if the page fits one and its device has a tag left. -/
theorem allocRequest_wp {direction : Direction} {area : Area} {d : DeviceId} {ending : Ending}
    {sector : UInt64} {post : Except Refusal Request → System σ → Prop}
    (hsector : area.sector (s.pages.get p).slot = .ok sector)
    (hlarge : b.queues.maxPages (s.devices.get d).queue s.world < (s.pages.get p).nrPages →
      post (.error .requestTooLarge) s)
    (hnone : (s.devices.get d).reserveTag = none → post (.error .noTag) s)
    (hsome : ∀ dev, ¬ b.queues.maxPages (s.devices.get d).queue s.world < (s.pages.get p).nrPages →
      (s.devices.get d).reserveTag = some dev →
      post (.ok { direction, sector, page := p, device := d, area, ending })
        { s with devices := s.devices.set d dev }) :
    (allocRequest b direction area d p ending).wp post stop s := by
  unfold allocRequest
  simp only [Run.wp_bind, Run.wp_page, Run.wp_attempt, hsector, Run.wp_device, Run.wp_get,
    Run.wp_ite]
  split
  · rename_i h
    exact hlarge h
  · rename_i h
    cases htag : (s.devices.get d).reserveTag with
    | none => exact hnone htag
    | some dev => exact hsome dev h htag

/-- The driver may replace the bytes of the page, also where it declines. -/
theorem transferNow_wp {d : DeviceId} {sector : UInt64} {direction : Direction}
    {post : Status → System σ → Prop} (hb : Tolerant b stop)
    (hpost : ∀ status bytes w,
      b.queues.transfer (s.devices.get d).queue sector direction p (s.pages.get p) s.world =
        .ok ((status, bytes), w) →
      post status { s with pages := s.pages.set p { s.pages.get p with bytes }, world := w }) :
    (transferNow b d sector direction p).wp post stop s := by
  unfold transferNow
  simp only [Run.wp_bind, Run.wp_device, Run.wp_page, Run.wp_tryWorld]
  cases htr : b.queues.transfer (s.devices.get d).queue sector direction p
    (s.pages.get p) s.world with
  | error e => exact hb.transfer htr
  | ok out =>
    obtain ⟨⟨status, bytes⟩, w⟩ := out
    exact hpost status bytes w htr

end

/-! ## 4. To a device -/

/-- **No request is to be had** for the page: it is larger than the device takes in one request, or
the device has no tag left.  The device is asked in a world with `asked`: how much it takes may have
changed since, so a refusal is about the world in which it was asked. -/
def Area.Unserved (area : Area) (b : Backend σ) (devices : Table Device) (page : Page)
    (asked : σ → Prop) (status : Status) : Prop :=
  ∃ d, area.backing.device? = some d ∧
    ((∃ w, asked w ∧ b.queues.maxPages (devices.get d).queue w < page.nrPages) ∧
        status = .error Refusal.requestTooLarge.errno ∨
      (devices.get d).reserveTag = none ∧ status = .error Refusal.noTag.errno)

theorem Area.Unserved.of_why {b : Backend σ} {area : Area} {devices : Table Device} {page : Page}
    {asked : σ → Prop} {d : DeviceId} {w : σ} {why : Refusal}
    (hbacking : area.backing.device? = some d) (hasked : asked w)
    (hwhy : b.queues.maxPages (devices.get d).queue w < page.nrPages ∧ why = .requestTooLarge ∨
      (devices.get d).reserveTag = none ∧ why = .noTag) :
    area.Unserved b devices page asked (.error why.errno) := by
  rcases hwhy with ⟨hlarge, rfl⟩ | ⟨htag, rfl⟩
  · exact ⟨d, hbacking, Or.inl ⟨⟨w, hasked, hlarge⟩, rfl⟩⟩
  · exact ⟨d, hbacking, Or.inr ⟨htag, rfl⟩⟩

theorem Area.Unserved.imp {b : Backend σ} {area : Area} {devices : Table Device} {page : Page}
    {asked asked' : σ → Prop} {status : Status} (h : area.Unserved b devices page asked status)
    (hasked : ∀ w, asked w → asked' w) :
    area.Unserved b devices page asked' status := by
  obtain ⟨d, hbacking, hwhy⟩ := h
  exact ⟨d, hbacking, hwhy.imp_left fun ⟨⟨w, hw, hlarge⟩, hstatus⟩ =>
    ⟨⟨w, hasked w hw, hlarge⟩, hstatus⟩⟩

/-- **No request is to be had** for a transfer of page `p` that starts in `s`: the area lies on a
device, the driver does not move the page at once, and then the page is larger than the device takes
in one request, or the device has no tag left; `status` says which. -/
def Area.Crowded (area : Area) (b : Backend σ) (direction : Direction) (p : PageId) (s : System σ)
    (status : Status) : Prop :=
  ∃ d sector e bytes w, area.backing.device? = some d ∧
    area.sector (s.pages.get p).slot = .ok sector ∧
    b.queues.transfer (s.devices.get d).queue sector direction p
      { s.pages.get p with transfer := direction.transfer } s.world = .ok ((.error e, bytes), w) ∧
    area.Unserved b s.devices (s.pages.get p) (· = w) status

theorem Area.Crowded.device {b : Backend σ} {area : Area} {direction : Direction} {p : PageId}
    {s : System σ} {status : Status} (h : area.Crowded b direction p s status) :
    ∃ d, area.backing.device? = some d := by
  obtain ⟨d, -, -, -, -, hbacking, -⟩ := h
  exact ⟨d, hbacking⟩

theorem Area.Crowded.error {b : Backend σ} {area : Area} {direction : Direction} {p : PageId}
    {s : System σ} {status : Status} (h : area.Crowded b direction p s status) :
    ∃ e, status = .error e := by
  obtain ⟨-, -, -, -, -, -, -, -, -, -, ⟨-, hstatus⟩ | ⟨-, hstatus⟩⟩ := h
  · exact ⟨_, hstatus⟩
  · exact ⟨_, hstatus⟩

/-- Where the driver declines, but takes pages of this size and has a tag left, a request is to be
had. -/
theorem Area.not_crowded {b : Backend σ} {area : Area} {direction : Direction} {p : PageId}
    {s : System σ} {d : DeviceId} {sector : UInt64} {e : Errno} {bytes : Bytes} {w : σ}
    {dev : Device} (hbacking : area.backing.device? = some d)
    (hsector : area.sector (s.pages.get p).slot = .ok sector)
    (htransfer : b.queues.transfer (s.devices.get d).queue sector direction p
      { s.pages.get p with transfer := direction.transfer } s.world = .ok ((.error e, bytes), w))
    (hroom : ¬ b.queues.maxPages (s.devices.get d).queue w < (s.pages.get p).nrPages)
    (htag : (s.devices.get d).reserveTag = some dev) (status : Status) :
    ¬ area.Crowded b direction p s status := by
  rintro ⟨d', sector', e', bytes', w', hbacking', hsector', htransfer', d'', hbacking'', hwhy⟩
  obtain rfl : d' = d := Option.some.inj (hbacking'.symm.trans hbacking)
  obtain rfl : d'' = d' := Option.some.inj (hbacking''.symm.trans hbacking)
  obtain rfl : sector' = sector := Except.ok.inj (hsector'.symm.trans hsector)
  obtain rfl : w' = w := congrArg Prod.snd (Except.ok.inj (htransfer'.symm.trans htransfer))
  rcases hwhy with ⟨⟨_, rfl, hlarge⟩, -⟩ | ⟨hnone, -⟩
  · exact hroom hlarge
  · cases htag.symm.trans hnone

/-- **How writing to a device goes** up to handing a request over: the page has no sector, the
driver takes the page at once, no request is to be had, or a request is issued.  In the last two the
driver was asked first and declined, and the transfer it was asked for is over again. -/
inductive DeviceWrite (b : Backend σ) (area : Area) (d : DeviceId) (p : PageId) (w : Writeback)
    (ending : Ending) (s : System σ) : Status → System σ → Prop
  | lost {why : Refusal} (hsector : area.sector (s.pages.get p).slot = .error (.refused why)) :
      DeviceWrite b area d p w ending s (.error why.errno)
        { s with pages := s.pages.set p (s.pages.get p).spilled }
  | direct {sector : UInt64} {bytes : Bytes} {w₁ w₂ : σ}
      (hsector : area.sector (s.pages.get p).slot = .ok sector)
      (htransfer : b.queues.transfer (s.devices.get d).queue sector .write p
        { s.pages.get p with transfer := .writing } s.world = .ok ((.ok (), bytes), w₁))
      (hchores : Chores b w₁ w₂) (hcounted : w₂ = b.countedOut (s.pages.get p) w₁) :
      DeviceWrite b area d p w ending s (.ok ()) { s with
        pages := s.pages.set p { (s.pages.get p).released with transfer := .idle, bytes }
        world := w₂ }
  | crowded {sector : UInt64} {e : Errno} {bytes : Bytes} {w₁ : σ} {why : Refusal}
      (hsector : area.sector (s.pages.get p).slot = .ok sector)
      (htransfer : b.queues.transfer (s.devices.get d).queue sector .write p
        { s.pages.get p with transfer := .writing } s.world = .ok ((.error e, bytes), w₁))
      (hwhy : b.queues.maxPages (s.devices.get d).queue w₁ < (s.pages.get p).nrPages ∧
          why = .requestTooLarge ∨
        (s.devices.get d).reserveTag = none ∧ why = .noTag) :
      DeviceWrite b area d p w ending s (.error why.errno) { s with
        pages := s.pages.set p { (s.pages.get p).spilled with transfer := .idle, bytes }
        world := w₁ }
  | issued {sector : UInt64} {e : Errno} {bytes : Bytes} {w₁ w₂ : σ} {dev : Device}
      (hsector : area.sector (s.pages.get p).slot = .ok sector)
      (htransfer : b.queues.transfer (s.devices.get d).queue sector .write p
        { s.pages.get p with transfer := .writing } s.world = .ok ((.error e, bytes), w₁))
      (hroom : ¬ b.queues.maxPages (s.devices.get d).queue w₁ < (s.pages.get p).nrPages)
      (htag : (s.devices.get d).reserveTag = some dev)
      (hchores : Chores b w₁ w₂) (hcounted : w₂ = b.countedOut (s.pages.get p) w₁) :
      DeviceWrite b area d p w ending s (.ok ()) { s with
        pages := s.pages.set p { (s.pages.get p).released with transfer := .writing, bytes }
        devices := s.devices.set d dev
        requests := s.requests.set s.requests.fresh (some (Request.associate
          { direction := .write, sector, page := p, device := d, area, ending } w))
        world := w₂ }

section

variable {b : Backend σ} {area : Area} {d : DeviceId} {p : PageId} {w : Writeback} {s : System σ}
  {stop : Fault → Prop} {I : Status → System σ → Prop}

/-- **Writing to a device, step by step**: it is one step of `DeviceWrite`, and its request is
handed over. -/
theorem writeDevice_steps {ending : Ending} {post : Status → System σ → Prop}
    (hb : Tolerant b stop) (hsums : area.Sums b stop) (hheld : (s.pages.get p).Held)
    (hmain : ∀ status s', DeviceWrite b area d p w ending s status s' → post status s')
    (hsubmit : ∀ r q s', post (.ok ()) s' → (submit b r q).wp (fun _ => post (.ok ())) stop s') :
    (writeDevice b area d p w ending).wp post stop s := by
  obtain ⟨hlocked, hidle⟩ := hheld
  unfold writeDevice
  simp only [Run.wp_bind, Run.wp_page, Run.wp_attempt]
  cases hsector : area.sector (s.pages.get p).slot with
  | error e =>
    cases e with
    | fault f => exact hsums.sector hsector
    | refused why => exact failWrite_wp hlocked (hmain _ _ (.lost hsector))
  | ok sector =>
    dsimp only
    refine Run.wp_tryPage_of_ok (startWrite_of hidle)
      (transferNow_wp hb fun status bytes w₁ htr => ?_)
    rw [Table.get_set_self] at htr
    -- the driver has taken the page: it is unlocked before its transfer ends
    cases status with
    | ok u =>
      simp only [Run.wp_bind, Table.get_set_self, Table.set_set]
      refine Run.wp_tryPage_of_ok (unlock_of (by rw [Table.get_set_self]; exact hlocked)) ?_
      simp only [Table.get_set_self, Table.set_set]
      refine Run.wp_tryPage_of_ok (endWrite_of (by rw [Table.get_set_self])) ?_
      simp only [Table.get_set_self, Table.set_set]
      rw [countPageOut_wp_iff, Table.get_set_self]
      simp only [Run.wp_pure]
      exact hmain _ _ (.direct hsector htr (b.chores_countedOut _ _) rfl)
    -- it has not: the page is still locked, and is unlocked with the second start or given up
    | error e =>
      simp only [Run.wp_bind, Table.get_set_self, Table.set_set]
      refine Run.wp_tryPage_of_ok (endWrite_of (by rw [Table.get_set_self])) ?_
      simp only [Table.get_set_self, Table.set_set]
      unfold writeRequest
      rw [Run.wp_bind]
      refine allocRequest_wp (by rw [Table.get_set_self]; exact hsector)
        (fun hlarge => ?_) (fun htag => ?_) (fun dev hroom htag => ?_)
      · refine failWrite_wp (by rw [Table.get_set_self]; exact hlocked) ?_
        simp only [Table.get_set_self, Table.set_set] at hlarge ⊢
        exact hmain _ _ (.crowded hsector htr (Or.inl ⟨hlarge, rfl⟩))
      · refine failWrite_wp (by rw [Table.get_set_self]; exact hlocked) ?_
        simp only [Table.get_set_self, Table.set_set]
        exact hmain _ _ (.crowded hsector htr (Or.inr ⟨htag, rfl⟩))
      · simp only [Run.wp_bind, Run.wp_addRequest]
        rw [countPageOut_wp_iff, Table.get_set_self]
        refine startWrite_wp (by rw [Table.get_set_self]; exact hlocked)
          (by rw [Table.get_set_self]) ?_
        simp only [Table.get_set_self, Table.set_set] at hroom ⊢
        have hissued := hmain _ _
          (.issued hsector htr hroom htag (b.chores_countedOut (s.pages.get p) w₁) rfl)
        exact hsubmit _ _ _ hissued

/-- **Writing to a device** is one step of `DeviceWrite`, and what lasts. -/
theorem writeDevice_wp {ending : Ending} (hI : ∀ status, Lasting b stop (I status))
    (hsums : area.Sums b stop) (hheld : (s.pages.get p).Held)
    (hmain : ∀ status s', DeviceWrite b area d p w ending s status s' → I status s') :
    (writeDevice b area d p w ending).wp I stop s :=
  writeDevice_steps (hI (.ok ())).tolerant hsums hheld hmain
    fun r q _ h => (hI (.ok ())).submit r q h

end

/-! ## 5. Through a file system -/

/-- **How writing through a file system goes**: the page has no position, the file takes all of it,
or it takes less and is told of a dirty page.  There is no fourth way: a file needs no request, so
nothing is refused for want of one. -/
inductive FileWrite (b : Backend σ) (area : Area) (f : FileId) (p : PageId) (s : System σ) :
    Status → System σ → Prop
  | lost {why : Refusal} (hposition : area.position (s.pages.get p).slot = .error why) :
      FileWrite b area f p s (.error why.errno)
        { s with pages := s.pages.set p (s.pages.get p).spilled }
  | full {position : UInt64} {w₁ w₂ : σ}
      (hposition : area.position (s.pages.get p).slot = .ok position)
      (hwrite : b.files.write f position [(s.pages.get p).bytes] s.world =
        (.ok (s.pages.get p).size, w₁))
      (hchores : Chores b w₁ w₂) (hcounted : w₂ = b.countedOut (s.pages.get p) w₁) :
      FileWrite b area f p s (.ok ()) { s with
        pages := s.pages.set p { (s.pages.get p).released with transfer := .idle }
        world := w₂ }
  | short {position : UInt64} {result : Except Errno UInt64} {clean : Bool} {page : Page}
      {w₁ w₂ : σ}
      (hposition : area.position (s.pages.get p).slot = .ok position)
      (hwrite : b.files.write f position [(s.pages.get p).bytes] s.world = (result, w₁))
      (hshort : result ≠ .ok (s.pages.get p).size)
      (hdirtied : b.files.dirtied f p { (s.pages.get p).released with transfer := .writing } w₁ =
        ((clean, page), w₂)) :
      FileWrite b area f p s (result.map fun _ => ()) { s with
        pages := s.pages.set p { page with transfer := .idle, flags.reclaim := false }
        world := w₂ }

section

variable {b : Backend σ} {area : Area} {f : FileId} {p : PageId} {s : System σ}
  {stop : Fault → Prop} {I : Status → System σ → Prop}

/-- What a file that was written in part is told of keeps the transfer of the page.  The file system
is handed the page in the middle of a write and may do with it what it likes; were the transfer over
when it comes back, ending it would be a fault. -/
def Backend.KeepsShort (b : Backend σ) (f : FileId) (p : PageId) (page : Page) : Prop :=
  ∀ position w result w₁ clean page' w₂, b.files.write f position [page.bytes] w = (result, w₁) →
    result ≠ .ok page.size →
    b.files.dirtied f p { page.released with transfer := .writing } w₁ = ((clean, page'), w₂) →
    page'.transfer = .writing

theorem retryLater_wp {position : UInt64} {post : Unit → System σ → Prop}
    (hsum : stop (.overflow .add))
    (hpost : ∀ clean page w limiter console,
      b.files.dirtied f p (s.pages.get p) s.world = ((clean, page), w) →
      -- whether a line is printed is up to the limiter, which no property here speaks of
      post () { s with
        pages := s.pages.set p { page with flags.reclaim := false }
        world := w, limiter, console }) :
    (writeFile.retryLater b f p position).wp post stop s := by
  unfold writeFile.retryLater
  rcases hd : b.files.dirtied f p (s.pages.get p) s.world with ⟨⟨clean, page⟩, w⟩
  simp only [Run.wp_bind, Run.wp_withPage, hd, Run.wp_editPage, Table.get_set_self, Table.set_set]
  exact Run.wp_logLimited (fun limiter console => hpost clean page w limiter console hd) hsum

/-- A page that the file has not taken all of. -/
theorem shortWrite_wp {position : UInt64} {result : Except Errno UInt64} {status : Status} {w₁ : σ}
    (hI : Lasting b stop (I status)) (hsum : stop (.overflow .add))
    (hkeeps : b.KeepsShort f p (s.pages.get p))
    (hwrite : b.files.write f position [(s.pages.get p).bytes] s.world = (result, w₁))
    (hshort : result ≠ .ok (s.pages.get p).size)
    (hmain : ∀ clean page w₂,
      b.files.dirtied f p { (s.pages.get p).released with transfer := .writing } w₁ =
        ((clean, page), w₂) →
      I status { s with
        pages := s.pages.set p { page with transfer := .idle, flags.reclaim := false }
        world := w₂ }) :
    (do
      writeFile.retryLater b f p position
      Run.tryPage p Page.endWrite
      return status : Run σ Status).wp I stop { s with
        pages := s.pages.set p { (s.pages.get p).released with transfer := .writing }
        world := w₁ } := by
  rw [Run.wp_bind]
  refine retryLater_wp hsum fun clean page w₂ limiter console hd => ?_
  simp only [Table.get_set_self, Table.set_set] at hd ⊢
  have htransfer := hkeeps _ _ _ _ _ _ _ hwrite hshort hd
  rw [Run.wp_bind]
  refine Run.wp_tryPage_of_ok (endWrite_of (by rw [Table.get_set_self]; exact htransfer)) ?_
  simp only [Table.get_set_self, Table.set_set, Run.wp_pure]
  exact hI.blind _ _ _ (hmain clean page w₂ hd)

/-- **Writing through a file system, step by step**: it is one step of `FileWrite`, or the file has
not taken all of the page, and is told of a dirty one. -/
theorem writeFile_steps {post : Status → System σ → Prop} (hheld : (s.pages.get p).Held)
    (hmain : ∀ status s', FileWrite b area f p s status s' → post status s')
    (hshort : ∀ position result w₁, area.position (s.pages.get p).slot = .ok position →
      b.files.write f position [(s.pages.get p).bytes] s.world = (result, w₁) →
      result ≠ .ok (s.pages.get p).size →
      (do
        writeFile.retryLater b f p position
        Run.tryPage p Page.endWrite
        return result.map fun _ => () : Run σ Status).wp post stop { s with
          pages := s.pages.set p { (s.pages.get p).released with transfer := .writing }
          world := w₁ }) :
    (writeFile b area f p).wp post stop s := by
  obtain ⟨hlocked, hidle⟩ := hheld
  unfold writeFile
  simp only [Run.wp_bind, Run.wp_page]
  cases hposition : area.position (s.pages.get p).slot with
  | error why => exact failWrite_wp hlocked (hmain _ _ (.lost hposition))
  | ok position =>
    simp only [Run.wp_bind]
    refine startWrite_wp hlocked hidle ?_
    simp only [Run.wp_world]
    rcases hwrite : b.files.write f position [(s.pages.get p).bytes] s.world with ⟨result, w₁⟩
    cases result with
    | ok written =>
      dsimp only
      by_cases hfull : written = (s.pages.get p).size
      · subst hfull
        rw [if_pos rfl]
        simp only [Run.wp_bind]
        rw [countPageOut_wp_iff, Table.get_set_self]
        refine Run.wp_tryPage_of_ok (endWrite_of (by rw [Table.get_set_self])) ?_
        simp only [Table.get_set_self, Table.set_set, Run.wp_pure]
        exact hmain _ _ (.full hposition hwrite (b.chores_countedOut _ _) rfl)
      · rw [if_neg hfull]
        exact hshort _ _ _ hposition hwrite fun h => hfull (Except.ok.inj h)
    | error e => exact hshort _ _ _ hposition hwrite fun h => by cases h

/-- **Writing through a file system** is one step of `FileWrite`, and what lasts. -/
theorem writeFile_wp (hI : ∀ status, Lasting b stop (I status)) (hsums : area.Sums b stop)
    (hback : area.backing = .file f) (hheld : (s.pages.get p).Held)
    (hkeeps : b.KeepsShort f p (s.pages.get p))
    (hmain : ∀ status s', FileWrite b area f p s status s' → I status s') :
    (writeFile b area f p).wp I stop s :=
  writeFile_steps hheld hmain fun _ _ _ hposition hwrite hshort =>
    shortWrite_wp (hI _) (hsums.short hback hwrite hshort) hkeeps hwrite hshort
      fun _ _ _ hd => hmain _ _ (.short hposition hwrite hshort hd)

end

/-! ## 6. Entry points -/

/-- **How writing to a slot goes**: through the file system or to the device. -/
inductive SlotWrite (b : Backend σ) (area : Area) (p : PageId) (w : Writeback) (ending : Ending)
    (s : System σ) : Status → System σ → Prop
  | file {f : FileId} {status : Status} {s' : System σ} (hbacking : area.backing = .file f)
      (h : FileWrite b area f p s status s') : SlotWrite b area p w ending s status s'
  | device {d : DeviceId} {status : Status} {s' : System σ}
      (hbacking : area.backing.device? = some d)
      (h : DeviceWrite b area d p w ending s status s') : SlotWrite b area p w ending s status s'

/-- The front store does not take or have the page; `ask` is what it was asked.  One that was asked
may have changed the page and the world all the same. -/
inductive FrontDeclines (b : Backend σ)
    (ask : FrontStore σ → Page → σ → Except Fault ((Bool × Page) × σ)) (p : PageId)
    (s : System σ) : System σ → Prop
  | absent (hfront : b.front = none) : FrontDeclines b ask p s s
  | declined {front : FrontStore σ} {page : Page} {w : σ} (hfront : b.front = some front)
      (hask : ask front (s.pages.get p) s.world = .ok ((false, page), w)) :
      FrontDeclines b ask p s { s with pages := s.pages.set p page, world := w }

/-- Asked once, it answers in one way. -/
theorem FrontDeclines.unique {b : Backend σ}
    {ask : FrontStore σ → Page → σ → Except Fault ((Bool × Page) × σ)} {p : PageId}
    {s s₁ s₂ : System σ} (h₁ : FrontDeclines b ask p s s₁) (h₂ : FrontDeclines b ask p s s₂) :
    s₁ = s₂ := by
  cases h₁ with
  | absent hnone =>
    cases h₂ with
    | absent => rfl
    | declined hsome => cases hnone.symm.trans hsome
  | declined hsome hask =>
    cases h₂ with
    | absent hnone => cases hnone.symm.trans hsome
    | declined hsome' hask' =>
      obtain rfl := Option.some.inj (hsome.symm.trans hsome')
      have hsame := Except.ok.inj (hask.symm.trans hask')
      simp only [Prod.mk.injEq, true_and] at hsame
      rw [hsame.1, hsame.2]

/-- **In `s₁` page `p` comes to its slot** when it is written out from `s`: neither the slot map of
the area nor the front store has taken it.  Both may have changed the page on the way, so what is
known of it there is known of `s₁` and not of `s`. -/
def System.ToSlot (s : System σ) (b : Backend σ) (area : Area) (p : PageId) (s₁ : System σ) :
    Prop :=
  ∃ page w₁, b.slotMaps.tryFree area.slotMap p (s.pages.get p).clearDirty s.world =
      ((false, page), w₁) ∧
    FrontDeclines b (FrontStore.store · p) p
      { s with pages := s.pages.set p page, world := (b.statistics.cycles w₁).2 } s₁

/-- A page comes to its slot in one state at most. -/
theorem System.ToSlot.unique {s s₁ s₂ : System σ} {b : Backend σ} {area : Area} {p : PageId}
    (h₁ : s.ToSlot b area p s₁) (h₂ : s.ToSlot b area p s₂) : s₁ = s₂ := by
  obtain ⟨page, w, hfree, hfront⟩ := h₁
  obtain ⟨page', w', hfree', hfront'⟩ := h₂
  have hsame := hfree.symm.trans hfree'
  simp only [Prod.mk.injEq, true_and] at hsame
  obtain ⟨rfl, rfl⟩ := hsame
  exact hfront.unique hfront'

/-- **How writing a page out goes**: the page has no slot, its slot is not needed any more, the
front store takes it, or it is written to its slot. -/
inductive PageWrite (b : Backend σ) (p : PageId) (w : Writeback) (s : System σ) :
    Status → System σ → Prop
  | lost (harea : s.areaAt p = none) :
      PageWrite b p w s (.error Refusal.noSlot.errno)
        { s with pages := s.pages.set p (s.pages.get p).spilled }
  | freed {area : Area} {page : Page} {w₁ : σ} (harea : s.areaAt p = some area)
      (hfree : b.slotMaps.tryFree area.slotMap p (s.pages.get p).clearDirty s.world =
        ((true, page), w₁)) :
      PageWrite b p w s (.ok ()) { s with pages := s.pages.set p page.released, world := w₁ }
  | stored {area : Area} {front : FrontStore σ} {page page' : Page} {w₁ w₂ w₃ w₄ : σ}
      (harea : s.areaAt p = some area)
      (hfree : b.slotMaps.tryFree area.slotMap p (s.pages.get p).clearDirty s.world =
        ((false, page), w₁))
      (hchores : Chores b w₁ w₂) (hfront : b.front = some front)
      (hstore : front.store p page w₂ = .ok ((true, page'), w₃)) (hchores' : Chores b w₃ w₄)
      (hclock : Aside b w₁ w₂)
      (hclock' : ∃ w n, Aside b w₃ w ∧ w₄ = b.statistics.accumulate n w) :
      PageWrite b p w s (.ok ()) { s with
        pages := s.pages.set p { page'.released with transfer := .idle }
        world := w₄ }
  | slot {area : Area} {page : Page} {w₁ w₂ : σ} {s₁ s' : System σ} {status : Status}
      (harea : s.areaAt p = some area)
      (hfree : b.slotMaps.tryFree area.slotMap p (s.pages.get p).clearDirty s.world =
        ((false, page), w₁))
      (hchores : Chores b w₁ w₂)
      (hfront : FrontDeclines b (FrontStore.store · p) p
        { s with pages := s.pages.set p page, world := w₂ } s₁)
      (h : SlotWrite b area p w .write s₁ status s') (hclock : w₂ = (b.statistics.cycles w₁).2) :
      PageWrite b p w s status s'

/-- The slot map and the front store leave a page held: they are handed it in the middle of a write,
and the steps behind them unlock it and start its transfer. -/
structure Backend.Minds (b : Backend σ) : Prop where
  tryFree : ∀ {m p page w answer page' w'}, b.slotMaps.tryFree m p page w = ((answer, page'), w') →
    page.Held → page'.Held
  store : ∀ {front p page w answer page' w'}, b.front = some front →
    front.store p page w = .ok ((answer, page'), w') → page.Held → page'.Held

section

variable {b : Backend σ} {p : PageId} {w : Writeback} {s : System σ} {stop : Fault → Prop}
  {I : Status → System σ → Prop}

/-- An area that reaches a device. -/
theorem writeSlot_eq_writeDevice {area : Area} {d : DeviceId} {ending : Ending}
    (h : area.backing.device? = some d) :
    writeSlot b area p w ending = writeDevice b area d p w ending := by
  unfold writeSlot
  cases hback : area.backing with
  | device d' => rw [hback] at h; injection h with h; rw [h]
  | mapped f d' => rw [hback] at h; injection h with h; rw [h]
  | file f => rw [hback] at h; cases h

/-- **Writing to a slot** is one step of `SlotWrite`, and what lasts. -/
theorem writeSlot_wp {area : Area} {ending : Ending} (hI : ∀ status, Lasting b stop (I status))
    (hsums : area.Sums b stop) (hheld : (s.pages.get p).Held)
    (hkeeps : ∀ f, area.backing = .file f → b.KeepsShort f p (s.pages.get p))
    (hmain : ∀ status s', SlotWrite b area p w ending s status s' → I status s') :
    (writeSlot b area p w ending).wp I stop s := by
  unfold writeSlot
  cases hback : area.backing with
  | file f =>
    exact writeFile_wp hI hsums hback hheld (hkeeps f hback)
      fun status s' h => hmain _ _ (.file hback h)
  | device d =>
    exact writeDevice_wp hI hsums hheld
      fun status s' h => hmain _ _ (.device (by rw [hback]; rfl) h)
  | mapped f d =>
    exact writeDevice_wp hI hsums hheld
      fun status s' h => hmain _ _ (.device (by rw [hback]; rfl) h)

/-- **Writing a page out, step by step**: the page has no area, or it is dealt with before it goes
to its slot, or it goes there. -/
theorem pageOut_steps {post : Status → System σ → Prop} (hb : FrontFaults b stop) (hm : b.Minds)
    (hheld : (s.pages.get p).Held)
    (hlost : s.areaAt p = none → post (.error Refusal.noSlot.errno)
      { s with pages := s.pages.set p (s.pages.get p).spilled })
    (hkept : ∀ s', PageWrite b p w s (.ok ()) s' → post (.ok ()) s')
    (hslot : ∀ area page w₁ s₁, s.areaAt p = some area →
      b.slotMaps.tryFree area.slotMap p (s.pages.get p).clearDirty s.world = ((false, page), w₁) →
      FrontDeclines b (FrontStore.store · p) p
        { s with pages := s.pages.set p page, world := (b.statistics.cycles w₁).2 } s₁ →
      (s₁.pages.get p).Held → (writeSlot b area p w .write).wp post stop s₁) :
    (pageOut b p w).wp post stop s := by
  -- the dirty flag goes first, before anything is known of the slot, and comes back with a failure
  unfold pageOut
  simp only [Run.wp_bind, Run.wp_page, hheld.1, if_true, Run.wp_editPage]
  rw [areaOf_wp, System.areaAt_clearDirty]
  cases harea : s.areaAt p with
  | none =>
    refine failWrite_wp (by rw [Table.get_set_self]; exact hheld.1) ?_
    simp only [Table.get_set_self, Table.set_set]
    exact hlost harea
  | some area =>
    rcases hfree : b.slotMaps.tryFree area.slotMap p (s.pages.get p).clearDirty s.world with
      ⟨⟨answer, page⟩, w₁⟩
    have hpage : page.Held := hm.tryFree hfree hheld
    simp only [Run.wp_bind, Run.wp_withPage, Table.get_set_self, Table.set_set, hfree]
    cases answer with
    | true =>
      simp only [if_true, Run.wp_bind]
      refine Run.wp_tryPage_of_ok (unlock_of (by rw [Table.get_set_self]; exact hpage.1)) ?_
      simp only [Table.get_set_self, Table.set_set, Run.wp_pure]
      exact hkept _ (.freed harea hfree)
    | false =>
      simp only [Bool.false_eq_true, if_false, Run.wp_bind, Run.wp_world]
      have hchores : Chores b w₁ (b.statistics.cycles w₁).2 := .single (.cycles w₁)
      unfold frontStore
      cases hfront : b.front with
      | none =>
        simp only [Run.wp_pure, Bool.false_eq_true, if_false]
        exact hslot area page w₁ _ harea hfree (.absent hfront)
          (by rw [Table.get_set_self]; exact hpage)
      | some front =>
        dsimp only
        rw [Run.wp_tryWithPage]
        simp only [Table.get_set_self, Table.set_set]
        cases hstore : front.store p page (b.statistics.cycles w₁).2 with
        | error e => exact hb.store hfront hstore
        | ok out =>
          obtain ⟨⟨answer, page'⟩, w₃⟩ := out
          have hpage' : page'.Held := hm.store hfront hstore hpage
          cases answer with
          | true =>
            simp only [if_true, Run.wp_bind]
            refine startWrite_wp (by rw [Table.get_set_self]; exact hpage'.1)
              (by rw [Table.get_set_self]; exact hpage'.2) ?_
            refine Run.wp_tryPage_of_ok (endWrite_of (by rw [Table.get_set_self])) ?_
            simp only [Table.get_set_self, Table.set_set, Run.wp_world, Run.wp_pure]
            exact hkept _ (.stored harea hfree hchores hfront hstore
              (.tail (.single (.cycles w₃)) (.accumulate _ _)) (.cycles w₁)
              ⟨_, _, .cycles w₃, rfl⟩)
          | false =>
            simp only [Bool.false_eq_true, if_false]
            have hdeclines := @FrontDeclines.declined σ b (FrontStore.store · p) p
              { s with pages := s.pages.set p page, world := (b.statistics.cycles w₁).2 } front
              page' w₃ hfront (by rw [Table.get_set_self]; exact hstore)
            rw [Table.set_set] at hdeclines
            exact hslot area page w₁ _ harea hfree hdeclines
              (by rw [Table.get_set_self]; exact hpage')

/-- **Writing a page out** is one step of `PageWrite`, and what lasts. -/
theorem pageOut_wp (hI : ∀ status, Lasting b stop (I status)) (hb : b.Minds)
    (hsums : ∀ area, s.areaAt p = some area → area.Sums b stop) (hheld : (s.pages.get p).Held)
    (hkeeps : ∀ area f page, s.areaAt p = some area → area.backing = .file f →
      b.KeepsShort f p page)
    (hmain : ∀ status s', PageWrite b p w s status s' → I status s') :
    (pageOut b p w).wp I stop s := by
  refine pageOut_steps (hI (.ok ())).tolerant.toFrontFaults hb hheld
    (fun harea => hmain _ _ (.lost harea)) (hmain _)
    fun area page w₁ s₁ harea hfree hfront hheld' => ?_
  refine writeSlot_wp hI (hsums area harea) hheld' (fun f hf => hkeeps area f _ harea hf)
    fun status s' h => ?_
  exact hmain _ _ (.slot harea hfree (.single (.cycles w₁)) hfront h rfl)

/-- **Writing a page to its slot, step by step**: the page has no area, or it goes to its slot. -/
theorem pageOutPast_steps {ending : Ending} {post : Status → System σ → Prop}
    (hheld : (s.pages.get p).Held)
    (hlost : s.areaAt p = none → post (.error Refusal.noSlot.errno)
      { s with pages := s.pages.set p (s.pages.get p).spilled })
    (hslot : ∀ area, s.areaAt p = some area → (writeSlot b area p w ending).wp post stop s) :
    (pageOutPast b p w ending).wp post stop s := by
  unfold pageOutPast
  simp only [Run.wp_bind, Run.wp_page, hheld.1, if_true]
  rw [areaOf_wp]
  cases harea : s.areaAt p with
  | none => exact failWrite_wp hheld.1 (hlost harea)
  | some area => exact hslot area harea

/-- **Writing a page to its slot** is one step of `SlotWrite`, unless it has no slot. -/
theorem pageOutPast_wp {ending : Ending} (hI : ∀ status, Lasting b stop (I status))
    (hsums : ∀ area, s.areaAt p = some area → area.Sums b stop) (hheld : (s.pages.get p).Held)
    (hkeeps : ∀ area f, s.areaAt p = some area → area.backing = .file f →
      b.KeepsShort f p (s.pages.get p))
    (hlost : s.areaAt p = none → I (.error Refusal.noSlot.errno)
      { s with pages := s.pages.set p (s.pages.get p).spilled })
    (hmain : ∀ area status s', s.areaAt p = some area → SlotWrite b area p w ending s status s' →
      I status s') :
    (pageOutPast b p w ending).wp I stop s :=
  pageOutPast_steps hheld hlost fun area harea =>
    writeSlot_wp hI (hsums area harea) hheld (fun f hf => hkeeps area f harea hf)
      fun status s' h => hmain area status s' harea h

end

end PageSwap
