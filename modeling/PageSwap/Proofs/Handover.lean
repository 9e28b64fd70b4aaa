/-
# What a driver is handed

Whatever its size, a page goes to its driver in one piece: `transfer` and `submit` are told one
sector, that of the page's own slot, and move all bytes of the page from there.  Nobody looks up
the slots behind the first one.  This file says which transfers a call can hand over, and what that
comes to for a page of several slots.

What is handed over is not kept anywhere, so it is told from what it depends on: `OnlyHands` says
that a driver which answers everything outside a set of transfers differently makes no difference.

* `handed_over_at_own_slot` -- a transfer starts at the block of the page's own slot, and the blocks
  behind it are those of the slots behind it exactly where one extent holds them all.
* `page_past_the_end` -- nothing looks whether it does: the last slot of an area takes a page of
  two slots.
-/
import PageSwap.Proofs.Service

namespace PageSwap

variable {σ α β : Type}

/-! ## 1. Transfers handed over -/

/-- A transfer that a driver is handed, without a request or with one. -/
structure Handed where
  queue : QueueId
  /-- First sector on the device. -/
  sector : UInt64
  direction : Direction
  page : PageId
  /-- The page as it is at that moment. -/
  content : Page

/-- Drivers that differ from `q` only in what they answer to transfers outside `P`.  There they may
do anything, such as fault. -/
structure AgreeOn (P : Handed → Prop) (q q' : Queues σ) : Prop where
  others : q' = { q with transfer := q'.transfer, submit := q'.submit }
  transfers : ∀ {queue sector direction p content}, P ⟨queue, sector, direction, p, content⟩ →
    q'.transfer queue sector direction p content = q.transfer queue sector direction p content
  submits : ∀ {queue r request device content},
    P ⟨queue, request.sector, request.direction, request.page, content⟩ →
    q'.submit queue r request device content = q.submit queue r request device content

/-- From `s`, the operation hands over **only transfers in `P`**: it goes the same way with all
drivers that agree on these. -/
def OnlyHands (P : Handed → Prop) (op : Backend σ → Run σ α) (b : Backend σ) (s : System σ) :
    Prop :=
  ∀ queues, AgreeOn P b.queues queues → op { b with queues } s = op b s

theorem AgreeOn.mono {P P' : Handed → Prop} {q q' : Queues σ} (h : AgreeOn P' q q')
    (hP : ∀ x, P x → P' x) : AgreeOn P q q' where
  others := h.others
  transfers hx := h.transfers (hP _ hx)
  submits hx := h.submits (hP _ hx)

namespace Run

/-- Two operations go the same way if they begin the same way and go on the same way from
wherever that leads. -/
theorem same_bind {m m' : Run σ β} {k k' : β → Run σ α} {s : System σ} (hm : m' s = m s)
    (hk : m.wp (fun a s' => k' a s' = k a s') (fun _ => True) s) : (m' >>= k') s = (m >>= k) s := by
  have hb : ∀ (x : Run σ β) (f : β → Run σ α), (x >>= f) s = (x s >>= fun r => f r.1 r.2) :=
    fun _ _ => rfl
  rw [hb, hb, hm]
  unfold wp at hk
  cases hs : m s with
  | error f => rfl
  | ok r => rw [hs] at hk; exact hk

theorem same_then {m m' : Run σ β} {k k' : β → Run σ α} {s : System σ} (hm : m' s = m s)
    (hk : ∀ a, k' a = k a) : (m' >>= k') s = (m >>= k) s := by
  refine same_bind hm ?_
  unfold wp
  cases m s with
  | error f => trivial
  | ok r => exact congrFun (hk r.1) r.2

/-- Where a fault does not matter, an edit is known to have happened. -/
theorem wp_tryPage_any {p : PageId} {f : Page → Except Fault Page}
    {post : Unit → System σ → Prop} {s : System σ}
    (hpost : ∀ page, f (s.pages.get p) = .ok page →
      post () { s with pages := s.pages.set p page }) :
    (tryPage p f).wp post (fun _ => True) s := by
  rw [wp_tryPage]
  cases hf : f (s.pages.get p) with
  | error e => trivial
  | ok page => exact hpost page hf

end Run

/-! ## 2. What hands nothing over, and what hands one transfer over -/

namespace AgreeOn

variable {P : Handed → Prop} {b : Backend σ} {queues : Queues σ}

theorem same_finishAll (h : AgreeOn P b.queues queues) :
    finishAll { b with queues } = finishAll b := by
  rw [h.others]; rfl

theorem same_relax (h : AgreeOn P b.queues queues) : relax { b with queues } = relax b := by
  rw [h.others]; rfl

theorem same_poll (h : AgreeOn P b.queues queues) : poll { b with queues } = poll b := by
  rw [h.others]; rfl

theorem same_allocRequest (h : AgreeOn P b.queues queues) :
    allocRequest { b with queues } = allocRequest b := by
  rw [h.others]; rfl

theorem same_readDone (h : AgreeOn P b.queues queues) :
    readDone { b with queues } = readDone b := by
  rw [h.others]; rfl

/-- A waiting reader hands nothing over. -/
theorem same_await (h : AgreeOn P b.queues queues) (d : DeviceId) (cookie : UInt64)
    (i : SleeperId) (fuel : Nat) : ∀ reader,
      await { b with queues } d cookie i fuel reader = await b d cookie i fuel reader := by
  induction fuel with
  | zero => intro reader; rfl
  | succ fuel ih =>
    intro reader
    unfold await
    rw [h.same_relax, h.same_poll]
    simp only [ih]

variable {s : System σ}

theorem same_transferNow (h : AgreeOn P b.queues queues) {d : DeviceId} {sector : UInt64}
    {direction : Direction} {p : PageId}
    (hx : P ⟨(s.devices.get d).queue, sector, direction, p, s.pages.get p⟩) :
    transferNow { b with queues } d sector direction p s =
      transferNow b d sector direction p s := by
  unfold transferNow
  refine Run.same_bind rfl (Run.wp_device.mpr ?_)
  refine Run.same_bind rfl (Run.wp_page.mpr ?_)
  dsimp only
  rw [h.transfers hx]

theorem same_submit (h : AgreeOn P b.queues queues) {r : RequestId} {request : Request}
    (hx : P ⟨(s.devices.get request.device).queue, request.sector, request.direction, request.page,
      s.pages.get request.page⟩) :
    submit { b with queues } r request s = submit b r request s := by
  unfold submit
  refine Run.same_bind rfl (Run.wp_device.mpr ?_)
  refine Run.same_bind rfl (Run.wp_log.mpr ?_)
  refine Run.same_bind rfl (Run.wp_page.mpr ?_)
  dsimp only
  rw [h.submits hx, h.same_finishAll]

end AgreeOn

/-! ## 3. The four calls -/

/-- Transfers of page `p` that begin at the sector of the page's slot, for the driver of `queue`. -/
def AtOwnSlot (area : Area) (queue : QueueId) (p : PageId) (x : Handed) : Prop :=
  x.page = p ∧ x.queue = queue ∧ area.sector x.content.slot = .ok x.sector

section

variable {b : Backend σ} {queues : Queues σ} {area : Area} {queue : QueueId} {d : DeviceId}
  {p : PageId} {s : System σ}

/-- A request that is had is one of the page, for the sector of its slot. -/
theorem allocRequest_any {direction : Direction} {ending : Ending}
    {post : Except Refusal Request → System σ → Prop} (hnone : ∀ why, post (.error why) s)
    (hsome : ∀ request dev, request.page = p → request.device = d →
      area.sector (s.pages.get p).slot = .ok request.sector →
      dev.queue = (s.devices.get d).queue →
      post (.ok request) { s with devices := s.devices.set d dev }) :
    (allocRequest b direction area d p ending).wp post (fun _ => True) s := by
  cases hsector : area.sector (s.pages.get p).slot with
  | error e =>
    unfold allocRequest
    simp only [Run.wp_bind, Run.wp_page, Run.wp_attempt, hsector]
    cases e with
    | fault f => trivial
    | refused why => exact hnone why
  | ok sector =>
    refine allocRequest_wp hsector (fun _ => hnone _) (fun _ => hnone _) fun dev _ htag => ?_
    refine hsome _ dev rfl rfl hsector ?_
    rw [(Device.reserveTag_eq_some_iff.mp htag).2]

/-- Moving between transfer states and unlocking leave the slot alone. -/
theorem startWrite_any {post : Unit → System σ → Prop}
    (hpost : ∀ page, page.slot = (s.pages.get p).slot →
      post () { s with pages := s.pages.set p page }) :
    (startWrite p).wp post (fun _ => True) s := by
  unfold startWrite
  refine Run.wp_bind.mpr (Run.wp_tryPage_any fun page hpage => ?_)
  refine Run.wp_tryPage_any fun page' hpage' => ?_
  rw [Table.get_set_self] at hpage'
  simp only [Table.set_set]
  refine hpost page' ?_
  rw [(Page.unlock_eq_ok_iff.mp hpage').2, (Page.move_eq_ok_iff.mp hpage).2]

theorem same_submit_own {r : RequestId} {request : Request} (hp : request.page = p)
    (hq : (s.devices.get request.device).queue = queue)
    (hsector : area.sector (s.pages.get p).slot = .ok request.sector)
    (h : AgreeOn (AtOwnSlot area queue p) b.queues queues) :
    submit { b with queues } r request s = submit b r request s := by
  subst hp
  exact h.same_submit ⟨rfl, hq, hsector⟩

theorem writeRequest_hands {w : Writeback} {ending : Ending} (hq : (s.devices.get d).queue = queue)
    (h : AgreeOn (AtOwnSlot area queue p) b.queues queues) :
    writeRequest { b with queues } area d p w ending s = writeRequest b area d p w ending s := by
  unfold writeRequest
  refine Run.same_bind (by rw [h.same_allocRequest]) (allocRequest_any (fun why => rfl) ?_)
  intro request dev hp hd hsector hdev
  dsimp only
  refine Run.same_bind rfl (Run.wp_addRequest.mpr ?_)
  refine Run.same_bind rfl (countPageOut_wp fun w₁ _ => ?_)
  refine Run.same_bind rfl (startWrite_any fun page hslot => ?_)
  refine Run.same_then (same_submit_own hp ?_ ?_ h) fun _ => rfl
  · show ((s.devices.set d dev).get request.device).queue = queue
    rw [hd, Table.get_set_self, hdev, hq]
  · show area.sector ((s.pages.set p page).get p).slot = .ok request.sector
    rw [Table.get_set_self, hslot]
    exact hsector

theorem readIssue_hands {request : Request} (hp : request.page = p)
    (hq : (s.devices.get request.device).queue = queue)
    (hsector : area.sector (s.pages.get p).slot = .ok request.sector)
    (h : AgreeOn (AtOwnSlot area queue p) b.queues queues) :
    readRequest.issue { b with queues } p request s = readRequest.issue b p request s := by
  unfold readRequest.issue
  refine Run.same_bind rfl (Run.wp_addRequest.mpr ?_)
  refine Run.same_bind rfl (Run.wp_world.mpr ?_)
  refine Run.same_bind rfl (Run.wp_tryPage_any fun page hpage => ?_)
  refine same_submit_own hp hq ?_ h
  show area.sector ((s.pages.set p page).get p).slot = .ok request.sector
  rw [Table.get_set_self, (Page.move_eq_ok_iff.mp hpage).2]
  exact hsector

theorem readRequest_hands {pace : Pace} (hq : (s.devices.get d).queue = queue)
    (h : AgreeOn (AtOwnSlot area queue p) b.queues queues) :
    readRequest { b with queues } area d p pace s = readRequest b area d p pace s := by
  unfold readRequest
  refine Run.same_bind (by rw [h.same_allocRequest]) (allocRequest_any (fun why => rfl) ?_)
  intro request dev hp hd hsector hdev
  have hqueue : ∀ t : System σ, t.devices = s.devices.set d dev →
      (t.devices.get request.device).queue = queue := by
    intro t ht
    rw [ht, hd, Table.get_set_self, hdev, hq]
  dsimp only
  by_cases hpace : pace = .await
  · rw [if_pos hpace, if_pos hpace]
    refine Run.same_bind rfl (Run.wp_addSleeper.mpr ?_)
    have hissue : ∀ t : System σ, t.devices = s.devices.set d dev → t.pages = s.pages →
        readRequest.issue { b with queues } p (request.awaitedBy s.sleepers.fresh) t =
          readRequest.issue b p (request.awaitedBy s.sleepers.fresh) t :=
      fun t hdevices hpages => readIssue_hands hp (hqueue t hdevices)
        (by rw [hpages]; exact hsector) h
    exact Run.same_then (hissue _ rfl rfl) fun cookie => by rw [h.same_await]
  · rw [if_neg hpace, if_neg hpace]
    exact Run.same_then (readIssue_hands hp (hqueue _ rfl) hsector h) fun _ => rfl

/-- A transfer without a request is handed over, and whatever comes after it goes the same way. -/
theorem direct_hands {direction : Direction} {source target : Transfer} {sector : UInt64}
    {k k' : Status → Run σ Status} (hq : (s.devices.get d).queue = queue)
    (hsector : area.sector (s.pages.get p).slot = .ok sector)
    (h : AgreeOn (AtOwnSlot area queue p) b.queues queues)
    (hk : ∀ status t, (t.devices.get d).queue = queue → k' status t = k status t) :
    (Run.tryPage p (Page.move source target) >>= fun _ =>
        transferNow { b with queues } d sector direction p >>= k') s =
      (Run.tryPage p (Page.move source target) >>= fun _ =>
        transferNow b d sector direction p >>= k) s := by
  refine Run.same_bind rfl (Run.wp_tryPage_any fun page hpage => ?_)
  refine Run.same_bind (h.same_transferNow ⟨rfl, hq, ?_⟩)
    (transferNow_wp tolerant_any fun status bytes w₁ _ => hk status _ hq)
  rw [Table.get_set_self, (Page.move_eq_ok_iff.mp hpage).2]
  exact hsector

theorem writeDevice_hands {w : Writeback} {ending : Ending} (hq : (s.devices.get d).queue = queue)
    (h : AgreeOn (AtOwnSlot area queue p) b.queues queues) :
    writeDevice { b with queues } area d p w ending s = writeDevice b area d p w ending s := by
  unfold writeDevice
  refine Run.same_bind rfl (Run.wp_page.mpr (Run.same_bind rfl (Run.wp_attempt.mpr ?_)))
  cases hsector : area.sector (s.pages.get p).slot with
  | error e =>
    cases e with
    | fault f => trivial
    | refused why => rfl
  | ok sector =>
    refine direct_hands hq hsector h fun status t ht => ?_
    cases status with
    | ok u => rfl
    | error e => exact Run.same_bind rfl (Run.wp_tryPage_any fun page _ => writeRequest_hands ht h)

theorem readDevice_hands {pace : Pace} (hq : (s.devices.get d).queue = queue)
    (h : AgreeOn (AtOwnSlot area queue p) b.queues queues) :
    readDevice { b with queues } area d p pace s = readDevice b area d p pace s := by
  unfold readDevice
  refine Run.same_bind rfl (Run.wp_page.mpr (Run.same_bind rfl (Run.wp_attempt.mpr ?_)))
  cases hsector : area.sector (s.pages.get p).slot with
  | error e =>
    cases e with
    | fault f => trivial
    | refused why => rfl
  | ok sector =>
    refine direct_hands hq hsector h fun status t ht => ?_
    cases status with
    | ok u => exact Run.same_then (by rw [h.same_readDone]) fun _ => rfl
    | error e => exact Run.same_bind rfl (Run.wp_tryPage_any fun page _ => readRequest_hands ht h)

theorem writeSlot_hands {w : Writeback} {ending : Ending}
    (hq : ∀ d, area.backing.device? = some d → (s.devices.get d).queue = queue)
    (h : AgreeOn (AtOwnSlot area queue p) b.queues queues) :
    writeSlot { b with queues } area p w ending s = writeSlot b area p w ending s := by
  unfold writeSlot
  cases hb : area.backing with
  | file f => rfl
  | device d => exact writeDevice_hands (hq d (by rw [hb]; rfl)) h
  | mapped f d => exact writeDevice_hands (hq d (by rw [hb]; rfl)) h

theorem readSlot_hands {pace : Pace}
    (hq : ∀ d, area.backing.device? = some d → (s.devices.get d).queue = queue)
    (h : AgreeOn (AtOwnSlot area queue p) b.queues queues) :
    readSlot { b with queues } area p pace s = readSlot b area p pace s := by
  unfold readSlot
  cases hb : area.backing with
  | file f => rfl
  | device d => exact readDevice_hands (hq d (by rw [hb]; rfl)) h
  | mapped f d => exact readDevice_hands (hq d (by rw [hb]; rfl)) h

theorem frontStore_any {post : Bool → System σ → Prop}
    (hpost : ∀ taken pages world, post taken { s with pages, world }) :
    (frontStore b p).wp post (fun _ => True) s := by
  unfold frontStore
  cases b.front with
  | none => exact hpost false s.pages s.world
  | some front =>
    refine Run.wp_tryWithPage.mpr ?_
    cases front.store p (s.pages.get p) s.world with
    | error e => trivial
    | ok out => exact hpost _ _ _

theorem frontLoad_any {pace : Pace} {post : Bool → System σ → Prop}
    (hpost : ∀ taken pages world, post taken { s with pages, world }) :
    (frontLoad b p pace).wp post (fun _ => True) s := by
  unfold frontLoad
  cases b.front with
  | none => exact hpost false s.pages s.world
  | some front =>
    refine Run.wp_tryWithPage.mpr ?_
    cases (if pace = .background then front.loadLater p else front.load p) (s.pages.get p)
      s.world with
    | error e => trivial
    | ok out => exact hpost _ _ _

theorem pageOut_hands {w : Writeback} (hat : s.areaAt p = some area)
    (hq : ∀ d, area.backing.device? = some d → (s.devices.get d).queue = queue)
    (h : AgreeOn (AtOwnSlot area queue p) b.queues queues) :
    pageOut { b with queues } p w s = pageOut b p w s := by
  unfold pageOut
  refine Run.same_bind rfl (Run.wp_page.mpr ?_)
  by_cases hlocked : (s.pages.get p).flags.locked = true
  · rw [if_pos hlocked, if_pos hlocked]
    refine Run.same_bind rfl (Run.wp_editPage.mpr ?_)
    refine Run.same_bind rfl (areaOf_wp.mpr ?_)
    rw [System.areaAt_clearDirty, hat]
    dsimp only
    refine Run.same_bind rfl (Run.wp_withPage.mpr ?_)
    rw [Table.get_set_self]
    cases (b.slotMaps.tryFree area.slotMap p (s.pages.get p).clearDirty s.world).1.1 with
    | true => rw [if_pos rfl, if_pos rfl]
    | false =>
      simp only [Bool.false_eq_true, if_false]
      refine Run.same_bind rfl (Run.wp_world.mpr ?_)
      refine Run.same_bind rfl (frontStore_any fun taken pages world => ?_)
      cases taken with
      | true => rw [if_pos rfl, if_pos rfl]
      | false =>
        simp only [Bool.false_eq_true, if_false]
        exact writeSlot_hands hq h
  · rw [if_neg hlocked, if_neg hlocked]
    exact Run.same_bind rfl trivial

theorem pageOutPast_hands {w : Writeback} {ending : Ending} (hat : s.areaAt p = some area)
    (hq : ∀ d, area.backing.device? = some d → (s.devices.get d).queue = queue)
    (h : AgreeOn (AtOwnSlot area queue p) b.queues queues) :
    pageOutPast { b with queues } p w ending s = pageOutPast b p w ending s := by
  unfold pageOutPast
  refine Run.same_bind rfl (Run.wp_page.mpr ?_)
  by_cases hlocked : (s.pages.get p).flags.locked = true
  · rw [if_pos hlocked, if_pos hlocked]
    refine Run.same_bind rfl (areaOf_wp.mpr ?_)
    rw [hat]
    exact writeSlot_hands hq h
  · rw [if_neg hlocked, if_neg hlocked]
    exact Run.same_bind rfl trivial

theorem pageIn_hands {pace : Pace} (hat : s.areaAt p = some area)
    (hq : ∀ d, area.backing.device? = some d → (s.devices.get d).queue = queue)
    (h : AgreeOn (AtOwnSlot area queue p) b.queues queues) :
    pageIn { b with queues } p pace s = pageIn b p pace s := by
  unfold pageIn
  refine Run.same_bind rfl (Run.wp_page.mpr ?_)
  by_cases hlocked : (s.pages.get p).flags.locked = true
  · rw [if_pos hlocked, if_pos hlocked]
    by_cases huptodate : (s.pages.get p).flags.uptodate = true
    · rw [if_pos huptodate, if_pos huptodate]
      exact Run.same_bind rfl trivial
    · rw [if_neg huptodate, if_neg huptodate]
      refine Run.same_bind rfl (areaOf_wp.mpr ?_)
      rw [hat]
      refine Run.same_bind rfl (frontLoad_any fun taken pages world => ?_)
      cases taken with
      | true => rw [if_pos rfl, if_pos rfl]
      | false =>
        simp only [Bool.false_eq_true, if_false]
        refine Run.same_bind rfl (Run.wp_world.mpr ?_)
        exact Run.same_then (readSlot_hands hq h) fun _ => rfl
  · rw [if_neg hlocked, if_neg hlocked]
    exact Run.same_bind rfl trivial

end

/-! ## 4. Pages of several slots -/

/-- The transfer moves its page to or from **exactly the blocks of the page's own slots**. -/
def OwnBlocks (area : Area) (blocks : List Nat) (x : Handed) : Prop :=
  ∃ o, area.IsAt x.content.slot o ∧
    ∀ k < 2 ^ x.content.order.toNat, blocks[o + k]? = some (x.sector.toNat / 8 + k)

/-- A transfer of page `p` that begins where slot `o` of the area lies, the page's own.  It stays
on the blocks of the page's slots exactly if one extent of the area holds the first and the last
of them, and the sector number has room for the block. -/
structure BeginsAt (area : Area) (blocks : List Nat) (queue : QueueId) (p : PageId) (x : Handed)
    (o : Nat) (block : UInt64) : Prop where
  page : x.page = p
  queue : x.queue = queue
  slot : area.IsAt x.content.slot o
  mapped : blocks[o]? = some block.toNat
  sector : x.sector = block <<< pageSectorBits.toUInt64
  whole : OwnBlocks area blocks x ↔ block.toNat < 2 ^ 61 ∧
    ∃ e ∈ area.table.extents, e.Holds o ∧ e.Holds (o + (2 ^ x.content.order.toNat - 1))

/-- Transfers of page `p` that begin at the block of the page's own slot. -/
def FromOwnSlot (area : Area) (blocks : List Nat) (queue : QueueId) (p : PageId) (x : Handed) :
    Prop :=
  ∃ o block, BeginsAt area blocks queue p x o block

/-- The block of a sector, if the sector number had room for it. -/
theorem sector_block (block : UInt64) :
    (block <<< pageSectorBits.toUInt64).toNat / 8 = block.toNat % 2 ^ 61 := by
  rw [UInt64.toNat_shiftLeft]
  show block.toNat <<< 3 % 2 ^ 64 / 8 = _
  rw [Nat.shiftLeft_eq]
  omega

/-- **A sector that was looked up** says this much about the blocks behind it. -/
theorem AtOwnSlot.begins {area : Area} {spec : AreaSpec} {ground : Area.Ground} {blocks : List Nat}
    (hup : area.BroughtUp spec ground blocks) {queue : QueueId} {p : PageId} {x : Handed}
    (hx : AtOwnSlot area queue p x) : FromOwnSlot area blocks queue p x := by
  obtain ⟨hp, hq, hsector⟩ := hx
  obtain ⟨sl, block, hsl, harea, hmaps, hs⟩ := (Area.sector_eq_ok_iff hup.lists.ordered).mp hsector
  have hslot : area.IsAt x.content.slot sl.offset.toNat := ⟨sl, hsl, harea, rfl⟩
  have hblock : x.sector.toNat / 8 = block.toNat % 2 ^ 61 := by rw [hs, sector_block]
  obtain ⟨e, he, ho, hb⟩ := hmaps
  have hrun := hup.lists.ordered.same_extent_iff hup.lists.merged he ho
    (2 ^ x.content.order.toNat - 1)
  have hpos : 0 < 2 ^ x.content.order.toNat := Nat.two_pow_pos _
  refine ⟨sl.offset.toNat, block, hp, hq, hslot, (hup.lists.maps _ _).mp ⟨e, he, ho, hb⟩, hs, ?_⟩
  constructor
  · rintro ⟨o, hat, hall⟩
    obtain rfl := hat.unique hslot
    -- the first block already tells that the sector number had room
    have hfirst := (hup.lists.maps _ _).mpr (hall 0 hpos)
    rw [Nat.add_zero, Nat.add_zero] at hfirst
    have heq := hup.lists.ordered.maps_unique ⟨e, he, ho, hb⟩ hfirst
    refine ⟨by omega, e, he, ho, hrun.mp fun k hk => (hup.lists.maps _ _).mpr ?_⟩
    rw [hb, heq]
    exact hall k (by omega)
  · rintro ⟨hroom, e', he', ho', hlast⟩
    obtain rfl := hup.lists.ordered.holds_unique he' he ho' ho
    refine ⟨_, hslot, fun k hk => (hup.lists.maps _ _).mp ?_⟩
    rw [hblock, Nat.mod_eq_of_lt hroom, ← hb]
    exact hrun.mpr hlast k (by omega)

/-- **Every transfer begins at the page's own slot.**  An area is brought up, at any time, on
these blocks.  Whoever then writes or reads a page with a slot in it, of any size and in any
state, has the driver of its device handed nothing but transfers of this page that begin at the
block of this slot.  Whether they also end on the page's own blocks is up to the slots the page
was given. -/
theorem handed_over_at_own_slot {b₀ : Backend σ} {spec : AreaSpec} {limit : UInt64}
    {t t' : System σ} {area : Area} (hup : (swapOn b₀ spec limit) t = .ok (.ok area, t')) :
    ∃ blocks, area.BroughtUp spec (groundOf b₀ spec t) blocks ∧
      ∀ (b : Backend σ) (s : System σ) (p : PageId) (d : DeviceId),
        s.areaAt p = some area → area.backing.device? = some d →
        (∀ w, OnlyHands (FromOwnSlot area blocks (s.devices.get d).queue p)
          (fun b => pageOut b p w) b s) ∧
        (∀ w ending, OnlyHands (FromOwnSlot area blocks (s.devices.get d).queue p)
          (fun b => pageOutPast b p w ending) b s) ∧
        ∀ pace, OnlyHands (FromOwnSlot area blocks (s.devices.get d).queue p)
          (fun b => pageIn b p pace) b s := by
  obtain ⟨blocks, -, -, hbrought, -, -⟩ := swapOn_ok hup
  refine ⟨blocks, hbrought, fun b s p d hat hd => ?_⟩
  have hq : ∀ d', area.backing.device? = some d' →
      (s.devices.get d').queue = (s.devices.get d).queue := by
    intro d' hd'
    rw [hd] at hd'
    injection hd' with hd'
    rw [hd']
  have hown : ∀ x, AtOwnSlot area (s.devices.get d).queue p x →
      FromOwnSlot area blocks (s.devices.get d).queue p x :=
    fun x hx => hx.begins hbrought
  refine ⟨fun w queues h => ?_, fun w ending queues h => ?_, fun pace queues h => ?_⟩
  · exact pageOut_hands hat hq (h.mono hown)
  · exact pageOutPast_hands hat hq (h.mono hown)
  · exact pageIn_hands hat hq (h.mono hown)

/-- A disk in memory with an area of eight pages, and a dirty page of two slots, the first of
which is the last one of the area. -/
def ramLarge : System RamDisk :=
  let s := ramUp true (.device 0)
  let page : Page :=
    { flags.locked := true, flags.dirty := true, order := 1, slot := some ⟨7⟩,
      bytes := Bytes.fill 8192 7 }
  { s with pages := s.pages.set 0 page }

/-- What is handed over for this page begins at its slot. -/
theorem large_page_at_own_slot : ∃ blocks,
    ramArea.BroughtUp (ramSpec (.device 0)) (groundOf (ramDisk true) (ramSpec (.device 0)) ramStart)
      blocks ∧
    OnlyHands (FromOwnSlot ramArea blocks 0 0) (fun b => pageOut b 0 {}) (ramDisk true)
      ramLarge := by
  obtain ⟨blocks, hup, h⟩ := handed_over_at_own_slot (swapOn_ramDisk true)
  exact ⟨blocks, hup, (h (ramDisk true) ramLarge 0 0 rfl rfl).1 {}⟩

/-- The driver of `ramLarge`, but that it faults when it is handed this page. -/
def stumbling : Queues RamDisk :=
  { (ramDisk true).queues with
    transfer := fun queue sector direction p page w =>
      if p = 0 ∧ page.order = 1 ∧ page.slot = some ⟨7⟩ then .error .stalled
      else (ramDisk true).queues.transfer queue sector direction p page w }

/-- **A page may reach past the end of its area.**  The page is written to the last block of the
area and the one behind it. -/
theorem page_past_the_end : ∃ blocks,
    ramArea.BroughtUp (ramSpec (.device 0)) (groundOf (ramDisk true) (ramSpec (.device 0)) ramStart)
      blocks ∧
    ¬ OnlyHands (fun x => x.page = 0 → OwnBlocks ramArea blocks x) (fun b => pageOut b 0 {})
      (ramDisk true) ramLarge := by
  obtain ⟨blocks, -, -, hup, -, -⟩ := swapOn_ok (swapOn_ramDisk true)
  refine ⟨blocks, hup, fun h => ?_⟩
  have hlength : blocks.length = 8 := hup.max.symm
  have hagree : AgreeOn (fun x => x.page = 0 → OwnBlocks ramArea blocks x) (ramDisk true).queues
      stumbling := by
    refine ⟨rfl, fun {queue sector direction p content} hx => ?_, fun _ => rfl⟩
    funext w
    refine if_neg ?_
    rintro ⟨hp, horder, hslot⟩
    obtain ⟨o, hat, hall⟩ := hx hp
    obtain rfl := hat.unique ⟨⟨7⟩, hslot, rfl, rfl⟩
    -- the page has a second slot, and the area has none
    have hsecond := hall 1 (by rw [horder]; decide)
    rw [List.getElem?_eq_none (by rw [hlength]; decide)] at hsecond
    exact absurd hsecond nofun
  have hsame := congrArg (fun r => match r with | .ok _ => true | .error _ => false)
    (h stumbling hagree)
  have hfault : (match pageOut { ramDisk true with queues := stumbling } 0 {} ramLarge with
    | .ok _ => true | .error _ => false) = false := by decide +kernel
  have hwritten : (match pageOut (ramDisk true) 0 {} ramLarge with
    | .ok _ => true | .error _ => false) = true := by decide +kernel
  rw [hfault, hwritten] at hsame
  exact absurd hsame nofun

end PageSwap
