/-
# Requests, tags and pages agree

The tag count of a device, the table of requests, the lock and the transfer of a page are separate
pieces of state, changed by different functions and on different orders of completion.
`Coherent` says how they fit together, and every call and every completion keeps it.

* `Coherent.edit`, `Coherent.issue`, `Coherent.finish` -- the three ways the tables change.
* `Lawful` -- what is asked of collaborators: they leave lock and transfer of a page alone.
* `lasting_coherent` -- completions and bookkeeping keep the tables coherent, and
  `DeviceWrite.coherent`, ..., `PageRead.coherent` -- so do the first steps of the calls.

`Coherent` speaks of all pages, devices and requests at once: a completion gives back the tag of one
device and ends the transfer of one page, and that both are its own is known from the other fields
only.  Runs of calls are in `PageSwap.Proofs.Agreement`.
-/
import Mathlib.Data.Finset.Card
import Mathlib.Data.Finset.Range
import PageSwap.Proofs.Areas
import PageSwap.Proofs.Reads

namespace PageSwap

variable {σ : Type}

/-! ## 1. The requests of a device -/

/-- The requests that exist on device `d`. -/
def live (requests : Table (Option Request)) (d : DeviceId) : Finset RequestId :=
  (Finset.range requests.fresh).filter fun r => (requests.get r).any (·.device = d)

theorem mem_live {requests : Table (Option Request)} {d : DeviceId} {r : RequestId} :
    r ∈ live requests d ↔ ∃ q, requests.get r = some q ∧ q.device = d := by
  unfold live
  rw [Finset.mem_filter, Finset.mem_range]
  constructor
  · rintro ⟨-, h⟩
    obtain ⟨q, hq, hd⟩ := (Option.any_eq_true _ _).mp h
    exact ⟨q, hq, by simpa using hd⟩
  · rintro ⟨q, hq, hd⟩
    refine ⟨?_, by rw [hq]; simpa using hd⟩
    by_contra hle
    rw [Table.get_of_fresh_le _ (Nat.le_of_not_lt hle)] at hq
    exact absurd hq nofun

/-- Dropping a request. -/
theorem live_set_none {requests : Table (Option Request)} {r : RequestId} (d : DeviceId) :
    live (requests.set r none) d = (live requests d).erase r := by
  ext r'
  rw [Finset.mem_erase, mem_live, mem_live]
  by_cases h : r' = r
  · subst h
    rw [Table.get_set_self]
    exact ⟨fun ⟨_, hq, _⟩ => absurd hq nofun, fun ⟨hne, _⟩ => absurd rfl hne⟩
  · rw [Table.get_set_ne _ _ h]
    exact ⟨fun hq => ⟨h, hq⟩, fun ⟨_, hq⟩ => hq⟩

/-- A new request. -/
theorem live_set_some {requests : Table (Option Request)} {r : RequestId} {q : Request}
    (hfree : requests.get r = none) (d : DeviceId) :
    live (requests.set r (some q)) d =
      if q.device = d then insert r (live requests d) else live requests d := by
  ext r'
  by_cases h : r' = r
  · subst h
    rw [mem_live, Table.get_set_self]
    split
    · rename_i hd
      exact ⟨fun _ => Finset.mem_insert_self _ _, fun _ => ⟨q, rfl, hd⟩⟩
    · rename_i hd
      rw [mem_live, hfree]
      constructor
      · rintro ⟨q', hq', hd'⟩
        injection hq' with hq'
        exact absurd (hq' ▸ hd') hd
      · rintro ⟨q', hq', -⟩
        exact absurd hq' nofun
  · rw [mem_live, Table.get_set_ne _ _ h]
    split
    · rw [Finset.mem_insert, mem_live]
      exact ⟨Or.inr, fun hq => hq.resolve_left h⟩
    · rw [mem_live]

/-- A request that is dropped counts for its device no more. -/
theorem card_live_set_none {requests : Table (Option Request)} {r : RequestId} {q : Request}
    (hq : requests.get r = some q) (d : DeviceId) :
    (live (requests.set r none) d).card =
      if q.device = d then (live requests d).card - 1 else (live requests d).card := by
  rw [live_set_none]
  split
  · rename_i hd
    exact Finset.card_erase_of_mem (mem_live.mpr ⟨q, hq, hd⟩)
  · rename_i hd
    rw [Finset.erase_eq_of_notMem]
    rw [mem_live, hq]
    rintro ⟨q', hq', hd'⟩
    injection hq' with hq'
    exact hd (hq' ▸ hd')

/-- A new request counts for its device. -/
theorem card_live_set_some {requests : Table (Option Request)} {r : RequestId} {q : Request}
    (hfree : requests.get r = none) (d : DeviceId) :
    (live (requests.set r (some q)) d).card =
      if q.device = d then (live requests d).card + 1 else (live requests d).card := by
  rw [live_set_some hfree]
  split
  · refine Finset.card_insert_of_notMem ?_
    rw [mem_live, hfree]
    rintro ⟨q', hq', -⟩
    exact absurd hq' nofun
  · rfl

/-! ## 2. Coherent tables -/

/-- **Pages, devices and requests fit together.** -/
structure Coherent (pages : Table Page) (devices : Table Device)
    (requests : Table (Option Request)) : Prop where
  /-- A request ends as its direction says. -/
  ending : ∀ {r q}, requests.get r = some q → q.ending = q.direction.ending
  /-- A page has one request at most. -/
  unique : ∀ {r r' q q'}, requests.get r = some q → requests.get r' = some q' → q.page = q'.page →
    r = r'
  /-- The page of a request is in its transfer. -/
  transfer : ∀ {r q}, requests.get r = some q → (pages.get q.page).transfer = q.direction.transfer
  /-- A page is locked while it is read. -/
  locked : ∀ {r q}, requests.get r = some q → q.direction = .read →
    (pages.get q.page).flags.locked = true
  /-- A page without a request has no transfer. -/
  idle : ∀ {p}, (∀ r q, requests.get r = some q → q.page ≠ p) → (pages.get p).transfer = .idle
  /-- The tags in use are those of the requests. -/
  tags : ∀ d, (devices.get d).inflight = (live requests d).card
  /-- There are no more of them than the device takes. -/
  depth : ∀ d, (devices.get d).inflight ≤ (devices.get d).depth

/-- The tables of a state fit together. -/
abbrev System.Coherent (s : System σ) : Prop := PageSwap.Coherent s.pages s.devices s.requests

theorem Direction.transfer_ne_idle (direction : Direction) : direction.transfer ≠ .idle := by
  cases direction <;> exact nofun

namespace Coherent

variable {pages : Table Page} {devices : Table Device} {requests : Table (Option Request)}

/-- A page without a transfer has no request. -/
theorem no_request (h : Coherent pages devices requests) {p : PageId}
    (hidle : (pages.get p).transfer = .idle) : ∀ r q, requests.get r = some q → q.page ≠ p := by
  rintro r q hq rfl
  rw [h.transfer hq] at hidle
  exact q.direction.transfer_ne_idle hidle

/-- The page of a request is in a transfer. -/
theorem busy (h : Coherent pages devices requests) {r : RequestId} {q : Request}
    (hq : requests.get r = some q) : (pages.get q.page).transfer ≠ .idle := by
  rw [h.transfer hq]
  exact q.direction.transfer_ne_idle

/-- A page is in a transfer exactly if it has a request of that direction. -/
theorem transfer_iff (h : Coherent pages devices requests) (p : PageId) (direction : Direction) :
    (pages.get p).transfer = direction.transfer ↔
      ∃ r q, requests.get r = some q ∧ q.page = p ∧ q.direction = direction := by
  constructor
  · intro htransfer
    by_contra hno
    have hidle : (pages.get p).transfer = .idle := by
      refine h.idle fun r q hq hp => hno ⟨r, q, hq, hp, ?_⟩
      have hq' := h.transfer hq
      rw [hp, htransfer] at hq'
      cases direction <;> cases hd : q.direction <;> simp_all [Direction.transfer]
    exact direction.transfer_ne_idle (htransfer.symm.trans hidle)
  · rintro ⟨r, q, hq, rfl, rfl⟩
    exact h.transfer hq

/-- **A page changes** without its transfer, and stays locked while it is read. -/
theorem edit (h : Coherent pages devices requests) {p : PageId} {page : Page}
    (htransfer : page.transfer = (pages.get p).transfer)
    (hlocked : (pages.get p).transfer = .reading → (pages.get p).flags.locked = true →
      page.flags.locked = true) :
    Coherent (pages.set p page) devices requests where
  ending := h.ending
  unique := h.unique
  transfer := by
    intro r q hq
    rw [Table.get_set]
    split
    · rename_i hp
      rw [htransfer, ← hp]
      exact h.transfer hq
    · exact h.transfer hq
  locked := by
    intro r q hq hread
    rw [Table.get_set]
    split
    · rename_i hp
      have htr := h.transfer hq
      rw [hread] at htr
      exact hlocked (hp ▸ htr) (hp ▸ h.locked hq hread)
    · exact h.locked hq hread
  idle := by
    intro p' hno
    rw [Table.get_set]
    split
    · rename_i hp
      rw [htransfer, ← hp]
      exact h.idle hno
    · exact h.idle hno
  tags := h.tags
  depth := h.depth

/-- A page without a transfer changes and gets none. -/
theorem edit_idle (h : Coherent pages devices requests) {p : PageId} {page : Page}
    (hidle : (pages.get p).transfer = .idle) (htransfer : page.transfer = .idle) :
    Coherent (pages.set p page) devices requests :=
  h.edit (htransfer.trans hidle.symm) fun hread => absurd (hidle.symm.trans hread) nofun

/-- **A request is issued** for a page without a transfer. -/
theorem issue (h : Coherent pages devices requests) {p : PageId} {d : DeviceId} {dev : Device}
    {q : Request} {page : Page} (hp : q.page = p) (hd : q.device = d)
    (hidle : (pages.get p).transfer = .idle) (htag : (devices.get d).reserveTag = some dev)
    (hending : q.ending = q.direction.ending) (htransfer : page.transfer = q.direction.transfer)
    (hlocked : q.direction = .read → page.flags.locked = true) :
    Coherent (pages.set p page) (devices.set d dev)
      (requests.set requests.fresh (some q)) := by
  subst hp
  have hfree : requests.get requests.fresh = none := Table.get_of_fresh_le _ (Nat.le_refl _)
  have hno := h.no_request hidle
  obtain ⟨hroom, rfl⟩ := Device.reserveTag_eq_some_iff.mp htag
  -- a request is the new one, or it is an old one and of another page
  have hcases : ∀ {r q'}, (requests.set requests.fresh (some q)).get r = some q' →
      r = requests.fresh ∧ q' = q ∨ r ≠ requests.fresh ∧ requests.get r = some q' ∧
        q'.page ≠ q.page := by
    intro r q' hq'
    by_cases hr : r = requests.fresh
    · subst hr
      rw [Table.get_set_self] at hq'
      injection hq' with hq'
      exact Or.inl ⟨rfl, hq'.symm⟩
    · rw [Table.get_set_ne _ _ hr] at hq'
      exact Or.inr ⟨hr, hq', hno r q' hq'⟩
  constructor
  case ending =>
    intro r q' hq'
    rcases hcases hq' with ⟨-, rfl⟩ | ⟨-, hq', -⟩
    · exact hending
    · exact h.ending hq'
  case unique =>
    intro r r' q₁ q₂ h₁ h₂ hpage
    rcases hcases h₁ with ⟨rfl, rfl⟩ | ⟨-, h₁, hne₁⟩
    · rcases hcases h₂ with ⟨rfl, -⟩ | ⟨-, -, hne₂⟩
      · rfl
      · exact absurd hpage.symm hne₂
    · rcases hcases h₂ with ⟨rfl, rfl⟩ | ⟨-, h₂, -⟩
      · exact absurd hpage hne₁
      · exact h.unique h₁ h₂ hpage
  case transfer =>
    intro r q' hq'
    rcases hcases hq' with ⟨-, rfl⟩ | ⟨-, hq', hne⟩
    · rw [Table.get_set_self]; exact htransfer
    · rw [Table.get_set_ne _ _ hne]; exact h.transfer hq'
  case locked =>
    intro r q' hq' hread
    rcases hcases hq' with ⟨-, rfl⟩ | ⟨-, hq', hne⟩
    · rw [Table.get_set_self]; exact hlocked hread
    · rw [Table.get_set_ne _ _ hne]; exact h.locked hq' hread
  case idle =>
    intro p hp
    have hpq : p ≠ q.page := fun he => hp requests.fresh q (Table.get_set_self _ _ _) he.symm
    rw [Table.get_set_ne _ _ hpq]
    refine h.idle fun r q' hq' => ?_
    have hr : r ≠ requests.fresh := fun he => absurd (he ▸ hq' : _) (by rw [hfree]; nofun)
    exact hp r q' (by rw [Table.get_set_ne _ _ hr]; exact hq')
  case tags =>
    intro d'
    rw [card_live_set_some hfree, Table.get_set, hd]
    by_cases hd' : d' = d
    · subst hd'
      rw [if_pos rfl, if_pos rfl, ← h.tags d']
    · rw [if_neg hd', if_neg (Ne.symm hd'), h.tags d']
  case depth =>
    intro d'
    rw [Table.get_set]
    split
    · exact hroom
    · exact h.depth d'

/-- A request that exists can be finished. -/
theorem ready {s : System σ} (h : s.Coherent) {r : RequestId} {q : Request}
    (hq : s.requests.get r = some q) : Ready s q where
  ending := h.ending hq
  transfer := h.transfer hq
  locked := h.locked hq
  tag := by
    rw [h.tags q.device]
    exact Finset.card_pos.mpr ⟨r, mem_live.mpr ⟨q, hq, rfl⟩⟩

/-- **A request is finished**: its page has no transfer any more and its tag is given back. -/
theorem finish (h : Coherent pages devices requests) {r : RequestId} {q : Request} {page : Page}
    (hq : requests.get r = some q) (hidle : page.transfer = .idle) :
    Coherent (pages.set q.page page)
      (devices.set q.device
        { devices.get q.device with inflight := (devices.get q.device).inflight - 1 })
      (requests.set r none) := by
  -- the requests left are old ones, and of other pages
  have hcases : ∀ {r' q'}, (requests.set r none).get r' = some q' →
      r' ≠ r ∧ requests.get r' = some q' ∧ q'.page ≠ q.page := by
    intro r' q' hq'
    by_cases hr : r' = r
    · subst hr
      rw [Table.get_set_self] at hq'
      exact absurd hq' nofun
    · rw [Table.get_set_ne _ _ hr] at hq'
      exact ⟨hr, hq', fun he => hr (h.unique hq' hq he)⟩
  constructor
  case ending =>
    intro r' q' hq'
    exact h.ending (hcases hq').2.1
  case unique =>
    intro r₁ r₂ q₁ q₂ h₁ h₂
    exact h.unique (hcases h₁).2.1 (hcases h₂).2.1
  case transfer =>
    intro r' q' hq'
    rw [Table.get_set_ne _ _ (hcases hq').2.2]
    exact h.transfer (hcases hq').2.1
  case locked =>
    intro r' q' hq' hread
    rw [Table.get_set_ne _ _ (hcases hq').2.2]
    exact h.locked (hcases hq').2.1 hread
  case idle =>
    intro p hp
    rw [Table.get_set]
    split
    · exact hidle
    · rename_i hne
      refine h.idle fun r' q' hq' he => ?_
      by_cases hr : r' = r
      · rw [hr, hq] at hq'
        injection hq' with hq'
        exact hne (he.symm.trans (by rw [hq']))
      · exact hp r' q' (by rw [Table.get_set_ne _ _ hr]; exact hq') he
  case tags =>
    intro d
    rw [card_live_set_none hq, Table.get_set]
    by_cases hd : d = q.device
    · subst hd
      rw [if_pos rfl, if_pos rfl, ← h.tags q.device]
    · rw [if_neg hd, if_neg (Ne.symm hd), h.tags d]
  case depth =>
    intro d
    rw [Table.get_set]
    split
    · have := h.depth q.device
      show _ - 1 ≤ (devices.get q.device).depth
      omega
    · exact h.depth d

end Coherent

/-! ## 3. What is asked of collaborators -/

/-- A fault that is an assertion of the swap path, as opposed to a sum that does not fit, an endless
wait, or a fault of a collaborator. -/
def Fault.Assertion : Fault → Prop
  | .slotArea | .notLocked | .transfer _ _ _ | .writeUnlocked | .readUnlocked | .readUptodate
  | .tagNotHeld | .blockSize | .unsorted | .parkedTwice => True
  | .overflow _ | .capacity | .stalled | .collaborator _ => False

/-- Lock and transfer of the two pages are the same. -/
def Page.SameHold (page page' : Page) : Prop :=
  page'.flags.locked = page.flags.locked ∧ page'.transfer = page.transfer

theorem Page.SameHold.held {page page' : Page} (h : page.SameHold page') (hheld : page.Held) :
    page'.Held :=
  ⟨h.1.trans hheld.1, h.2.trans hheld.2⟩

/-- **Collaborators leave lock and transfer of a page alone**, but for a front store that may
unlock a page it loads.  Blocks of a swap file are no larger than a page, and faults of
collaborators are their own. -/
structure Lawful (b : Backend σ) : Prop where
  tryFree : ∀ {m p page w answer page' w'},
    b.slotMaps.tryFree m p page w = ((answer, page'), w') → page.SameHold page'
  dirtied : ∀ {f p page w clean page' w'},
    b.files.dirtied f p page w = ((clean, page'), w') → page.SameHold page'
  store : ∀ {front p page w answer page' w'}, b.front = some front →
    front.store p page w = .ok ((answer, page'), w') → page.SameHold page'
  fill : ∀ {front p pace page w answer page' w'}, b.front = some front →
    front.fill p pace page w = .ok ((answer, page'), w') →
    page'.transfer = page.transfer ∧ (page'.flags.locked = page.flags.locked ∨ answer = true)
  blockBits : ∀ f w, (b.files.blockMap f w).blockBits ≤ pageBits
  settleFault : ∀ {queue f q page w e}, b.queues.settle queue f q page w = .error e → ¬ e.Assertion
  transferFault : ∀ {queue sector direction p page w e},
    b.queues.transfer queue sector direction p page w = .error e → ¬ e.Assertion
  storeFault : ∀ {front p page w e}, b.front = some front → front.store p page w = .error e →
    ¬ e.Assertion
  fillFault : ∀ {front p pace page w e}, b.front = some front →
    front.fill p pace page w = .error e →
    ¬ e.Assertion

namespace Lawful

variable {b : Backend σ}

theorem tolerant (hb : Lawful b) : Tolerant b (¬ ·.Assertion) where
  settle := hb.settleFault
  transfer := hb.transferFault
  store := hb.storeFault
  load := fun hfront h => @Lawful.fillFault _ b hb _ _ .start _ _ _ hfront h
  loadLater := fun hfront h => @Lawful.fillFault _ b hb _ _ .background _ _ _ hfront h

theorem minds (hb : Lawful b) : b.Minds where
  tryFree := fun h => (hb.tryFree h).held
  store := fun hfront h => (hb.store hfront h).held

theorem mindsReads (hb : Lawful b) : b.MindsReads := by
  intro front p pace page w page' w' hfront h hheld
  obtain ⟨htransfer, hlocked⟩ := hb.fill hfront h
  exact ⟨(hlocked.resolve_right nofun).trans hheld.1, htransfer.trans hheld.2⟩

theorem keepsShort (hb : Lawful b) {f : FileId} {p : PageId} {page : Page} :
    b.KeepsShort f p page := by
  intro position w result w₁ clean page' w₂ _ _ h
  exact (hb.dirtied h).2

/-- Collaborators without a front store, whose transfers do not fault. -/
theorem of_no_front (hfront : b.front = none)
    (htryFree : ∀ m p (page : Page) w, page.SameHold (b.slotMaps.tryFree m p page w).1.2)
    (hdirtied : ∀ f p (page : Page) w, page.SameHold (b.files.dirtied f p page w).1.2)
    (hbits : ∀ f w, (b.files.blockMap f w).blockBits ≤ pageBits)
    (hsettle : ∀ queue f q page w, ∃ out, b.queues.settle queue f q page w = .ok out)
    (htransfer : ∀ queue sector direction p page w, ∃ out,
      b.queues.transfer queue sector direction p page w = .ok out) : Lawful b where
  tryFree := fun {m p page w answer page' w'} h => by
    have hhold := htryFree m p page w
    rwa [h] at hhold
  dirtied := fun {f p page w clean page' w'} h => by
    have hhold := hdirtied f p page w
    rwa [h] at hhold
  store := fun h => absurd (hfront.symm.trans h) nofun
  fill := fun h => absurd (hfront.symm.trans h) nofun
  blockBits := hbits
  settleFault := fun {queue f q page w e} h => by
    obtain ⟨out, hout⟩ := hsettle queue f q page w
    exact absurd (h.symm.trans hout) nofun
  transferFault := fun {queue sector direction p page w e} h => by
    obtain ⟨out, hout⟩ := htransfer queue sector direction p page w
    exact absurd (h.symm.trans hout) nofun
  storeFault := fun h => absurd (hfront.symm.trans h) nofun
  fillFault := fun h => absurd (hfront.symm.trans h) nofun

/-- The laws say nothing of when a request is finished, nor of statistics and stalls. -/
theorem congr {b' : Backend σ} (hb : Lawful b) (hmaps : b'.slotMaps = b.slotMaps)
    (hfiles : b'.files = b.files) (hfront : b'.front = b.front)
    (hsettle : b'.queues.settle = b.queues.settle)
    (htransfer : b'.queues.transfer = b.queues.transfer) : Lawful b' where
  tryFree := fun h => hb.tryFree (hmaps ▸ h)
  dirtied := fun h => hb.dirtied (hfiles ▸ h)
  store := fun h => hb.store (hfront ▸ h)
  fill := fun h => hb.fill (hfront ▸ h)
  blockBits := fun f w => by
    rw [hfiles]
    exact hb.blockBits f w
  settleFault := fun h => hb.settleFault (hsettle ▸ h)
  transferFault := fun h => hb.transferFault (htransfer ▸ h)
  storeFault := fun h => hb.storeFault (hfront ▸ h)
  fillFault := fun h => hb.fillFault (hfront ▸ h)

end Lawful

/-! ## 4. Calls keep the tables coherent -/

/-- The tables fit together, and the devices of `t` take as many requests as they did there. -/
structure System.CoherentSince (t : Table Device) (s : System σ) : Prop where
  coherent : s.Coherent
  fresh : t.fresh ≤ s.devices.fresh
  depth : ∀ d < t.fresh, (s.devices.get d).depth = (t.get d).depth

namespace System.CoherentSince

variable {t : Table Device} {s : System σ}

/-- Only pages and the like change. -/
theorem of_pages (h : s.CoherentSince t) {pages : Table Page} {w : σ}
    (hc : PageSwap.Coherent pages s.devices s.requests) :
    { s with pages, world := w }.CoherentSince t :=
  ⟨hc, h.fresh, h.depth⟩

/-- A device changes, but not how many requests it takes. -/
theorem of_device (h : s.CoherentSince t) {pages : Table Page} {d : DeviceId} {dev : Device}
    {requests : Table (Option Request)} {sleepers : Table Sleeper} {w : σ}
    (hdepth : dev.depth = (s.devices.get d).depth)
    (hc : PageSwap.Coherent pages (s.devices.set d dev) requests) :
    { s with pages, devices := s.devices.set d dev, requests, sleepers, world := w }.CoherentSince
      t := by
  refine ⟨hc, Nat.le_trans h.fresh (Table.fresh_le_fresh_set _ _ _), fun d' hd' => ?_⟩
  show ((s.devices.set d dev).get d').depth = _
  rw [Table.get_set]
  split
  · rename_i he
    rw [hdepth, ← he]
    exact h.depth d' hd'
  · exact h.depth d' hd'

end System.CoherentSince

section

variable {b : Backend σ} {t : Table Device} {s s' : System σ} {p : PageId} {status : Status}

/-- Completions and bookkeeping keep the tables coherent. -/
theorem lasting_coherent (hb : Lawful b) (t : Table Device) :
    Lasting b (¬ ·.Assertion) (System.CoherentSince t) where
  tolerant := hb.tolerant
  blind := fun _ _ _ h => ⟨h.coherent, h.fresh, h.depth⟩
  aside := fun h _ => ⟨h.coherent, h.fresh, h.depth⟩
  ready := fun h hq => h.coherent.ready hq
  finished := fun h hq _ => h.of_device rfl (h.coherent.finish hq rfl)

theorem DeviceWrite.coherent {area : Area} {d : DeviceId} {w : Writeback}
    (hstep : DeviceWrite b area d p w .write s status s') (h : s.CoherentSince t)
    (hidle : (s.pages.get p).transfer = .idle) : s'.CoherentSince t := by
  cases hstep with
  | lost => exact h.of_pages (h.coherent.edit_idle hidle hidle)
  | direct => exact h.of_pages (h.coherent.edit_idle hidle rfl)
  | crowded => exact h.of_pages (h.coherent.edit_idle hidle rfl)
  | issued hsector htransfer hroom htag =>
    have hdepth := (Device.reserveTag_eq_some_iff.mp htag).2
    exact h.of_device (by rw [hdepth]) (h.coherent.issue rfl rfl hidle htag rfl rfl
      fun hread => absurd hread nofun)

theorem FileWrite.coherent {area : Area} {f : FileId} (hstep : FileWrite b area f p s status s')
    (h : s.CoherentSince t) (hidle : (s.pages.get p).transfer = .idle) : s'.CoherentSince t := by
  cases hstep with
  | lost => exact h.of_pages (h.coherent.edit_idle hidle hidle)
  | full => exact h.of_pages (h.coherent.edit_idle hidle rfl)
  | short => exact h.of_pages (h.coherent.edit_idle hidle rfl)

theorem SlotWrite.coherent {area : Area} {w : Writeback}
    (hstep : SlotWrite b area p w .write s status s') (h : s.CoherentSince t)
    (hidle : (s.pages.get p).transfer = .idle) : s'.CoherentSince t := by
  cases hstep with
  | file _ hstep => exact hstep.coherent h hidle
  | device _ hstep => exact hstep.coherent h hidle

/-- What leaves a page held when it declines leaves it held. -/
theorem FrontDeclines.held {ask : FrontStore σ → Page → σ → Except Fault ((Bool × Page) × σ)}
    (hask : ∀ {front page w page' w'}, b.front = some front →
      ask front page w = .ok ((false, page'), w') → page.Held → page'.Held)
    (h : FrontDeclines b ask p s s') (hheld : (s.pages.get p).Held) : (s'.pages.get p).Held := by
  cases h with
  | absent => exact hheld
  | declined hfront hanswer =>
    rw [Table.get_set_self]
    exact hask hfront hanswer hheld

/-- A front store that declines keeps the tables coherent. -/
theorem FrontDeclines.coherent
    {ask : FrontStore σ → Page → σ → Except Fault ((Bool × Page) × σ)}
    (h : FrontDeclines b ask p s s') (hs : s.CoherentSince t)
    (hidle : (s.pages.get p).transfer = .idle) (hidle' : (s'.pages.get p).transfer = .idle)
    (w : σ) : { s' with world := w }.CoherentSince t := by
  cases h with
  | absent => exact hs.of_pages hs.coherent
  | declined =>
    rw [Table.get_set_self] at hidle'
    exact hs.of_pages (hs.coherent.edit_idle hidle hidle')

theorem PageWrite.coherent {w : Writeback} (hb : Lawful b) (hstep : PageWrite b p w s status s')
    (h : s.CoherentSince t) (hheld : (s.pages.get p).Held) : s'.CoherentSince t := by
  cases hstep with
  | lost => exact h.of_pages (h.coherent.edit_idle hheld.2 hheld.2)
  | freed harea hfree =>
    exact h.of_pages (h.coherent.edit_idle hheld.2 (hb.minds.tryFree hfree hheld).2)
  | stored harea hfree => exact h.of_pages (h.coherent.edit_idle hheld.2 rfl)
  | @slot area page w₁ w₂ s₁ _ _ harea hfree hchores hfront hstep =>
    have hpage : page.Held := hb.minds.tryFree hfree hheld
    have hkept : ((s.pages.set p page).get p).Held := by rw [Table.get_set_self]; exact hpage
    have hheld' := hfront.held (fun hfront h => hb.minds.store hfront h) hkept
    have hcleaned := h.of_pages (w := w₂) (h.coherent.edit_idle hheld.2 hpage.2)
    exact hstep.coherent (hfront.coherent hcleaned hkept.2 hheld'.2 s₁.world) hheld'.2

theorem DeviceRead.coherent {area : Area} {d : DeviceId} (hstep : DeviceRead b area d p s status s')
    (h : s.CoherentSince t) (hheld : (s.pages.get p).Held) : s'.CoherentSince t := by
  cases hstep with
  | lost => exact h.of_pages (h.coherent.edit_idle hheld.2 rfl)
  | direct => exact h.of_pages (h.coherent.edit_idle hheld.2 rfl)
  | crowded => exact h.of_pages (h.coherent.edit_idle hheld.2 rfl)
  | issued hsector htransfer hroom htag hq =>
    have hdepth := (Device.reserveTag_eq_some_iff.mp htag).2
    rcases hq with rfl | ⟨i, rfl⟩
    · exact h.of_device (by rw [hdepth])
        (h.coherent.issue rfl rfl hheld.2 htag rfl rfl fun _ => hheld.1)
    · exact h.of_device (by rw [hdepth])
        (h.coherent.issue rfl rfl hheld.2 htag rfl rfl fun _ => hheld.1)

theorem SlotRead.coherent {area : Area} (hstep : SlotRead b area p s status s')
    (h : s.CoherentSince t) (hheld : (s.pages.get p).Held) : s'.CoherentSince t := by
  cases hstep with
  | file _ hstep =>
    cases hstep with
    | lost => exact h.of_pages (h.coherent.edit_idle hheld.2 rfl)
    | read => exact h.of_pages (h.coherent.edit_idle hheld.2 rfl)
  | device _ hstep => exact hstep.coherent h hheld

theorem PageRead.coherent {pace : Pace} (hb : Lawful b) (hstep : PageRead b p pace s status s')
    (h : s.CoherentSince t) (hheld : (s.pages.get p).Held) : s'.CoherentSince t := by
  cases hstep with
  | lost => exact h.of_pages (h.coherent.edit_idle hheld.2 rfl)
  | loaded harea hfront hfill =>
    exact h.of_pages (h.coherent.edit_idle hheld.2 ((hb.fill hfront hfill).1.trans hheld.2))
  | slot harea hfront hchores hstep =>
    have hheld' := hfront.held (fun hfront h => hb.mindsReads hfront h) hheld
    exact hstep.coherent (hfront.coherent h hheld.2 hheld'.2 _) hheld'

end

end PageSwap
