/-
# An area in use

Pages whose slots are in one area are written to it and read from it.  While they are, the area
stays registered, and every request that exists is one of a page for the sector of its slot.

* `Area.BroughtUp.sector_ok`, `Area.IsAt.position` -- where a slot lies.
* `Serves` -- an area in use, and `Serves.edit`, `Serves.issue`, `Serves.finish`, the three ways
  the tables change.
-/
import PageSwap.Proofs.Coherence
import PageSwap.Proofs.Disks

namespace PageSwap

variable {σ : Type}

/-! ## 1. Where a slot lies -/

/-- Where the sector of a block lies, if the sector number has room for it. -/
theorem sector_position {block : UInt64} (h : block.toNat < 2 ^ 61) :
    (block <<< pageSectorBits.toUInt64).toNat * 512 = block.toNat * 4096 := by
  have hshift : (block <<< pageSectorBits.toUInt64).toNat = block.toNat * 8 := by
    rw [UInt64.toNat_shiftLeft]
    show block.toNat <<< 3 % 2 ^ 64 = _
    rw [Nat.shiftLeft_eq]
    omega
  rw [hshift]
  omega

/-- Where the position of an offset lies. -/
theorem offset_position {offset : UInt64} (h : offset.toNat < 2 ^ 52) :
    (offset <<< pageBits.toUInt64).toNat = offset.toNat * 4096 := by
  rw [UInt64.toNat_shiftLeft]
  show offset.toNat <<< 12 % 2 ^ 64 = _
  rw [Nat.shiftLeft_eq]
  omega

/-- The slot is that of page `o` of the area. -/
def Area.IsAt (a : Area) (slot : Option Slot) (o : Nat) : Prop :=
  ∃ sl, slot = some sl ∧ sl.area = a.number ∧ sl.offset.toNat = o

section

variable {a : Area} {slot : Option Slot} {o o' : Nat}

theorem Area.IsAt.unique (h : a.IsAt slot o) (h' : a.IsAt slot o') : o = o' := by
  obtain ⟨sl, rfl, -, rfl⟩ := h
  obtain ⟨sl', hsl, -, rfl⟩ := h'
  injection hsl with hsl
  rw [hsl]

/-- A page with a slot in a registered area is found to be in it. -/
theorem Area.IsAt.areaAt {s : System σ} {p : PageId} (h : a.IsAt (s.pages.get p).slot o)
    (hreg : s.area? a.number = some a) : s.areaAt p = some a := by
  obtain ⟨sl, hsl, harea, -⟩ := h
  unfold System.areaAt
  rw [hsl, Option.bind_some, harea, hreg]

namespace Area.BroughtUp

variable {spec : AreaSpec} {ground : Area.Ground} {blocks : List Nat}

/-- **The sector of a slot** is where its block begins. -/
theorem sector_ok (h : a.BroughtUp spec ground blocks) (hblocks : ∀ block ∈ blocks, block < 2 ^ 61)
    {sector : UInt64} (hs : a.sector slot = .ok sector) :
    ∃ o block, a.IsAt slot o ∧ blocks[o]? = some block ∧ sector.toNat * 512 = block * 4096 := by
  obtain ⟨sl, block, hsl, harea, hmaps, rfl⟩ := (Area.sector_eq_ok_iff h.lists.ordered).mp hs
  have hblock := (h.lists.maps _ _).mp hmaps
  exact ⟨_, block.toNat, ⟨sl, hsl, harea, rfl⟩, hblock,
    sector_position (hblocks _ (List.mem_of_getElem? hblock))⟩

/-- Every page of the area has a sector. -/
theorem exists_sector (h : a.BroughtUp spec ground blocks) (hat : a.IsAt slot o)
    (ho : o < a.max.toNat) (hblocks : ∀ block ∈ blocks, block < 2 ^ 61) :
    ∃ sector, a.sector slot = .ok sector := by
  obtain ⟨sl, hsl, harea, rfl⟩ := hat
  rw [h.max] at ho
  have hblock := List.getElem?_eq_getElem ho
  have hlt := hblocks _ (List.getElem_mem ho)
  have hword : (UInt64.ofNat blocks[sl.offset.toNat]).toNat = blocks[sl.offset.toNat] := by
    rw [UInt64.toNat_ofNat']
    exact Nat.mod_eq_of_lt (Nat.lt_trans hlt (by decide))
  exact ⟨_, (Area.sector_eq_ok_iff h.lists.ordered).mpr ⟨sl, UInt64.ofNat blocks[sl.offset.toNat],
    hsl, harea, (h.lists.maps _ _).mpr (by rw [hword]; exact hblock), rfl⟩⟩

end Area.BroughtUp

/-- **The position of a slot** in a file. -/
theorem Area.IsAt.position (h : a.IsAt slot o) (ho : o < 2 ^ 52) :
    ∃ position, a.position slot = .ok position ∧ position.toNat = o * 4096 := by
  obtain ⟨sl, hsl, harea, rfl⟩ := h
  exact ⟨_, Area.position_eq_ok_iff.mpr ⟨sl, hsl, harea, rfl⟩, offset_position ho⟩

end

/-! ## 2. Requests of one area -/

/-- **An area in use**: the tables fit together, the area is registered, its device has `queue`, and
every request is for a page of the area, at the sector of its slot. -/
structure Serves (area : Area) (queue : QueueId) (s : System σ) : Prop where
  coherent : s.Coherent
  registered : s.area? area.number = some area
  queue : ∀ {d}, area.backing.device? = some d → (s.devices.get d).queue = queue
  request : ∀ {r q}, s.requests.get r = some q → q.area = area ∧
    area.backing.device? = some q.device ∧ area.sector (s.pages.get q.page).slot = .ok q.sector

namespace Serves

variable {area : Area} {queue : QueueId} {s : System σ}

/-- A page changes, but not its transfer and its slot. -/
theorem edit (h : Serves area queue s) {p : PageId} {page : Page} (w : σ)
    (htransfer : page.transfer = (s.pages.get p).transfer)
    (hslot : page.slot = (s.pages.get p).slot)
    (hlocked : (s.pages.get p).transfer = .reading → (s.pages.get p).flags.locked = true →
      page.flags.locked = true) :
    Serves area queue { s with pages := s.pages.set p page, world := w } where
  coherent := h.coherent.edit htransfer hlocked
  registered := h.registered
  queue := h.queue
  request := by
    intro r q hq
    refine ⟨(h.request hq).1, (h.request hq).2.1, ?_⟩
    rw [Table.get_set]
    split
    · rename_i hp
      rw [hslot, ← hp]
      exact (h.request hq).2.2
    · exact (h.request hq).2.2

/-- A page without a transfer changes and gets none. -/
theorem edit_idle (h : Serves area queue s) {p : PageId} {page : Page} (w : σ)
    (hidle : (s.pages.get p).transfer = .idle) (htransfer : page.transfer = .idle) :
    Serves area queue { s with pages := s.pages.set p page, world := w } where
  coherent := h.coherent.edit_idle hidle htransfer
  registered := h.registered
  queue := h.queue
  request := by
    intro r q hq
    refine ⟨(h.request hq).1, (h.request hq).2.1, ?_⟩
    rw [Table.get_set_ne _ _ (h.coherent.no_request hidle r q hq)]
    exact (h.request hq).2.2

/-- **A request is issued** for a page without a transfer, at the sector of its slot. -/
theorem issue (h : Serves area queue s) {p : PageId} {d : DeviceId} {dev : Device} {q : Request}
    {page : Page} (w : σ) (hp : q.page = p) (hd : q.device = d) (harea : q.area = area)
    (hdevice : area.backing.device? = some d) (hidle : (s.pages.get p).transfer = .idle)
    (htag : (s.devices.get d).reserveTag = some dev)
    (hsector : area.sector (s.pages.get p).slot = .ok q.sector)
    (hending : q.ending = q.direction.ending) (htransfer : page.transfer = q.direction.transfer)
    (hlocked : q.direction = .read → page.flags.locked = true)
    (hslot : page.slot = (s.pages.get p).slot) :
    Serves area queue { s with
      pages := s.pages.set p page
      devices := s.devices.set d dev
      requests := s.requests.set s.requests.fresh (some q)
      world := w } where
  coherent := h.coherent.issue hp hd hidle htag hending htransfer hlocked
  registered := h.registered
  queue := by
    intro d' hd'
    show ((s.devices.set d dev).get d').queue = queue
    rw [Table.get_set]
    split
    · rw [(Device.reserveTag_eq_some_iff.mp htag).2]
      exact h.queue hdevice
    · exact h.queue hd'
  request := by
    intro r q' hq'
    show _ ∧ _ ∧ area.sector ((s.pages.set p page).get q'.page).slot = _
    rw [Table.get_set] at hq'
    split at hq'
    · injection hq' with hq'
      subst hq'
      refine ⟨harea, hd ▸ hdevice, ?_⟩
      rw [hp, Table.get_set_self, hslot]
      exact hsector
    · refine ⟨(h.request hq').1, (h.request hq').2.1, ?_⟩
      rw [Table.get_set_ne _ _ (h.coherent.no_request hidle r q' hq')]
      exact (h.request hq').2.2

/-- **A request is finished.** -/
theorem finish (h : Serves area queue s) (b : Backend σ) {r : RequestId} {q : Request}
    (hq : s.requests.get r = some q) (status : Status) (bytes : Bytes) (w : σ) :
    Serves area queue (s.finished b r q status bytes w) where
  coherent := h.coherent.finish hq rfl
  registered := h.registered
  queue := by
    intro d hd
    show ((s.devices.set q.device _).get d).queue = queue
    rw [Table.get_set]
    split
    · exact h.queue (h.request hq).2.1
    · exact h.queue hd
  request := by
    intro r' q' hq'
    show _ ∧ _ ∧ area.sector ((s.pages.set q.page _).get q'.page).slot = _
    by_cases hr : r' = r
    · subst hr
      exact absurd ((Table.get_set_self _ _ _).symm.trans hq') nofun
    · have hq' := (Table.get_set_ne s.requests none hr).symm.trans hq'
      refine ⟨(h.request hq').1, (h.request hq').2.1, ?_⟩
      rw [Table.get_set]
      split
      · rename_i hp
        rw [Page.ended_slot, ← hp]
        exact (h.request hq').2.2
      · exact (h.request hq').2.2

end Serves

end PageSwap
