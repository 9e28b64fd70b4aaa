/-
# Slots of an area never share storage

A slot of an area that reaches a device stands for eight sectors there.  On a whole device these are
the sectors of its page; in a mapped file they are the sectors of the group of file blocks that the
scan took for it.  Groups do not overlap in the file, and if no two of its blocks lie on one device
block they do not overlap on the device either.

* `Layout.Scanned.good` -- a scan takes good groups only, however large its numbers are.
* `groups_of_activate` -- so the pages of a mapped area are good groups, in the order of the file.
* `BlockMap.Good.onPage_iff` -- the sectors of a good group are the bytes of its blocks.
* `slots_never_share_storage` -- two slots of an area.
-/
import PageSwap.Proofs.Bounds
import PageSwap.Proofs.Service
import PageSwap.Proofs.WellFormed

namespace PageSwap

/-! ## 1. Groups that a scan takes -/

namespace Layout

variable {f : BlockMap}

/-- **A scan takes good groups only**, however large its numbers are: that a group is good does not
need the file to be `Modest`, since its file blocks lie before the end of the file and its device
blocks on one page. -/
theorem Scanned.good {shift probe : UInt64} {pages : List (UInt64 × UInt64)} {s : Found}
    (hbits : f.blockBits ≤ pageBits)
    (h : Scanned f.block? (blocksPerPage f.blockBits) shift (f.size >>> f.blockBits.toUInt64) probe
      pages s) {x : UInt64 × UInt64} (hx : x ∈ pages) :
    f.Good x.1.toNat ∧ f.device? x.1.toNat = some x.2.toNat := by
  have hin := h.inside x hx
  rw [BlockMap.perPage_eq hbits, BlockMap.length_eq hbits] at hin
  have hspec := group_spec hbits hin
  rwa [h.groups x hx] at hspec

end Layout

/-! ## 2. The bytes of a page on a device -/

/-- Byte `x` of a device is in the page that starts at `sector`. -/
def OnPage (sector : UInt64) (x : Nat) : Prop :=
  sector.toNat * 512 ≤ x ∧ x < (sector.toNat + 8) * 512

namespace BlockMap

variable {f : BlockMap}

/-- Byte `x` of the device is in device block `block`. -/
def InBlock (f : BlockMap) (block x : Nat) : Prop :=
  block * 2 ^ f.blockBits.toNat ≤ x ∧ x < (block + 1) * 2 ^ f.blockBits.toNat

/-- What is asked of a file: no two of its blocks lie on one device block, and its bytes on the
device have numbers that fit a word. -/
structure Addressed (f : BlockMap) : Prop where
  injective : ∀ {i j block}, i < f.length → j < f.length → f.device? i = some block →
    f.device? j = some block → i = j
  addresses : ∀ {i block}, i < f.length → f.device? i = some block →
    (block + 1) * 2 ^ f.blockBits.toNat ≤ 2 ^ 64

/-- Blocks of a page make up a page. -/
theorem perPage_mul (hbits : f.blockBits ≤ pageBits) :
    f.perPage * 2 ^ f.blockBits.toNat = 4096 := by
  have hle : f.blockBits.toNat ≤ 12 := UInt32.le_iff_toNat_le.mp hbits
  rw [perPage, ← Nat.pow_add, Nat.sub_add_cancel hle]

/-- A good group is where its page block says. -/
theorem Good.pageBlock_mul {g : Nat} (h : f.Good g) (hbits : f.blockBits ≤ pageBits) :
    ∃ block, f.device? g = some block ∧ f.pageBlock g * f.perPage = block ∧
      f.pageBlock g * 4096 = block * 2 ^ f.blockBits.toNat := by
  obtain ⟨-, block, hblock, hdvd, -⟩ := h
  have hmul : f.pageBlock g * f.perPage = block := by
    rw [pageBlock, hblock]
    exact Nat.div_mul_cancel hdvd
  refine ⟨block, hblock, hmul, ?_⟩
  rw [← hmul, ← perPage_mul hbits, Nat.mul_assoc]

/-- The page block of a good group has a sector. -/
theorem Good.pageBlock_lt {g : Nat} (h : f.Good g) (hbits : f.blockBits ≤ pageBits)
    (hf : f.Addressed) : f.pageBlock g < 2 ^ 61 := by
  obtain ⟨block, hblock, -, hbytes⟩ := h.pageBlock_mul hbits
  have hpos := f.perPage_pos
  have hin := h.1
  have haddress := hf.addresses (by omega) hblock
  rw [Nat.add_mul] at haddress
  omega

/-- Good groups of a file lie on pages of their own. -/
theorem Good.pageBlock_inj {g g' : Nat} (h : f.Good g) (h' : f.Good g')
    (hbits : f.blockBits ≤ pageBits) (hf : f.Addressed) (heq : f.pageBlock g = f.pageBlock g') :
    g = g' := by
  obtain ⟨block, hblock, hmul, -⟩ := h.pageBlock_mul hbits
  obtain ⟨block', hblock', hmul', -⟩ := h'.pageBlock_mul hbits
  have hpos := f.perPage_pos
  have hin := h.1
  have hin' := h'.1
  have hsame : block = block' := by rw [← hmul, ← hmul', heq]
  exact hf.injective (by omega) (by omega) hblock (hsame ▸ hblock')

/-- **The page of a good group is made of the blocks of the group.** -/
theorem Good.onPage_iff {g : Nat} (h : f.Good g) (hbits : f.blockBits ≤ pageBits) {sector : UInt64}
    (hsector : sector.toNat = f.pageBlock g * 8) (x : Nat) :
    OnPage sector x ↔ ∃ j < f.perPage, ∃ block ∈ f.device? (g + j), f.InBlock block x := by
  obtain ⟨first, hfirst, -, hbytes⟩ := h.pageBlock_mul hbits
  obtain ⟨-, first', hfirst', -, hrow⟩ := h
  rw [hfirst] at hfirst'
  injection hfirst' with hfirst'
  subst hfirst'
  have hpage := perPage_mul hbits
  unfold OnPage InBlock
  constructor
  · rintro ⟨hlow, hhigh⟩
    -- the block that holds the byte
    have hpos := Nat.two_pow_pos f.blockBits.toNat
    have hdiv := Nat.div_add_mod (x - first * 2 ^ f.blockBits.toNat) (2 ^ f.blockBits.toNat)
    have hmod := Nat.mod_lt (x - first * 2 ^ f.blockBits.toNat) hpos
    have hj : (x - first * 2 ^ f.blockBits.toNat) / 2 ^ f.blockBits.toNat < f.perPage := by
      rw [Nat.div_lt_iff_lt_mul hpos, hpage]
      omega
    refine ⟨_, hj, _, hrow _ hj, ?_, ?_⟩
    · rw [Nat.add_mul, Nat.mul_comm (_ / _)]
      omega
    · rw [Nat.add_mul, Nat.add_mul, Nat.mul_comm (_ / _)]
      omega
  · rintro ⟨j, hj, block, hblock, hlow, hhigh⟩
    rw [hrow j hj] at hblock
    injection hblock with hblock
    subst hblock
    have hlast : (j + 1) * 2 ^ f.blockBits.toNat ≤ 4096 := by
      rw [← hpage]
      exact Nat.mul_le_mul_right _ hj
    rw [Nat.add_mul] at hlow hlast
    rw [Nat.add_mul, Nat.add_mul] at hhigh
    omega

end BlockMap

/-! ## 3. Slots of an area -/

theorem ExtentTable.Lists.unique {t : ExtentTable} {blocks blocks' : List Nat} (h : t.Lists blocks)
    (h' : t.Lists blocks') : blocks = blocks' := by
  refine List.ext_getElem? fun o => Option.ext fun block => ?_
  rw [← h.maps, ← h'.maps]

/-- The first sector of a page block. -/
theorem sector_eq {block : UInt64} (h : block.toNat < 2 ^ 61) :
    (block <<< pageSectorBits.toUInt64).toNat = block.toNat * 8 := by
  have := sector_position h
  omega

section

variable {σ : Type} {b : Backend σ} {spec : AreaSpec} {limit : UInt64} {s s' : System σ} {a : Area}

/-- **The pages of a mapped area are good groups of its file**, in the order of the file. -/
theorem groups_of_activate (hup : activate b spec limit s = .ok (.ok a, s')) {f : FileId}
    {d : DeviceId} (hback : spec.backing = .mapped f d) :
    (b.files.blockMap f s.world).blockBits ≤ pageBits ∧
    ∃ groups : List Nat, a.table.Lists (groups.map (b.files.blockMap f s.world).pageBlock) ∧
      groups.Pairwise (· < ·) ∧ ∀ g ∈ groups, (b.files.blockMap f s.world).Good g := by
  obtain ⟨⟨table, dims⟩, hplan, hbuild⟩ := activate_ok_iff.mp ⟨s', hup⟩
  obtain ⟨-, rfl⟩ := Area.build_eq_ok_iff.mp hbuild
  have hscan := Layout.scan_spec (b.files.blockMap f s.world) limit
  have hground : groundOf b spec s = .blocks (b.files.blockMap f s.world) := by
    unfold groundOf
    rw [hback]
  rw [hground] at hplan
  have hok : Layout.scan (b.files.blockMap f s.world) limit = .ok (table, dims) := hplan
  rw [hok] at hscan
  obtain ⟨probe, pages, found, hscanned, hbits, rfl, -, -⟩ := hscan
  have hgood := fun {x} => hscanned.good (x := x) hbits
  refine ⟨hbits, pages.map fun x => x.1.toNat, ?_, ?_, ?_⟩
  · have hlists := hscanned.lists
    rw [List.map_map]
    convert hlists using 1
    refine List.map_congr_left fun x hx => ?_
    rw [BlockMap.shifted_eq hbits, Function.comp_apply, BlockMap.pageBlock, (hgood hx).2]
    rfl
  · exact hscanned.rising.map _ fun _ _ hlt => UInt64.lt_iff_toNat_lt.mp hlt
  · intro g hg
    obtain ⟨x, hx, rfl⟩ := List.mem_map.mp hg
    exact (hgood hx).1

/-- What is asked of the file of a mapped area. -/
def AreaSpec.Addressed (b : Backend σ) (spec : AreaSpec) (s : System σ) : Prop :=
  ∀ f d, spec.backing = .mapped f d → (b.files.blockMap f s.world).Addressed

/-- **The page at `sector` belongs to the area**: it is inside of its device, or it is made of the
blocks of one page of its file. -/
def AreaSpec.Stores (b : Backend σ) (spec : AreaSpec) (s : System σ) (sector : UInt64) : Prop :=
  match spec.backing with
  | .device d => sector.toNat + 8 ≤ (s.devices.get d).sectors.toNat
  | .mapped f _ => let map := b.files.blockMap f s.world
    ∃ g, g + map.perPage ≤ map.length ∧ ∀ x, OnPage sector x ↔
      ∃ j < map.perPage, ∃ block ∈ map.device? (g + j), map.InBlock block x
  | .file _ => False

/-- The blocks of an area that reaches a device: one for each of its pages, and if its file can be
asked for, no two the same, and all of them its own. -/
structure Area.Owns (a : Area) (b : Backend σ) (spec : AreaSpec) (s : System σ)
    (blocks : List Nat) : Prop where
  lists : a.table.Lists blocks
  max : a.max.toNat = blocks.length
  fits : ∀ block ∈ blocks, block < UInt64.size
  apart : spec.Addressed b s → blocks.Nodup
  small : spec.Addressed b s → ∀ block ∈ blocks, block < 2 ^ 61
  stores : spec.Addressed b s → ∀ block ∈ blocks, ∀ sector : UInt64, sector.toNat = block * 8 →
    spec.Stores b s sector

/-- The pages of a whole device. -/
theorem owns_device (hup : activate b spec limit s = .ok (.ok a, s')) {d : DeviceId}
    (hback : spec.backing = .device d) : ∃ blocks, a.Owns b spec s blocks := by
  obtain ⟨blocks, hbrought⟩ := broughtUp_of_activate hup
  have hlays := hbrought.lays
  unfold groundOf at hlays
  rw [hback] at hlays
  obtain ⟨hlen, hrange⟩ := hlays
  have hshift : ((s.devices.get d).sectors >>> pageSectorBits.toUInt64).toNat =
      (s.devices.get d).sectors.toNat / 8 := by
    rw [UInt64.toNat_shiftRight]
    exact Nat.shiftRight_eq_div_pow _ 3
  have hsectors := (s.devices.get d).sectors.toNat_lt
  have hsize : UInt64.size = 2 ^ 64 := rfl
  have hlt : ∀ block ∈ blocks, block < blocks.length := by
    intro block hblock
    rw [hrange] at hblock
    exact List.mem_range.mp hblock
  refine ⟨blocks, hbrought.lists, hbrought.max, fun block hblock => ?_, fun _ => ?_,
    fun _ block hblock => ?_, fun _ block hblock sector hsector => ?_⟩
  · have := hlt block hblock
    omega
  · rw [hrange]
    exact List.nodup_range
  · have := hlt block hblock
    omega
  · have := hlt block hblock
    unfold AreaSpec.Stores
    rw [hback]
    show sector.toNat + 8 ≤ (s.devices.get d).sectors.toNat
    omega

/-- The pages of a mapped file. -/
theorem owns_mapped (hup : activate b spec limit s = .ok (.ok a, s')) {f : FileId} {d : DeviceId}
    (hback : spec.backing = .mapped f d) : ∃ blocks, a.Owns b spec s blocks := by
  obtain ⟨blocks, hbrought⟩ := broughtUp_of_activate hup
  obtain ⟨hbits, groups, hlists, hrising, hgood⟩ := groups_of_activate hup hback
  obtain rfl := hbrought.lists.unique hlists
  refine ⟨_, hlists, hbrought.max, fun block hblock => ?_, fun hf => ?_, fun hf block hblock => ?_,
    fun hf block hblock sector hsector => ?_⟩
  · obtain ⟨g, hg, rfl⟩ := List.mem_map.mp hblock
    obtain ⟨-, first, hfirst, -⟩ := hgood g hg
    obtain ⟨word, -, rfl⟩ := Option.map_eq_some_iff.mp hfirst
    rw [BlockMap.pageBlock, hfirst]
    exact Nat.lt_of_le_of_lt (Nat.div_le_self _ _) word.toNat_lt
  · refine List.Nodup.map_on (fun g hg g' hg' heq => ?_) (hrising.imp Nat.ne_of_lt)
    exact (hgood g hg).pageBlock_inj (hgood g' hg') hbits (hf f d hback) heq
  · obtain ⟨g, hg, rfl⟩ := List.mem_map.mp hblock
    exact (hgood g hg).pageBlock_lt hbits (hf f d hback)
  · obtain ⟨g, hg, rfl⟩ := List.mem_map.mp hblock
    unfold AreaSpec.Stores
    rw [hback]
    exact ⟨g, (hgood g hg).1, (hgood g hg).onPage_iff hbits hsector⟩

theorem owns_of_activate (hup : activate b spec limit s = .ok (.ok a, s'))
    (hdevice : spec.backing.device?.isSome) : ∃ blocks, a.Owns b spec s blocks := by
  cases hback : spec.backing with
  | device d => exact owns_device hup hback
  | mapped f d => exact owns_mapped hup hback
  | file f =>
    rw [hback] at hdevice
    exact absurd hdevice nofun

/-- The sector of a slot is that of its block. -/
theorem Area.Owns.sector {blocks : List Nat} (h : a.Owns b spec s blocks) {sl : Slot}
    (harea : sl.area = a.number) (hin : sl.offset < a.max) :
    ∃ block sector, blocks[sl.offset.toNat]? = some block ∧ a.sector (some sl) = .ok sector ∧
      8 ∣ sector.toNat ∧ (spec.Addressed b s → sector.toNat = block * 8) := by
  have hlt : sl.offset.toNat < blocks.length := h.max ▸ UInt64.lt_iff_toNat_lt.mp hin
  have hblock := List.getElem?_eq_getElem hlt
  have hmem := List.getElem_mem hlt
  have hword := UInt64.toNat_ofNat_of_lt' (h.fits _ hmem)
  have hsector : a.sector (some sl) =
      .ok (UInt64.ofNat blocks[sl.offset.toNat] <<< pageSectorBits.toUInt64) :=
    (Area.sector_eq_ok_iff h.lists.ordered).mpr
      ⟨sl, _, rfl, harea, (h.lists.maps _ _).mpr (by rw [hword]; exact hblock), rfl⟩
  refine ⟨_, _, hblock, hsector, Area.eight_dvd_of_sector hsector, fun hf => ?_⟩
  rw [sector_eq (by rw [hword]; exact h.small hf _ hmem), hword]

/-- **Two slots of an area never share storage.**  Each has a sector, which is a multiple of eight;
the eight sectors from there on are not those of the other slot, and they are all inside of the
device, or exactly the blocks of one page of the file. -/
theorem slots_never_share_storage (hup : activate b spec limit s = .ok (.ok a, s'))
    (hdevice : spec.backing.device?.isSome) {sl sl' : Slot} (harea : sl.area = a.number)
    (harea' : sl'.area = a.number) (hin : sl.offset < a.max) (hin' : sl'.offset < a.max)
    (hne : sl.offset ≠ sl'.offset) :
    ∃ sector sector', a.sector (some sl) = .ok sector ∧ a.sector (some sl') = .ok sector' ∧
      8 ∣ sector.toNat ∧ 8 ∣ sector'.toNat ∧
      (spec.Addressed b s →
        (sector.toNat + 8 ≤ sector'.toNat ∨ sector'.toNat + 8 ≤ sector.toNat) ∧
        spec.Stores b s sector ∧ spec.Stores b s sector') := by
  obtain ⟨blocks, howns⟩ := owns_of_activate hup hdevice
  obtain ⟨block, sector, hblock, hsector, height, hat⟩ := howns.sector harea hin
  obtain ⟨block', sector', hblock', hsector', height', hat'⟩ := howns.sector harea' hin'
  refine ⟨sector, sector', hsector, hsector', height, height', fun hf => ⟨?_, ?_, ?_⟩⟩
  · have hapart : block ≠ block' := by
      rintro rfl
      obtain ⟨hlt, -⟩ := List.getElem?_eq_some_iff.mp hblock
      exact hne (UInt64.toNat_inj.mp
        ((List.getElem?_inj hlt (howns.apart hf)).mp (hblock.trans hblock'.symm)))
    have hsame := hat hf
    have hsame' := hat' hf
    omega
  · exact howns.stores hf _ (List.mem_of_getElem? hblock) _ (hat hf)
  · exact howns.stores hf _ (List.mem_of_getElem? hblock') _ (hat' hf)

end

/-- No two of the eight blocks are the same. -/
theorem ramSpec_addressed : (ramSpec (.mapped 0 0)).Addressed (ramDisk true) ramStart := by
  intro f d _
  have hblocks : ∀ i < 8, ((ramDisk true).files.blockMap 0 ramStart.world).device? i =
      some (23 - i) := by
    decide
  have hlength : ((ramDisk true).files.blockMap 0 ramStart.world).length = 8 := by decide
  refine ⟨fun {i j block} hi hj hblock hblock' => ?_, fun {i block} hi hblock => ?_⟩
  · have hi8 : i < 8 := Nat.lt_of_lt_of_eq hi hlength
    have hj8 : j < 8 := Nat.lt_of_lt_of_eq hj hlength
    have hsame : some (23 - i) = some (23 - j) :=
      (hblocks i hi8).symm.trans ((hblock.trans hblock'.symm).trans (hblocks j hj8))
    injection hsame with hsame
    omega
  · have hsame : some (23 - i) = some block :=
      (hblocks i (Nat.lt_of_lt_of_eq hi hlength)).symm.trans hblock
    injection hsame with hsame
    show (block + 1) * 2 ^ 12 ≤ 2 ^ 64
    omega

/-- The first two slots of an area on it. -/
theorem two_slots_of_a_mapped_file :
    (ramSpec (.mapped 0 0)).Addressed (ramDisk true) ramStart ∧ ∃ a s',
      activate (ramDisk true) (ramSpec (.mapped 0 0)) 5 ramStart = .ok (.ok a, s') ∧
      ∃ sector sector', a.sector (some ⟨0⟩) = .ok sector ∧ a.sector (some ⟨1⟩) = .ok sector' ∧
        (sector.toNat + 8 ≤ sector'.toNat ∨ sector'.toNat + 8 ≤ sector.toNat) ∧
        (ramSpec (.mapped 0 0)).Stores (ramDisk true) ramStart sector := by
  obtain ⟨hplanned, hroomy⟩ := Area.Ground.plan_planned ramSpec_modest.ground 5
  obtain ⟨table, dims, hplan, hpages⟩ := hroomy.mpr ((roomy_iff 5).mp ramSpec_roomy)
  obtain ⟨blocks, hblocks⟩ := hplanned table dims hplan hpages
  have hbuild : Area.build (ramSpec (.mapped 0 0)) false (table, dims) = .ok _ :=
    Area.build_eq_ok_iff.mpr ⟨hpages, rfl⟩
  obtain ⟨s', hup⟩ := activate_ok_iff.mpr ⟨_, hplan, hbuild⟩
  -- there are at least two pages
  have hmax : 2 ≤ dims.max.toNat := (Area.usable_iff hblocks.pages).mp hpages
  obtain ⟨sector, sector', hsector, hsector', -, -, hstored⟩ :=
    slots_never_share_storage hup rfl (show (⟨0⟩ : Slot).area = 0 from rfl)
      (show (⟨1⟩ : Slot).area = 0 from rfl)
      (UInt64.lt_iff_toNat_lt.mpr (Nat.lt_of_lt_of_le (by decide) hmax))
      (UInt64.lt_iff_toNat_lt.mpr (Nat.lt_of_lt_of_le (by decide) hmax)) (by decide)
  obtain ⟨hapart, hmine, -⟩ := hstored ramSpec_addressed
  exact ⟨ramSpec_addressed, _, s', hup, sector, sector', hsector, hsector', hapart, hmine⟩

end PageSwap
