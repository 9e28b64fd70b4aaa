/-
# Areas that are brought up are well formed

The same record describes a whole device, a file laid out on a device and a file reached through its
file system, and each is filled in its own way: the first and the last map page `n` to block `n`,
the second is what a scan found.  The header page counts in some fields and not in others, the
number of pages is cut off at a limit, and an area with nothing but its header is not brought up at
all.  This file says what all the fields agree on, and exactly when there is an area.

* `ExtentTable.Lists.nrPages_eq` -- the pages of a table, added up.
* `Layout.scan_cases` -- a scan is given up exactly if it looks at a hole.
* `Area.Planned` -- a plan with a page to use.
* `activated_areas_are_well_formed` -- what an area is, and when there is one.
-/
import Mathlib.Algebra.Ring.Nat
import PageSwap.Proofs.Discovery
import PageSwap.Proofs.Disks

namespace PageSwap

/-! ## 1. The pages of a table -/

namespace ExtentTable

theorem length_run (e : Extent) : e.run.length = e.nrPages.toNat := List.length_range'

theorem length_flatten_run (l : List Extent) :
    (l.map Extent.run).flatten.length = (l.map (·.nrPages.toNat)).sum := by
  rw [List.length_flatten, List.map_map]
  exact congrArg List.sum (List.map_congr_left fun e _ => length_run e)

theorem foldlM_addWord_eq_ok_iff {l : List Extent} {acc total : UInt64} :
    l.foldlM (fun sum e => addWord sum e.nrPages) acc = .ok total ↔
      acc.toNat + (l.map (·.nrPages.toNat)).sum < UInt64.size ∧
        total.toNat = acc.toNat + (l.map (·.nrPages.toNat)).sum := by
  induction l generalizing acc with
  | nil =>
    refine ⟨fun h => ?_, fun ⟨_, h⟩ => congrArg Except.ok (UInt64.toNat_inj.mp h.symm)⟩
    obtain rfl := Except.ok.inj h
    exact ⟨acc.toNat_lt, rfl⟩
  | cons e l ih =>
    rw [List.foldlM_cons, List.map_cons, List.sum_cons, ← Nat.add_assoc]
    rcases addWord_cases acc e.nrPages with ⟨c, hc, hn⟩ | hc
    · rw [hc, ← hn]
      exact ih
    · rw [hc]
      refine ⟨nofun, fun ⟨hfits, _⟩ => ?_⟩
      exact absurd (hc.symm.trans (addWord_ok (by omega))) nofun

/-- The pages of a table are added up without a fault exactly if a word can hold their number. -/
theorem nrPages_eq_ok_iff {t : ExtentTable} {total : UInt64} : t.nrPages = .ok total ↔
    (t.extents.map (·.nrPages.toNat)).sum < UInt64.size ∧
      total.toNat = (t.extents.map (·.nrPages.toNat)).sum := by
  have h := @foldlM_addWord_eq_ok_iff t.extents 0 total
  rwa [UInt64.toNat_zero, Nat.zero_add] at h

/-- **A table holds as many pages as it lists blocks.** -/
theorem Lists.nrPages_eq {t : ExtentTable} {blocks : List Nat} (h : t.Lists blocks) {n : UInt64}
    (hn : n.toNat = blocks.length) : t.nrPages = .ok n := by
  have hflat : (t.extents.map Extent.run).flatten = blocks := by
    rw [← h.runs, List.flatten_splitBy]
  have hsum : (t.extents.map (·.nrPages.toNat)).sum = n.toNat := by
    rw [← length_flatten_run, hflat, hn]
  exact nrPages_eq_ok_iff.mpr ⟨hsum.symm ▸ n.toNat_lt, hsum.symm⟩

/-- A table that lists blocks has an answer for their pages, and no other ones. -/
theorem Lists.map?_cases {t : ExtentTable} {blocks : List Nat} (h : t.Lists blocks)
    {n : UInt64} (hn : n.toNat = blocks.length) (hfits : ∀ b ∈ blocks, b < UInt64.size) :
    (∀ o < n, ∃ b, t.map? o = .ok (some b)) ∧ ∀ o, n ≤ o → t.map? o = .ok none := by
  refine ⟨fun o ho => ?_, fun o ho => ?_⟩
  · have hlt := UInt64.lt_iff_toNat_lt.mp ho
    exact ⟨_, by rw [h.map?_eq hfits, List.getElem?_eq_getElem (by omega)]; rfl⟩
  · have hle := UInt64.le_iff_toNat_le.mp ho
    rw [h.map?_eq hfits, List.getElem?_eq_none (by omega)]
    rfl

end ExtentTable

/-! ## 2. Holes that a scan looks at -/

namespace BlockMap

variable {f : BlockMap}

/-- A scan for `limit` pages looks at the page that starts at file block `g`: it is inside the
file, there are not yet enough pages before it, and none of them reaches it. -/
structure Probed (f : BlockMap) (limit g : Nat) : Prop where
  inside : g + f.perPage ≤ f.length
  wanted : (f.goodBelow g).length < limit
  clear : ∀ g' < g, f.Good g' → g' + f.perPage ≤ g

end BlockMap

namespace Layout

variable {f : BlockMap}

open BlockMap

/-- A scan is given up at a hole it looks at, and it does not look at one it goes past. -/
theorem scanFrom_holes (hm : f.Modest) {limit probe : UInt64} {s : Found}
    (h : Passed f limit probe s) :
    match scanFrom f.block? (blocksPerPage f.blockBits) (pageBits - f.blockBits).toUInt64 limit
        (f.size >>> f.blockBits.toUInt64) probe s with
    | .ok _ => ∀ g, f.Probed limit.toNat g → ¬ f.Holed g
    | .error e => e = .refused .hole ∧ ∃ g, f.Probed limit.toNat g ∧ f.Holed g := by
  have hended := scanFrom_ended hm.sized h
  generalize scanFrom f.block? (blocksPerPage f.blockBits) (pageBits - f.blockBits).toUInt64 limit
    (f.size >>> f.blockBits.toUInt64) probe s = answer at hended
  cases hended with
  | @complete probe s h hstop =>
    intro g hprobed
    by_cases hpassed : g < probe.toNat
    · exact h.whole g hpassed
    · -- where the scan has ended, no later page is looked at
      have hin := hprobed.inside
      have hbefore : List.range probe.toNat <+: List.range g := by
        rw [List.prefix_iff_eq_take, List.length_range, List.take_range,
          Nat.min_eq_left (Nat.le_of_not_lt hpassed)]
      have hmany := (hbefore.filter (f.Good ·)).length_le
      have hfew := hprobed.wanted
      refine absurd ⟨by omega, ?_⟩ hstop
      rw [UInt64.lt_iff_toNat_lt, h.count]
      exact Nat.lt_of_le_of_lt hmany hfew
  | @hole probe s h hin hroom hholed =>
    refine ⟨rfl, probe.toNat, ⟨hin, ?_, h.clear⟩, hholed⟩
    rw [← h.count]
    exact UInt64.lt_iff_toNat_lt.mp hroom
  | overflow h hin hroom hgood htop =>
    have hlow := hm.low _ (List.mem_of_mem_getLast? (Option.mem_def.mpr htop))
    exact absurd hlow (Nat.lt_irrefl _)

/-- **What a scan of a modest file answers.**  It is given up exactly if it looks at a hole, and
otherwise it has all the pages it was asked for. -/
theorem scan_cases (hm : f.Modest) (limit : UInt64) :
    (scan f limit = .error (.refused .hole) ∧ ∃ g, f.Probed limit.toNat g ∧ f.Holed g) ∨
      (∀ g, f.Probed limit.toNat g → ¬ f.Holed g) ∧
      ∃ table dims, scan f limit = .ok (table, dims) ∧ table.Lists (f.pageBlocks limit.toNat) ∧
        dims.nrExtents = table.length ∧ dims.pages = dims.max - 1 ∧
        dims.max.toNat = max (f.pageBlocks limit.toNat).length 1 := by
  have hholes := scanFrom_holes hm (passed_start f limit)
  rcases hfound : scanFrom f.block? (blocksPerPage f.blockBits) (pageBits - f.blockBits).toUInt64
      limit (f.size >>> f.blockBits.toUInt64) 0 {} with e | found
  · rw [hfound] at hholes
    exact Or.inl ⟨hholes.1 ▸ scan_of_error hm.bits hfound, hholes.2⟩
  · rw [hfound] at hholes
    obtain ⟨probe, span, hs, hgroups, -, hok⟩ := scan_of_found hm hfound
    refine Or.inr ⟨hholes, _, _, hok, ?_, hs.extents, rfl, ?_⟩
    · have hlists := hs.lists
      rwa [hgroups] at hlists
    · rw [toNat_max, hs.count, hgroups, BlockMap.pageBlocks, List.length_map]
      rfl

end Layout

/-! ## 3. Plans with a page to use -/

namespace Area

/-- A plan for an area of at most `limit` pages on `blocks`: its numbers agree. -/
structure Planned (limit : UInt64) (blocks : List Nat) (table : ExtentTable) (dims : Dimensions) :
    Prop where
  lists : table.Lists blocks
  fits : ∀ block ∈ blocks, block < UInt64.size
  extents : dims.nrExtents = table.length
  max : dims.max.toNat = blocks.length
  pages : dims.pages.toNat + 1 = dims.max.toNat
  within : dims.max ≤ limit

/-- There are at least two pages on this ground: one for the header, and one to use. -/
def Ground.Roomy (g : Ground) (limit : Nat) : Prop :=
  match g with
  | .pages available => 2 ≤ min available.toNat limit
  | .blocks map => map.blockBits ≤ pageBits ∧
      (∀ g, map.Probed limit g → ¬ map.Holed g) ∧ 2 ≤ min limit map.goodGroups.length

/-- The numbers of a file that is laid out are below `2 ^ 63`. -/
def Ground.Modest (g : Ground) : Prop :=
  ∀ map, g = .blocks map → map.size.toNat < 2 ^ 63 ∧
    ∀ i block, map.block? i = some block → block.toNat < 2 ^ 63

/-- The pages behind the header. -/
theorem behind_header {n : UInt64} (h : n ≠ 0) : (n - 1).toNat + 1 = n.toNat := by
  have hone : (1 : UInt64).toNat = 1 := rfl
  have hpos : n.toNat ≠ 0 := fun h0 => h (UInt64.toNat_inj.mp h0)
  rw [UInt64.toNat_sub_of_le _ _ (by rw [UInt64.le_iff_toNat_le]; omega), hone]
  omega

/-- There is a page to use exactly if there are two. -/
theorem usable_iff {dims : Dimensions} (h : dims.pages.toNat + 1 = dims.max.toNat) :
    dims.pages ≠ 0 ↔ 2 ≤ dims.max.toNat := by
  have hzero : dims.pages = 0 ↔ dims.pages.toNat = 0 := UInt64.toNat_inj.symm
  rw [ne_eq, hzero]
  omega

/-- One extent from page 0 and block 0 on is a table of its own. -/
theorem add_to_empty {max : UInt64} (hmax : max ≠ 0) :
    ExtentTable.add {} ⟨0, max, 0⟩ = .ok (1, ⟨[⟨0, max, 0⟩]⟩) := by
  unfold ExtentTable.add
  rw [if_neg hmax]
  rfl

/-- The plan of an area whose pages lie one after the other. -/
theorem linear_planned {max limit : UInt64} (hmax : max ≠ 0) (hle : max ≤ limit) :
    ∃ table dims, linear max = .ok (table, dims) ∧ dims.max = max ∧
      Planned limit (List.range max.toNat) table dims := by
  have hlists : (⟨[⟨0, max, 0⟩]⟩ : ExtentTable).Lists (List.range max.toNat) := by
    rcases ExtentTable.lists_range hmax with ⟨k, t, hadd, hlists⟩ | hadd
    · rw [add_to_empty hmax] at hadd
      injection hadd with hadd
      injection hadd with _ ht
      exact ht ▸ hlists
    · rw [add_to_empty hmax] at hadd
      exact absurd hadd nofun
  refine ⟨⟨[⟨0, max, 0⟩]⟩, { nrExtents := 1, max, pages := max - 1, span := max - 1 }, ?_, rfl,
    hlists, fun block hblock => ?_, rfl, List.length_range.symm, behind_header hmax, hle⟩
  · unfold linear
    simp only [hmax, if_false, add_to_empty hmax, bind, Except.bind, pure, Except.pure]
  · exact Nat.lt_trans (List.mem_range.mp hblock) max.toNat_lt

/-- What a plan with a page to use is, and when there is one. -/
def Ground.Plans (g : Ground) (limit : UInt64) : Prop :=
  (∀ table dims, g.plan limit = .ok (table, dims) → dims.pages ≠ 0 →
    ∃ blocks, Planned limit blocks table dims) ∧
  ((∃ table dims, g.plan limit = .ok (table, dims) ∧ dims.pages ≠ 0) ↔ g.Roomy limit.toNat)

/-- A plan that is made decides which one it is. -/
theorem Ground.plans_of_ok {g : Ground} {limit : UInt64} {table : ExtentTable} {dims : Dimensions}
    (hplan : g.plan limit = .ok (table, dims))
    (hroomy : dims.pages ≠ 0 ↔ g.Roomy limit.toNat)
    (hplanned : dims.pages ≠ 0 → ∃ blocks, Planned limit blocks table dims) : g.Plans limit := by
  unfold Ground.Plans
  rw [hplan]
  refine ⟨fun table' dims' h hne => ?_, ?_, fun h => ⟨table, dims, rfl, hroomy.mpr h⟩⟩
  · injection h with h
    injection h with ht hd
    exact ht ▸ hd ▸ hplanned (hd ▸ hne)
  · rintro ⟨table', dims', h, hne⟩
    injection h with h
    injection h with _ hd
    exact hroomy.mp (hd ▸ hne)

theorem Ground.plans_of_error {g : Ground} {limit : UInt64} {e : Stop}
    (hplan : g.plan limit = .error e) (hroomy : ¬ g.Roomy limit.toNat) : g.Plans limit := by
  unfold Ground.Plans
  rw [hplan]
  exact ⟨nofun, nofun, fun h => absurd h hroomy⟩

/-- Ground that is so many pages one after the other. -/
theorem Ground.pages_plans (available limit : UInt64) : (Ground.pages available).Plans limit := by
  have hmin := Layout.toNat_min available limit
  have hroom : (Ground.pages available).Roomy limit.toNat ↔ 2 ≤ (min available limit).toNat := by
    rw [hmin]
    exact Iff.rfl
  have hplan : (Ground.pages available).plan limit = linear (min available limit) := rfl
  by_cases hmax : min available limit = 0
  · rw [hmax] at hroom hplan
    exact Ground.plans_of_ok hplan ⟨fun h => absurd rfl h, fun h => absurd (hroom.mp h) (by decide)⟩
      fun h => absurd rfl h
  · have hle : min available limit ≤ limit := by
      rw [UInt64.le_iff_toNat_le, hmin]
      exact Nat.min_le_right _ _
    obtain ⟨table, dims, hlinear, hdims, hplanned⟩ := linear_planned hmax hle
    refine Ground.plans_of_ok (hplan.trans hlinear) ?_ fun _ => ⟨_, hplanned⟩
    rw [hroom, usable_iff hplanned.pages, hdims]

/-- Ground that is a file laid out on a device. -/
theorem Ground.blocks_plans {map : BlockMap} (hsize : map.size.toNat < 2 ^ 63)
    (hdevice : ∀ i block, map.block? i = some block → block.toNat < 2 ^ 63) (limit : UInt64) :
    (Ground.blocks map).Plans limit := by
  have hplan : (Ground.blocks map).plan limit = Layout.scan map limit := rfl
  by_cases hbits : map.blockBits ≤ pageBits
  · have hm : map.Modest := ⟨hbits, hsize, hdevice⟩
    rcases Layout.scan_cases hm limit with ⟨herror, g, hprobed, hholed⟩ |
      ⟨hno, table, dims, hok, hlists, hextents, hpages, hmax⟩
    · exact Ground.plans_of_error (hplan.trans herror) fun h => h.2.1 g hprobed hholed
    · have hlength : (map.pageBlocks limit.toNat).length =
          min limit.toNat map.goodGroups.length := by
        rw [BlockMap.pageBlocks, List.length_map, List.length_take]
      have hone : 1 ≤ dims.max.toNat := hmax ▸ Nat.le_max_right _ _
      have hheader : dims.pages.toNat + 1 = dims.max.toNat :=
        hpages ▸ behind_header fun h0 => absurd (h0 ▸ hone) (by decide)
      have hmany : dims.pages ≠ 0 ↔ 2 ≤ (map.pageBlocks limit.toNat).length := by
        rw [usable_iff hheader]
        omega
      refine Ground.plans_of_ok (hplan.trans hok) ?_ fun h => ⟨map.pageBlocks limit.toNat, hlists,
        fun block hblock => ?_, hextents, ?_, hheader, ?_⟩
      · rw [hmany, hlength]
        exact ⟨fun h => ⟨hbits, hno, h⟩, fun h => h.2.2⟩
      · obtain ⟨g, -, rfl⟩ := List.mem_map.mp hblock
        exact Nat.lt_trans (hm.pageBlock_lt g) (by decide)
      · have := hmany.mp h
        omega
      · have := hmany.mp h
        rw [UInt64.le_iff_toNat_le]
        omega
  · refine Ground.plans_of_error (e := .fault .blockSize) (hplan.trans ?_) fun h => hbits h.1
    unfold Layout.scan
    rw [if_pos (UInt32.not_le.mp hbits)]
    rfl

/-- **A plan with a page to use** is one whose numbers agree, and there is one exactly on ground
with room for it. -/
theorem Ground.plan_planned {g : Ground} (hm : g.Modest) (limit : UInt64) : g.Plans limit := by
  cases g with
  | pages available => exact Ground.pages_plans available limit
  | blocks map =>
    obtain ⟨hsize, hdevice⟩ := hm map rfl
    exact Ground.blocks_plans hsize hdevice limit

end Area

/-! ## 4. What bringing an area up answers -/

section

variable {σ : Type} {b : Backend σ} {spec : AreaSpec} {limit : UInt64} {s : System σ}

/-- There is an area exactly if there is a plan that has a page to use. -/
theorem activate_ok_iff {a : Area} :
    (∃ s', activate b spec limit s = .ok (.ok a, s')) ↔
      ∃ plan, (groundOf b spec s).plan limit = .ok plan ∧
        Area.build spec (synchronousOf b spec s) plan = .ok a := by
  have hspec := activate_spec b spec limit s
  rcases hplan : (groundOf b spec s).plan limit with (why | f) | plan
  all_goals rw [hplan] at hspec
  · obtain ⟨console, hspec⟩ := hspec
    rw [hspec]
    exact ⟨fun ⟨s', h⟩ => by injection h with h; injection h with h _; exact absurd h nofun, nofun⟩
  · rw [hspec]
    exact ⟨nofun, nofun⟩
  · obtain ⟨console, hspec⟩ := hspec
    rw [hspec]
    constructor
    · rintro ⟨s', h⟩
      injection h with h
      injection h with h _
      exact ⟨plan, rfl, h⟩
    · rintro ⟨plan', h, hbuild⟩
      injection h with h
      subst h
      exact ⟨_, by rw [hbuild]⟩

end

/-! ## 5. Areas -/

/-- A file system is gone through exactly where there is no device. -/
theorem Backing.filePath?_isSome_iff (backing : Backing) :
    backing.filePath?.isSome = true ↔ backing.device? = none := by
  cases backing with
  | device d => exact ⟨nofun, nofun⟩
  | mapped f d => exact ⟨nofun, nofun⟩
  | file f => exact ⟨fun _ => rfl, fun _ => rfl⟩

namespace Area

/-- **What all fields of an area agree on**, if it was brought up for at most `limit` pages: its
table maps the pages below `max` and no others, and a sector can be told for the slots of these. -/
structure WellFormed (a : Area) (limit : UInt64) : Prop where
  within : a.max ≤ limit
  usable : 1 ≤ a.pages
  header : a.pages.toNat + 1 = a.max.toNat
  mapped : ∀ o < a.max, ∃ block, a.table.map? o = .ok (some block)
  unmapped : ∀ o, a.max ≤ o → a.table.map? o = .ok none
  nrPages : a.table.nrPages = .ok a.max
  nrExtents : a.nrExtents = a.table.length
  sectors : ∀ slot, (∃ sector, a.sector slot = .ok sector) ↔
    ∃ sl, slot = some sl ∧ sl.area = a.number ∧ sl.offset < a.max
  throughFile : a.throughFile = true ↔ a.backing.device? = none
  filePath : a.backing.filePath?.isSome = true ↔ a.backing.device? = none

theorem throughFile_iff (a : Area) : a.throughFile = true ↔ a.backing.device? = none := by
  unfold throughFile
  cases a.backing with
  | device d => exact ⟨nofun, nofun⟩
  | mapped f d => exact ⟨nofun, nofun⟩
  | file f => exact ⟨fun _ => rfl, fun _ => rfl⟩

/-- An area is built exactly from a plan with a page to use. -/
theorem build_eq_ok_iff {spec : AreaSpec} {synchronous : Bool} {table : ExtentTable}
    {dims : Dimensions} {a : Area} : build spec synchronous (table, dims) = .ok a ↔
      dims.pages ≠ 0 ∧ a =
        { number := spec.number, backing := spec.backing, slotMap := spec.slotMap, synchronous,
          table, nrExtents := dims.nrExtents, max := dims.max, pages := dims.pages,
          span := dims.span } := by
  unfold build
  by_cases hpages : dims.pages = 0
  · rw [if_pos hpages]
    exact ⟨nofun, fun h => absurd hpages h.1⟩
  · rw [if_neg hpages]
    constructor
    · intro h
      injection h with h
      exact ⟨hpages, h.symm⟩
    · rintro ⟨-, rfl⟩
      rfl

/-- **An area built from a plan whose numbers agree is well formed.** -/
theorem Planned.wellFormed {limit : UInt64} {blocks : List Nat} {table : ExtentTable}
    {dims : Dimensions} (h : Planned limit blocks table dims) {spec : AreaSpec} {synchronous : Bool}
    {a : Area} (hbuild : build spec synchronous (table, dims) = .ok a) : a.WellFormed limit := by
  obtain ⟨hpages, rfl⟩ := build_eq_ok_iff.mp hbuild
  obtain ⟨hmapped, hunmapped⟩ := h.lists.map?_cases h.max h.fits
  refine
    { within := h.within, usable := ?_, header := h.pages, mapped := hmapped, unmapped := hunmapped
      nrPages := h.lists.nrPages_eq h.max, nrExtents := h.extents, sectors := fun slot => ?_
      throughFile := throughFile_iff _, filePath := Backing.filePath?_isSome_iff _ }
  · have hne : dims.pages.toNat ≠ 0 := fun h0 => hpages (UInt64.toNat_inj.mp h0)
    rw [UInt64.le_iff_toNat_le]
    exact Nat.pos_of_ne_zero hne
  · constructor
    · rintro ⟨sector, hsector⟩
      obtain ⟨sl, block, hslot, harea, hmaps, -⟩ := (sector_eq_ok_iff h.lists.ordered).mp hsector
      obtain ⟨hlt, -⟩ := List.getElem?_eq_some_iff.mp ((h.lists.maps _ _).mp hmaps)
      exact ⟨sl, hslot, harea, UInt64.lt_iff_toNat_lt.mpr (by rw [h.max]; exact hlt)⟩
    · rintro ⟨sl, hslot, harea, hlt⟩
      obtain ⟨block, hblock⟩ := hmapped sl.offset hlt
      exact ⟨_, (sector_eq_ok_iff h.lists.ordered).mpr ⟨sl, block, hslot, harea,
        h.lists.ordered.map?_eq_some_iff.mp hblock, rfl⟩⟩

end Area

section

variable {σ : Type}

/-- The numbers of the file of a mapped area are below `2 ^ 63`. -/
def AreaSpec.Modest (b : Backend σ) (spec : AreaSpec) (s : System σ) : Prop :=
  ∀ f d, spec.backing = .mapped f d → (b.files.blockMap f s.world).size.toNat < 2 ^ 63 ∧
    ∀ i block, (b.files.blockMap f s.world).block? i = some block → block.toNat < 2 ^ 63

/-- **At least two pages can be used** for an area of at most `limit` pages.  A device has eight
sectors to a page; the pages of a mapped file are the good groups of its blocks, if no hole is
looked at on the way. -/
def AreaSpec.Roomy (b : Backend σ) (spec : AreaSpec) (limit : UInt64) (s : System σ) : Prop :=
  match spec.backing with
  | .device d => 2 ≤ min ((s.devices.get d).sectors.toNat >>> 3) limit.toNat
  | .file f => 2 ≤ min ((b.files.blockMap f s.world).size.toNat >>> 12) limit.toNat
  | .mapped f _ => let map := b.files.blockMap f s.world
    map.blockBits ≤ pageBits ∧ (∀ g, map.Probed limit.toNat g → ¬ map.Holed g) ∧
      2 ≤ min limit.toNat map.goodGroups.length

variable {b : Backend σ} {spec : AreaSpec} {s : System σ}

theorem AreaSpec.Modest.ground (h : spec.Modest b s) : (groundOf b spec s).Modest := by
  intro map hmap
  unfold groundOf at hmap
  cases hback : spec.backing with
  | device d => rw [hback] at hmap; exact absurd hmap nofun
  | file f => rw [hback] at hmap; exact absurd hmap nofun
  | mapped f d =>
    rw [hback] at hmap
    injection hmap with hmap
    exact hmap ▸ h f d hback

theorem roomy_iff (limit : UInt64) :
    spec.Roomy b limit s ↔ (groundOf b spec s).Roomy limit.toNat := by
  unfold AreaSpec.Roomy groundOf
  cases spec.backing with
  | device d => exact Iff.rfl
  | file f => exact Iff.rfl
  | mapped f d => exact Iff.rfl

/-- **Every area that is brought up is well formed, and there is one exactly if at least two pages
can be used**: one for the header, and one to swap to. -/
theorem activated_areas_are_well_formed (hm : spec.Modest b s) (limit : UInt64) :
    (∀ a s', activate b spec limit s = .ok (.ok a, s') → a.WellFormed limit ∧
      a.number = spec.number ∧ a.backing = spec.backing) ∧
    ((∃ a s', activate b spec limit s = .ok (.ok a, s')) ↔ spec.Roomy b limit s) := by
  obtain ⟨hplanned, hroomy⟩ := Area.Ground.plan_planned hm.ground limit
  refine ⟨fun a s' h => ?_, ?_⟩
  · obtain ⟨⟨table, dims⟩, hplan, hbuild⟩ := activate_ok_iff.mp ⟨s', h⟩
    obtain ⟨hpages, rfl⟩ := Area.build_eq_ok_iff.mp hbuild
    obtain ⟨blocks, hblocks⟩ := hplanned table dims hplan hpages
    exact ⟨hblocks.wellFormed hbuild, rfl, rfl⟩
  · rw [roomy_iff, ← hroomy]
    constructor
    · rintro ⟨a, h⟩
      obtain ⟨⟨table, dims⟩, hplan, hbuild⟩ := activate_ok_iff.mp h
      exact ⟨table, dims, hplan, (Area.build_eq_ok_iff.mp hbuild).1⟩
    · rintro ⟨table, dims, hplan, hpages⟩
      exact ⟨_, activate_ok_iff.mpr ⟨_, hplan, Area.build_eq_ok_iff.mpr ⟨hpages, rfl⟩⟩⟩

end

/-- A file of eight blocks of a page each, which lie on the device in reverse order. -/
theorem ramSpec_modest : (ramSpec (.mapped 0 0)).Modest (ramDisk true) ramStart := by
  intro f d _
  have hsize : ramStart.world.file.size.toUInt64.toNat < 2 ^ 63 := by decide
  refine ⟨hsize, fun i block hblock => ?_⟩
  have hif : (if i < 8 then some (23 - i) else none) = some block := hblock
  by_cases hi : i < 8
  · rw [if_pos hi] at hif
    injection hif with hif
    have hlt := UInt64.lt_iff_toNat_lt.mp hi
    have h8 : (8 : UInt64).toNat = 8 := rfl
    have h23 : (23 : UInt64).toNat = 23 := rfl
    rw [← hif, UInt64.toNat_sub_of_le _ _ (by rw [UInt64.le_iff_toNat_le]; omega)]
    omega
  · rw [if_neg hi] at hif
    exact absurd hif nofun

/-- Five pages of it can be asked for. -/
theorem ramSpec_roomy : (ramSpec (.mapped 0 0)).Roomy (ramDisk true) 5 ramStart := by
  refine ⟨by decide, fun g hprobed => ?_, by decide⟩
  -- all blocks of the file are there
  have hin : g + 1 ≤ 8 := hprobed.inside
  have hfull : ∀ i < 8, ((ramDisk true).files.blockMap 0 ramStart.world).device? i ≠ none := by
    decide
  rintro ⟨j, hj, hnone, -⟩
  have hj' : j < 1 := hj
  exact hfull (g + j) (by omega) hnone

theorem five_pages_of_a_mapped_file :
    (ramSpec (.mapped 0 0)).Modest (ramDisk true) ramStart ∧ ∃ a s',
      activate (ramDisk true) (ramSpec (.mapped 0 0)) 5 ramStart = .ok (.ok a, s') ∧
      a.WellFormed 5 := by
  obtain ⟨hwell, hwhen⟩ := activated_areas_are_well_formed ramSpec_modest 5
  obtain ⟨a, s', hup⟩ := hwhen.mpr ramSpec_roomy
  exact ⟨ramSpec_modest, a, s', hup, (hwell a s' hup).1⟩

end PageSwap
