/-
# Holes that keep a file from being swapped to

A scan that looks at a hole is given up, and no area comes of the file.  It moves over the file in
steps of a block or of a page, so it does not start a page at every block; still it passes over no
block at which a page has room to start, because a page it takes has no hole and a page that comes
to a hole starts at none of its blocks.  What it can pass over are the last blocks of the file,
fewer than a page: they are looked at only where a page before them reaches into them.

What has to be kept is not that the BLOCKS below the probe are there.  A page of which a later block
is out of place is passed over by one block and may have a hole behind that place; the scan has not
seen it, and it may be the last page of the file.  It is that no PAGE below the probe comes to a
hole before anything else is wrong with it (`BlockMap.WholeBelow`), which is what a probe tells of
the page that starts there.  The rest of `Layout.Unbroken` is there for the limit: nobody sets one
here, but the loop compares with a word all the same, and it does not reach it since it takes no
more pages than it passes blocks.  No bound on the file or its blocks is assumed, so a sum may not
fit; where the file has a hole that happens only if it lies on the last block there is.

* `BlockMap.Broken` -- some page inside the file comes to a hole.
* `Layout.Unbroken` -- what a scan that nobody limits keeps.
* `Layout.scan_answers` -- what it answers.
* `holes_fail_activation` -- what bringing an area up answers on a broken file.
* `hole_behind_the_last_page` -- a hole nobody looks at.
-/
import PageSwap.Proofs.Registration
import PageSwap.Proofs.WellFormed

namespace PageSwap

/-! ## 1. Broken files -/

/-- The limit that no file reaches: a file has fewer pages than there are words. -/
def unlimited : UInt64 := 0xffffffffffffffff

namespace BlockMap

variable {f : BlockMap}

/-- **Some page inside the file comes to a hole.** -/
def Broken (f : BlockMap) : Prop := ∃ g, g + f.perPage ≤ f.length ∧ f.Holed g

/-- A page of the file lies on the last page block there is, so that there is no number for the
block behind it. -/
def Topmost (f : BlockMap) : Prop :=
  f.blockBits = pageBits ∧ ∃ i, f.block? i = some 0xffffffffffffffff

/-- Behind `n` there is no room for a page. -/
theorem WholeBelow.not_broken {n : Nat} (h : f.WholeBelow n) (hlast : f.length < n + f.perPage) :
    ¬ f.Broken := by
  rintro ⟨g, hin, hholed⟩
  exact h g (by omega) hholed

/-- The blocks of a page have a block behind them, unless it is the last one there is. -/
theorem pageBlock_succ_lt (hbits : f.blockBits ≤ pageBits) (htop : ¬ f.Topmost) {i b : UInt64}
    (hb : f.block? i = some b) :
    (b >>> (pageBits - f.blockBits).toUInt64).toNat < 2 ^ 64 - 1 := by
  have hlt := b.toNat_lt
  rw [shifted_eq hbits]
  by_cases hpage : f.blockBits = pageBits
  · have hne : b ≠ 0xffffffffffffffff := by
      rintro rfl
      exact htop ⟨hpage, i, hb⟩
    have hne' : b.toNat ≠ 2 ^ 64 - 1 := fun h => hne (UInt64.toNat_inj.mp h)
    have := Nat.div_le_self b.toNat f.perPage
    omega
  · -- a block is at most half a page
    have hle : f.blockBits.toNat ≤ 12 := UInt32.le_iff_toNat_le.mp hbits
    have hlt12 : f.blockBits.toNat ≠ 12 := fun h => hpage (UInt32.toNat_inj.mp h)
    have htwo : 2 ^ 1 ≤ f.perPage := Nat.pow_le_pow_right (by decide) (by omega)
    have hhalf : b.toNat / f.perPage ≤ b.toNat / 2 ^ 1 := Nat.div_le_div_left htwo (by omega)
    omega

end BlockMap

/-! ## 2. What a scan passes over -/

namespace Layout

open BlockMap

variable {f : BlockMap}

section

variable {probe first : UInt64} {pages : List (UInt64 × UInt64)} {s : Found}

/-- The extents found end inside a word, unless a page lies on the last block. -/
theorem Scanned.blockStop_lt (h : Scanned f.block? (blocksPerPage f.blockBits)
      (pageBits - f.blockBits).toUInt64 (f.size >>> f.blockBits.toUInt64) probe pages s)
    (hbits : f.blockBits ≤ pageBits) (htop : ¬ f.Topmost) :
    ∀ e ∈ s.table.extents, e.blockStop < UInt64.size := by
  intro e he
  have hle := Layout.blockStop_lt h.lists (n := 2 ^ 64 - 1) (fun b hb => by
    obtain ⟨x, hx, rfl⟩ := List.mem_map.mp hb
    exact pageBlock_succ_lt hbits htop (h.found x hx).1) e he
  have hsize : UInt64.size = 2 ^ 64 := rfl
  omega

/-- **A scan that nobody limits, at `probe`.**  It has not gone past a page that comes to a hole,
and has found no more pages than it has passed blocks. -/
structure Unbroken (f : BlockMap) (probe : UInt64) (s : Found) : Prop where
  scanned : ∃ pages, Scanned f.block? (blocksPerPage f.blockBits)
    (pageBits - f.blockBits).toUInt64 (f.size >>> f.blockBits.toUInt64) probe pages s
  few : s.pages ≤ probe
  whole : f.WholeBelow probe.toNat

theorem unbroken_start (f : BlockMap) : Unbroken f 0 {} :=
  ⟨⟨[], scanned_start⟩, UInt64.le_refl 0, fun g hg => absurd hg (Nat.not_lt_zero g)⟩

theorem Unbroken.skip (h : Unbroken f probe s) (hbits : f.blockBits ≤ pageBits)
    (hlooks : Looks (blocksPerPage f.blockBits) unlimited (f.size >>> f.blockBits.toUInt64) probe s)
    (hgroup : group f.block? (blocksPerPage f.blockBits) probe = .unusable) :
    Unbroken f (probe + 1) s := by
  have hspec := group_spec hbits (hlooks.inside_file hbits)
  rw [hgroup] at hspec
  have hup := UInt64.le_of_lt hlooks.lt_next
  obtain ⟨pages, hs⟩ := h.scanned
  refine ⟨⟨pages, hs.mono hup⟩, UInt64.le_trans h.few hup, ?_⟩
  rw [hlooks.toNat_next]
  exact h.whole.skip hspec.2

theorem Unbroken.take {s' : Found} (h : Unbroken f probe s) (hbits : f.blockBits ≤ pageBits)
    (hlooks : Looks (blocksPerPage f.blockBits) unlimited (f.size >>> f.blockBits.toUInt64) probe s)
    (hgroup : group f.block? (blocksPerPage f.blockBits) probe = .usable first)
    (hpush : s.push (first >>> (pageBits - f.blockBits).toUInt64) = .ok s') :
    Unbroken f (probe + blocksPerPage f.blockBits) s' := by
  have hspec := group_spec hbits (hlooks.inside_file hbits)
  rw [hgroup] at hspec
  have hnext := toNat_add_of_lt hlooks.fits
  obtain ⟨pages, hs⟩ := h.scanned
  have hs' := hs.take hlooks hgroup hpush
  refine ⟨⟨_, hs'⟩, ?_, ?_⟩
  · have hfew := UInt64.le_iff_toNat_le.mp h.few
    have hmore : s'.pages.toNat = s.pages.toNat + 1 := by
      rw [hs'.count, List.length_append, hs.count]
      rfl
    have hup := UInt64.lt_iff_toNat_lt.mp hlooks.lt_behind
    rw [UInt64.le_iff_toNat_le]
    omega
  · rw [hnext, perPage_eq hbits]
    exact h.whole.take hspec.1

end

/-- **What a scan answers that nobody limits.** -/
theorem scan_answers (hbits : f.blockBits ≤ pageBits) :
    match scan f unlimited with
    | .ok _ => ¬ f.Broken
    | .error (.refused why) => why = .hole ∧ f.Broken
    | .error (.fault fault) => fault = .overflow .add ∧ (¬ f.Broken ∨ f.Topmost) := by
  have hper := perPage_eq hbits
  have hlen := length_eq hbits
  have hends : ScanEnds f.block? (blocksPerPage f.blockBits) (pageBits - f.blockBits).toUInt64
      unlimited (f.size >>> f.blockBits.toUInt64) (Unbroken f)
      (scanFrom f.block? (blocksPerPage f.blockBits) (pageBits - f.blockBits).toUInt64 unlimited
        (f.size >>> f.blockBits.toUInt64) 0 {}) :=
    scanFrom_induction (fun h hlooks hgroup => h.skip hbits hlooks hgroup)
      (fun h hlooks hgroup hpush => h.take hbits hlooks hgroup hpush) (unbroken_start f)
  generalize hanswer : scanFrom f.block? (blocksPerPage f.blockBits)
    (pageBits - f.blockBits).toUInt64 unlimited (f.size >>> f.blockBits.toUInt64) 0 {} = answer
    at hends
  cases hends with
  | @complete probe s h hfits hstop =>
    -- the limit is out of reach, so the end of the file is reached
    have hlast : f.length < probe.toNat + f.perPage := by
      have hpos := f.perPage_pos
      have hfew := UInt64.le_iff_toNat_le.mp h.few
      have hlimit : unlimited.toNat = UInt64.size - 1 := rfl
      by_contra hmore
      refine hstop ⟨by omega, UInt64.lt_iff_toNat_lt.mpr (by omega), fun hzero => ?_⟩
      rw [hzero] at hper
      exact absurd hper (Nat.ne_of_lt hpos)
    have hwhole := h.whole.not_broken hlast
    rw [scan_of_ok hbits hanswer]
    rcases hspan : s.span with fault | span
    · exact ⟨onlySums_span s fault hspan, .inl hwhole⟩
    · exact hwhole
  | hole h hlooks hgroup =>
    have hin := hlooks.inside_file hbits
    have hspec := group_spec hbits hin
    rw [hgroup] at hspec
    rw [scan_of_error hbits hanswer]
    exact ⟨rfl, _, hin, hspec⟩
  | unadded h hlooks hgroup hpush =>
    obtain ⟨pages, hs⟩ := h.scanned
    obtain ⟨rfl, x, hx, hover⟩ := hs.unadded hlooks hgroup hpush
    -- an extent that runs past a word ends with a page on the last block there is
    rw [scan_of_error hbits hanswer]
    refine ⟨rfl, .inr ?_⟩
    by_contra htop
    exact absurd (hs.blockStop_lt hbits htop x hx) (Nat.not_lt_of_le hover)
  | beyond h hover =>
    -- the end of the file is a word, so it is behind the probe by less than a page
    have hlt : f.length < UInt64.size := hlen ▸ UInt64.toNat_lt _
    rw [scan_of_error hbits hanswer]
    exact ⟨rfl, .inl (h.whole.not_broken (by omega))⟩

end Layout

/-! ## 3. No area comes of a broken file -/

section

variable {σ : Type} {b : Backend σ} {spec : AreaSpec} {limit : UInt64} {s : System σ}

/-- The number of an area is one, and nobody has it. -/
def AreaSpec.Vacant (spec : AreaSpec) (s : System σ) : Prop :=
  spec.number < Slot.areaLimit ∧ s.area? spec.number = none

/-- Under a vacant number, an area is laid out and then registered. -/
theorem swapOn_of_vacant (hvacant : spec.Vacant s) : (swapOn b spec limit) s =
    (activate b spec limit >>= fun
      | .error why => pure (.error why)
      | .ok area => register area) s := by
  have hcheck : checkVacant spec.number s = .ok (.ok (), s) := by
    rw [checkVacant_eq, if_neg (UInt32.not_le.mpr hvacant.1), hvacant.2]
    rfl
  exact Run.bind_of_ok hcheck

/-- **A hole fails activation.**  It is enough that a page could start at the hole; other holes fail
it if a page that starts before them comes to them, and no hole but these does.  Nothing is
registered then, and nothing but the console has changed.  Only where the file lies on the last
block there is may a sum fail first. -/
theorem holes_fail_activation {file : FileId} {d : DeviceId}
    (hback : spec.backing = .mapped file d)
    (hbits : (b.files.blockMap file s.world).blockBits ≤ pageBits) :
    let f := b.files.blockMap file s.world
    (∀ i, i + f.perPage ≤ f.length → f.device? i = none → f.Broken) ∧
    (¬ f.Broken → Layout.scan f unlimited ≠ .error (.refused .hole)) ∧
    (f.Broken →
      (Layout.scan f unlimited = .error (.refused .hole) ∧
        (∃ console, activate b spec unlimited s = .ok (.error .hole, { s with console })) ∧
        (spec.Vacant s →
          ∃ console, (swapOn b spec unlimited) s = .ok (.error .hole, { s with console }))) ∨
      f.Topmost ∧ Layout.scan f unlimited = .error (.fault (.overflow .add)) ∧
        activate b spec unlimited s = .error (.overflow .add) ∧
        (spec.Vacant s → (swapOn b spec unlimited) s = .error (.overflow .add))) := by
  intro f
  have hanswers := Layout.scan_answers hbits
  have hspec := activate_spec b spec unlimited s
  have hground : groundOf b spec s = .blocks f := by
    unfold groundOf
    rw [hback]
  have hplan : (groundOf b spec s).plan unlimited = Layout.scan f unlimited := by
    rw [hground]
    rfl
  rw [hplan] at hspec
  refine ⟨fun i hin hnone => ⟨i, hin, BlockMap.holed_of_hole hnone⟩, fun hwhole hscan => ?_,
    fun hbroken => ?_⟩
  · rw [hscan] at hanswers
    exact hwhole hanswers.2
  · rcases hscan : Layout.scan f unlimited with (why | fault) | plan
    all_goals rw [hscan] at hanswers hspec
    · obtain ⟨rfl, -⟩ := hanswers
      obtain ⟨console, hactivate⟩ := hspec
      refine .inl ⟨rfl, ⟨console, hactivate⟩, fun hvacant => ⟨console, ?_⟩⟩
      rw [swapOn_of_vacant hvacant]
      exact Run.bind_of_ok hactivate
    · obtain ⟨rfl, hwhy⟩ := hanswers
      refine .inr ⟨hwhy.resolve_left fun h => h hbroken, rfl, hspec, fun hvacant => ?_⟩
      rw [swapOn_of_vacant hvacant]
      exact Run.bind_of_error hspec
    · exact absurd hbroken hanswers

end

/-- A file of two pages and a half, with blocks of half a page and a hole. -/
def holedFile (hole : UInt64) : BlockMap :=
  ⟨11, 10240, fun i => if i = hole then none else some (20 + i)⟩

/-- A disk in memory that has this file only. -/
def mappedDisk (f : BlockMap) : Backend RamDisk :=
  { ramDisk true with files := { (ramDisk true).files with blockMap := fun _ _ => f } }

theorem refused_at_the_second_page : (holedFile 2).device? 2 = none ∧
    ∃ console, (swapOn (mappedDisk (holedFile 2)) (ramSpec (.mapped 0 0)) unlimited) ramStart =
      .ok (.error .hole, { ramStart with console }) := by
  have hhole : (holedFile 2).device? 2 = none := by decide
  have hspec : (ramSpec (.mapped 0 0)).backing = .mapped 0 0 := rfl
  obtain ⟨hroom, -, hbroken⟩ := holes_fail_activation (b := mappedDisk (holedFile 2))
    (s := ramStart) hspec (by decide)
  rcases hbroken (hroom 2 (by decide) hhole) with ⟨-, -, hswap⟩ | ⟨⟨hbits, -⟩, -⟩
  · exact ⟨hhole, hswap ⟨by decide, rfl⟩⟩
  · exact absurd hbits (by decide)

/-- A usable group is taken. -/
theorem Layout.scanFrom_usable {block? : UInt64 → Option UInt64}
    {perPage shift limit last probe first : UInt64} {s s' : Found}
    (hfits : probe.toNat + perPage.toNat < UInt64.size)
    (hl : probe.toNat + perPage.toNat ≤ last.toNat ∧ s.pages < limit ∧ perPage ≠ 0)
    (hgroup : group block? perPage probe = .usable first)
    (hpush : s.push (first >>> shift) = .ok s') :
    scanFrom block? perPage shift limit last probe s =
      scanFrom block? perPage shift limit last (probe + perPage) s' := by
  rw [scanFrom, dif_pos hfits, dif_pos hl, hgroup]
  simp only [hpush]

/-- What a scan finds in this file if its last block is the hole. -/
theorem scan_holedFile : Layout.scan (holedFile 4) unlimited =
    .ok (⟨[⟨0, 2, 10⟩]⟩, { nrExtents := 1, max := 2, pages := 1, span := 1 }) := by
  have hfound : Layout.scanFrom (holedFile 4).block? 2 1 unlimited 5 0 {} =
      .ok ⟨⟨[⟨0, 2, 10⟩]⟩, 1, 2, 11, 11⟩ := by
    rw [Layout.scanFrom_usable (by decide) (by decide) rfl rfl,
      Layout.scanFrom_usable (by decide) (by decide) rfl rfl,
      Layout.scanFrom, dif_pos (by decide), dif_neg (by decide)]
    rfl
  unfold Layout.scan
  rw [if_neg (by decide)]
  exact congrArg (· >>= _) hfound

/-- **A hole nobody looks at.**  The last block of the file is a hole, and the area is registered
all the same: no page has room to start there, and none reaches it. -/
theorem hole_behind_the_last_page : 4 < (holedFile 4).length ∧ (holedFile 4).device? 4 = none ∧
    ∃ area s, (swapOn (mappedDisk (holedFile 4)) (ramSpec (.mapped 0 0)) unlimited) ramStart =
      .ok (.ok area, s) ∧ s.area? 0 = some area ∧ area.max = 2 := by
  refine ⟨by decide, by decide, ?_⟩
  have hspec := activate_spec (mappedDisk (holedFile 4)) (ramSpec (.mapped 0 0)) unlimited ramStart
  have hplan : (groundOf (mappedDisk (holedFile 4)) (ramSpec (.mapped 0 0)) ramStart).plan
      unlimited = _ := scan_holedFile
  rw [hplan] at hspec
  obtain ⟨console, hspec⟩ := hspec
  rw [swapOn_of_vacant ⟨by decide, rfl⟩, Run.bind_of_ok hspec]
  exact ⟨_, _, rfl, rfl, rfl⟩

end PageSwap
