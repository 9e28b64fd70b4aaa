/-
# What a scan finds

A page of a swap file is a group of file blocks that lies on disk as one aligned page
(`BlockMap.Good`).  Groups may start at any file block.  The scan goes on by one block where a
group is not good and by a whole page where it is, so it starts no page at the blocks inside one it
took; this file shows that it misses no good group all the same, since two of them cannot overlap.

The invariant measures the scan by the PROBE: what it has found are the good groups that START below
the probe (`BlockMap.goodBelow`), whichever way it went over them.  Groups that END at or below it
would not do.  Passing over a block can make such a group complete without the scan having looked at
its first block, and one would need a second fact to say that this does not happen.  Counted by
their first blocks, a step of one block changes the list exactly if that block is good, and a step
of a page changes it by the page taken, because a good group has no other one in it (`Good.apart`).

Three more things are known at a probe, and `Layout.Passed` carries them for the question what makes
a scan FAIL: that no page below the probe comes to a hole, that none of them reaches past it, and
that of the pages found only the newest may lie on the last block there is.  The last is as strong
as it can be, because the sum such a page makes impossible is the one the NEXT page asks for.

* `ExtentTable.Lists.runs` -- the extents of a table are the maximal runs of the blocks it lists.
* `BlockMap.Good.apart`, `BlockMap.Good.apart_holed` -- what cannot start inside a good group.
* `Layout.group_spec` -- what the scan sees at one file block.
* `Layout.Discovered` -- what it has found below its probe.
* `Layout.Passed` -- what it has gone past besides, kept by each step.
* `Layout.scanFrom_ended` -- where it ends.
* `scan_finds_the_good_groups` -- what it answers.
-/
import Mathlib.Data.List.SplitBy
import Mathlib.Data.List.Range
import PageSwap.Proofs.Areas

namespace PageSwap

/-! ## 1. Extents are maximal runs -/

/-- The blocks of an extent, in the order of its pages. -/
def Extent.run (e : Extent) : List Nat := List.range' e.startBlock.toNat e.nrPages.toNat

/-- `b` is the block behind `a`. -/
def nextBlock (a b : Nat) : Bool := b == a + 1

/-- The last block there is: no word holds the number of the one behind it. -/
def topBlock : Nat := UInt64.size - 1

namespace ExtentTable

/-- The extents map the pages from `start` on to these blocks, and no others. -/
def MapsFrom (l : List Extent) (start : Nat) (blocks : List Nat) : Prop :=
  ∀ o b, (∃ e ∈ l, e.Holds o ∧ e.blockOf o = b) ↔ start ≤ o ∧ blocks[o - start]? = some b

namespace MapsFrom

variable {e : Extent} {l : List Extent} {start : Nat} {blocks : List Nat}

/-- The first page of the first extent is the first page there is. -/
theorem first (h : MapsFrom (e :: l) start blocks) (hpos : 0 < e.nrPages.toNat)
    (hnext : ∀ e' ∈ l, e.Before e') (hle : start ≤ e.startPage.toNat) :
    e.startPage.toNat = start := by
  have hstop : e.stop = e.startPage.toNat + e.nrPages.toNat := rfl
  have hmem : blocks[e.startPage.toNat - start]? = some (e.blockOf e.startPage.toNat) :=
    ((h _ _).mp ⟨e, List.mem_cons_self, ⟨Nat.le_refl _, by omega⟩, rfl⟩).2
  obtain ⟨hlt, -⟩ := List.getElem?_eq_some_iff.mp hmem
  obtain ⟨e', he', ⟨hlow, -⟩, -⟩ := (h start blocks[0]).mpr
    ⟨Nat.le_refl _, by rw [Nat.sub_self]; exact List.getElem?_eq_getElem (by omega)⟩
  rcases List.mem_cons.mp he' with rfl | he'
  · omega
  · have hbe : e.stop ≤ e'.startPage.toNat := hnext e' he'
    omega

/-- Its pages are the first ones of the list. -/
theorem take_eq (h : MapsFrom (e :: l) start blocks) (hfirst : e.startPage.toNat = start) :
    blocks.take e.nrPages.toNat = e.run := by
  have hstop : e.stop = e.startPage.toNat + e.nrPages.toNat := rfl
  refine List.ext_getElem? fun k => ?_
  by_cases hk : k < e.nrPages.toNat
  · obtain ⟨-, hb⟩ := (h (start + k) (e.blockOf (start + k))).mp
      ⟨e, List.mem_cons_self, ⟨by omega, by omega⟩, rfl⟩
    rw [Nat.add_sub_cancel_left, Extent.blockOf, hfirst, Nat.add_sub_cancel_left] at hb
    rw [List.getElem?_take_of_lt hk, hb, Extent.run, List.getElem?_range' hk, Nat.one_mul]
  · rw [List.getElem?_eq_none (by rw [List.length_take]; omega),
      List.getElem?_eq_none (by rw [Extent.run, List.length_range']; omega)]

/-- The other extents map the pages behind it. -/
theorem tail (h : MapsFrom (e :: l) start blocks) (hnext : ∀ e' ∈ l, e.Before e')
    (hfirst : e.startPage.toNat = start) :
    MapsFrom l e.stop (blocks.drop e.nrPages.toNat) := by
  have hstop : e.stop = e.startPage.toNat + e.nrPages.toNat := rfl
  intro o b
  rw [List.getElem?_drop]
  constructor
  · rintro ⟨e', he', ho, hb⟩
    have hbe : e.stop ≤ e'.startPage.toNat := hnext e' he'
    have hlow := ho.1
    obtain ⟨-, hb'⟩ := (h o b).mp ⟨e', List.mem_cons_of_mem e he', ho, hb⟩
    have hpage : e.nrPages.toNat + (o - e.stop) = o - start := by omega
    rw [hpage]
    exact ⟨by omega, hb'⟩
  · rintro ⟨hle, hb⟩
    have hpage : e.nrPages.toNat + (o - e.stop) = o - start := by omega
    rw [hpage] at hb
    obtain ⟨e', he', ho, hb'⟩ := (h o b).mpr ⟨by omega, hb⟩
    rcases List.mem_cons.mp he' with rfl | he'
    · have := ho.2
      omega
    · exact ⟨e', he', ho, hb'⟩

/-- **Extents that follow one another and map all pages leave no gap.**  By induction on the
extents, for any first page: the rest of a table starts where its first extent stops. -/
theorem runs : ∀ {l : List Extent} {start : Nat} {blocks : List Nat}, MapsFrom l start blocks →
    (∀ e ∈ l, e.Fits) → l.Pairwise Extent.Before → (∀ e ∈ l, start ≤ e.startPage.toNat) →
    blocks = (l.map Extent.run).flatten ∧
      l.IsChain (fun e e' => e.stop = e'.startPage.toNat) ∧
      ∀ e ∈ l.head?, e.startPage.toNat = start := by
  intro l
  induction l with
  | nil =>
    intro start blocks hmaps _ _ _
    refine ⟨?_, List.isChain_nil, nofun⟩
    cases blocks with
    | nil => rfl
    | cons b rest =>
      obtain ⟨e, he, -⟩ := (hmaps start b).mpr ⟨Nat.le_refl _, by rw [Nat.sub_self]; rfl⟩
      exact absurd he List.not_mem_nil
  | cons e l ih =>
    intro start blocks hmaps hfits hbefore hstart
    obtain ⟨hnext, hbefore⟩ := List.pairwise_cons.mp hbefore
    have hfirst := hmaps.first (hfits e List.mem_cons_self).pos hnext
      (hstart e List.mem_cons_self)
    obtain ⟨hflat, hchain, hhead⟩ := ih (hmaps.tail hnext hfirst)
      (fun x hx => hfits x (List.mem_cons_of_mem e hx)) hbefore hnext
    refine ⟨?_, ?_, ?_⟩
    · rw [List.map_cons, List.flatten_cons, ← hmaps.take_eq hfirst, ← hflat,
        List.take_append_drop]
    · exact List.isChain_cons.mpr ⟨fun e' he' => (hhead e' he').symm, hchain⟩
    · intro e' he'
      rw [List.head?_cons, Option.mem_some_iff] at he'
      exact he' ▸ hfirst

end MapsFrom

/-- **The extents of a table are the maximal runs of the blocks it lists.** -/
theorem Lists.runs {t : ExtentTable} {blocks : List Nat} (h : t.Lists blocks) :
    blocks.splitBy nextBlock = t.extents.map Extent.run := by
  have hne : ∀ e ∈ t.extents, e.run ≠ [] := by
    intro e he hnil
    have hpos := (h.ordered.fits e he).pos
    rw [Extent.run, List.range'_eq_nil_iff] at hnil
    omega
  have hmaps : MapsFrom t.extents 0 blocks := by
    intro o b
    rw [Nat.sub_zero]
    exact (h.maps o b).trans ⟨fun hb => ⟨Nat.zero_le _, hb⟩, fun hb => hb.2⟩
  obtain ⟨hflat, hchain, -⟩ := hmaps.runs h.ordered.fits h.ordered.before
    fun _ _ => Nat.zero_le _
  -- the runs make up the list, none is empty, each goes up by one, and no two could be one
  refine List.splitBy_eq_iff.mpr ⟨hflat, ?_, ?_, ?_⟩
  · intro hnil
    obtain ⟨e, he, hrun⟩ := List.mem_map.mp hnil
    exact hne e he hrun
  · intro m hm
    obtain ⟨e, -, rfl⟩ := List.mem_map.mp hm
    refine (List.isChain_range' _ _ 1).imp fun a b hb => ?_
    rw [nextBlock, hb, beq_self_eq_true]
  · -- where one extent ends the next one starts, and it does not continue there
    have hmerged : t.extents.IsChain fun e e' => ¬ e.Continues e' := h.merged.isChain
    rw [List.isChain_map, List.isChain_iff_getElem]
    intro i hi
    have hmeet := List.isChain_iff_getElem.mp hchain i hi
    have hseam := List.isChain_iff_getElem.mp hmerged i hi
    refine ⟨hne _ (List.getElem_mem _), hne _ (List.getElem_mem _), ?_⟩
    have hpos := (h.ordered.fits _ (List.getElem_mem (Nat.lt_of_succ_lt hi))).pos
    simp only [Extent.run, nextBlock, List.getLast_range', List.head_range', beq_eq_false_iff_ne]
    intro hblock
    exact hseam ⟨hmeet, by rw [Extent.blockStop]; omega⟩

/-- What a table that lists blocks answers. -/
theorem Lists.map?_eq {t : ExtentTable} {blocks : List Nat} (h : t.Lists blocks)
    (hfits : ∀ b ∈ blocks, b < UInt64.size) (o : UInt64) :
    t.map? o = .ok (blocks[o.toNat]?.map UInt64.ofNat) := by
  cases hb : blocks[o.toNat]? with
  | none =>
    refine h.ordered.map?_eq_none_iff.mpr fun b hmaps => ?_
    rw [(h.maps _ _).mp hmaps] at hb
    exact absurd hb nofun
  | some b =>
    refine h.ordered.map?_eq_some_iff.mpr ((h.maps _ _).mpr ?_)
    rw [UInt64.toNat_ofNat_of_lt' (hfits b (List.mem_of_getElem? hb))]
    exact hb

/-- No run is added right behind an extent that ends with the last block there is, wherever the run
itself lies: to see whether it continues the extent, the block behind the extent is computed. -/
theorem add_behind_top {init : List Extent} {prev new : Extent}
    (h : Ordered ⟨init ++ [prev]⟩) (hpos : new.nrPages ≠ 0)
    (hstop : prev.stop = new.startPage.toNat) (hblock : UInt64.size ≤ prev.blockStop) :
    add ⟨init ++ [prev]⟩ new = .error (.fault (.overflow .add)) := by
  have hprev := h.fits prev List.mem_concat_self
  -- every extent starts before the run, so `prev` is the neighbour the run is compared with
  have hlow : ∀ e ∈ init ++ [prev], decide (e.startPage < new.startPage) = true := by
    intro e he
    have hle : e.stop ≤ prev.stop := by
      rcases List.mem_append.mp he with he | he
      · have hbefore : e.stop ≤ prev.startPage.toNat :=
          (List.pairwise_append.mp h.before).2.2 e he prev List.mem_cons_self
        exact Nat.le_trans hbefore (Nat.le_add_right _ _)
      · rw [List.mem_singleton.mp he]
    have hepos := (h.fits e he).pos
    rw [decide_eq_true_eq, UInt64.lt_iff_toNat_lt, ← hstop]
    simp only [Extent.stop] at hle ⊢
    omega
  obtain ⟨c, hc, hn⟩ := Extent.endPage_ok hprev.pages
  have hmeet : c = new.startPage := UInt64.toNat_inj.mp (hn.trans hstop)
  have hover : prev.endBlock = .error (.overflow .add) := if_neg (Nat.not_lt_of_le hblock)
  unfold add
  rw [if_neg hpos, List.takeWhile_eq_self_iff.mpr hlow, List.dropWhile_eq_nil_iff.mpr hlow]
  simp only [List.head?_nil, List.getLast?_concat, fitsBefore, fitsAfter, Extent.continuesAt, hc,
    hmeet, hover, UInt64.le_refl, decide_true, lift_ok, bind, Except.bind, pure, Except.pure,
    if_true]
  rfl

/-- No page is added behind one on the last block there is. -/
theorem Lists.add_top {t : ExtentTable} {blocks : List Nat} (h : t.Lists (blocks ++ [topBlock]))
    {n block : UInt64} (hn : n.toNat = blocks.length + 1) :
    t.add ⟨n, 1, block⟩ = .error (.fault (.overflow .add)) := by
  have hsize : topBlock + 1 = UInt64.size := rfl
  have hlength : (blocks ++ [topBlock]).length = blocks.length + 1 := List.length_append
  -- the extent that holds the last page
  obtain ⟨e, he, hholds, htop⟩ :=
    (h.maps blocks.length topBlock).mpr (List.getElem?_concat_length ..)
  have hstop := h.stop e he
  obtain ⟨l⟩ := t
  rcases List.eq_nil_or_concat' l with rfl | ⟨init, prev, rfl⟩
  · exact absurd he List.not_mem_nil
  have hlast : e = prev := by
    rcases List.mem_append.mp he with he' | he'
    · have hbefore : e.stop ≤ prev.startPage.toNat :=
        (List.pairwise_append.mp h.ordered.before).2.2 e he' prev List.mem_cons_self
      have hend := h.stop prev List.mem_concat_self
      have hpos := (h.ordered.fits prev List.mem_concat_self).pos
      have hupper := hholds.2
      simp only [Extent.stop] at hbefore hend hupper
      omega
    · exact List.mem_singleton.mp he'
  subst hlast
  obtain ⟨hlower, hupper⟩ := hholds
  refine add_behind_top h.ordered (show (1 : UInt64) ≠ 0 by decide) ?_ ?_
  · show e.stop = n.toNat
    omega
  · simp only [Extent.blockOf, Extent.stop, Extent.blockStop] at htop hstop hupper ⊢
    omega

end ExtentTable

/-! ## 2. Good groups -/

namespace BlockMap

variable {f : BlockMap}

/-- File blocks of a page. -/
def perPage (f : BlockMap) : Nat := 2 ^ (12 - f.blockBits.toNat)

/-- Blocks of the file. -/
def length (f : BlockMap) : Nat := f.size.toNat / 2 ^ f.blockBits.toNat

/-- The device block of file block `i`. -/
def device? (f : BlockMap) (i : Nat) : Option Nat :=
  (f.block? (UInt64.ofNat i)).map UInt64.toNat

/-- **The page that starts at file block `g` can be used**: it is inside the file, and its blocks
lie one after the other on the device, starting at a page. -/
def Good (f : BlockMap) (g : Nat) : Prop :=
  g + f.perPage ≤ f.length ∧ ∃ b ∈ f.device? g, f.perPage ∣ b ∧
    ∀ j < f.perPage, f.device? (g + j) = some (b + j)

instance (f : BlockMap) (g : Nat) : Decidable (f.Good g) :=
  inferInstanceAs (Decidable (_ ∧ _))

/-- The page that starts at file block `g` comes to a hole before anything else is wrong with it. -/
def Holed (f : BlockMap) (g : Nat) : Prop :=
  ∃ j < f.perPage, f.device? (g + j) = none ∧
    ∃ b, f.perPage ∣ b ∧ ∀ i < j, f.device? (g + i) = some (b + i)

/-- No page that starts before file block `n` reaches past it.  Where a scan is at `n`, it is not in
the middle of a page. -/
def Clear (f : BlockMap) (n : Nat) : Prop := ∀ g < n, f.Good g → g + f.perPage ≤ n

/-- No page before file block `n` comes to a hole. -/
def WholeBelow (f : BlockMap) (n : Nat) : Prop := ∀ g < n, ¬ f.Holed g

/-- The good groups below file block `n`. -/
def goodBelow (f : BlockMap) (n : Nat) : List Nat := (List.range n).filter (f.Good ·)

/-- All good groups, in the order of the file. -/
def goodGroups (f : BlockMap) : List Nat := f.goodBelow f.length

/-- The page block on which the group at `g` lies. -/
def pageBlock (f : BlockMap) (g : Nat) : Nat := (f.device? g).getD 0 / f.perPage

/-- What a scan is asked for: the page blocks of the first `limit` good groups. -/
def pageBlocks (f : BlockMap) (limit : Nat) : List Nat := (f.goodGroups.take limit).map f.pageBlock

/-- A file that the scan can go over: its blocks are no larger than a page, and a page behind its
last block still has a number. -/
structure Sized (f : BlockMap) : Prop where
  bits : f.blockBits ≤ pageBits
  size : f.size.toNat < 2 ^ 63

/-- A file in which no number is out of reach of the scan. -/
structure Modest (f : BlockMap) : Prop where
  bits : f.blockBits ≤ pageBits
  size : f.size.toNat < 2 ^ 63
  device : ∀ i b, f.block? i = some b → b.toNat < 2 ^ 63

theorem device?_toNat (x : UInt64) : f.device? x.toNat = (f.block? x).map UInt64.toNat := by
  rw [device?, UInt64.ofNat_toNat]

theorem device?_add (x : UInt64) (j : Nat) :
    f.device? (x.toNat + j) = (f.block? (x + .ofNat j)).map UInt64.toNat := by
  rw [device?, UInt64.ofNat_add, UInt64.ofNat_toNat]

theorem perPage_pos (f : BlockMap) : 0 < f.perPage := Nat.two_pow_pos _

theorem perPage_le (f : BlockMap) : f.perPage ≤ 4096 :=
  show 2 ^ _ ≤ 2 ^ 12 from Nat.pow_le_pow_right (by decide) (Nat.sub_le _ _)

/-- A page that starts at a hole comes to one. -/
theorem holed_of_hole {i : Nat} (h : f.device? i = none) : f.Holed i :=
  ⟨0, f.perPage_pos, h, 0, Nat.dvd_zero _, nofun⟩

/-- **Good groups do not overlap**, since the device blocks of each start at a page. -/
theorem Good.apart {g g' : Nat} (h : f.Good g) (h' : f.Good g') (hlt : g < g') :
    g + f.perPage ≤ g' := by
  obtain ⟨-, b, -, hdvd, hrow⟩ := h
  obtain ⟨-, b', -, hdvd', hrow'⟩ := h'
  -- if they did, `g'` would be in the row of `g`, less than a page behind an aligned block, while
  -- its own block is aligned too
  by_contra hover
  have hb : f.device? g' = some (b + (g' - g)) := by
    have := hrow (g' - g) (by omega)
    rwa [Nat.add_sub_cancel' (Nat.le_of_lt hlt)] at this
  have hb' : f.device? g' = some (b' + 0) := hrow' 0 f.perPage_pos
  rw [hb] at hb'
  injection hb' with hb'
  have hdiff : f.perPage ∣ g' - g := (Nat.dvd_add_right hdvd).mp (hb' ▸ hdvd')
  exact absurd (Nat.le_of_dvd (by omega) hdiff) (by omega)

/-- A page that comes to a hole does not start inside a good group.  Unlike two good groups the two
may not start at one block either, hence `≤`. -/
theorem Good.apart_holed {g g' : Nat} (h : f.Good g) (h' : f.Holed g') (hle : g ≤ g') :
    g + f.perPage ≤ g' := by
  obtain ⟨-, b, -, hdvd, hrow⟩ := h
  obtain ⟨j, hj, hnone, b', hdvd', hrow'⟩ := h'
  by_contra hover
  -- the first block of the page is one of the group's, so it is no hole
  have hhead : f.device? g' = some (b + (g' - g)) := by
    have := hrow (g' - g) (by omega)
    rwa [Nat.add_sub_cancel' hle] at this
  cases j with
  | zero =>
    rw [Nat.add_zero, hhead] at hnone
    cases hnone
  | succ j =>
    -- it starts at a page, so it starts where the good group does
    have hhead' := hrow' 0 (Nat.succ_pos j)
    rw [Nat.add_zero, hhead] at hhead'
    injection hhead' with hb
    have hdiff : f.perPage ∣ g' - g := (Nat.dvd_add_right hdvd).mp (hb ▸ hdvd')
    have hsame : g' - g = 0 := Nat.eq_zero_of_dvd_of_lt hdiff (by omega)
    have hthere := hrow (j + 1) hj
    rw [show g + (j + 1) = g' + (j + 1) by omega, hnone] at hthere
    cases hthere

theorem Clear.skip {n : Nat} (h : f.Clear n) (hbad : ¬ f.Good n) : f.Clear (n + 1) := by
  intro g hg hgood
  rcases Nat.lt_succ_iff_lt_or_eq.mp hg with hlt | rfl
  · have := h g hlt hgood
    omega
  · exact absurd hgood hbad

theorem Clear.take {n : Nat} (hgood : f.Good n) : f.Clear (n + f.perPage) := by
  intro g hg hgood'
  rcases Nat.lt_trichotomy g n with hlt | rfl | hlt
  · have := hgood'.apart hgood hlt
    omega
  · exact Nat.le_refl _
  · have := hgood.apart hgood' hlt
    omega

theorem WholeBelow.skip {n : Nat} (h : f.WholeBelow n) (hwhole : ¬ f.Holed n) :
    f.WholeBelow (n + 1) := by
  intro g hg
  rcases Nat.lt_succ_iff_lt_or_eq.mp hg with hlt | rfl
  · exact h g hlt
  · exact hwhole

theorem WholeBelow.take {n : Nat} (h : f.WholeBelow n) (hgood : f.Good n) :
    f.WholeBelow (n + f.perPage) := by
  intro g hg hholed
  by_cases hbelow : g < n
  · exact h g hbelow hholed
  · have := hgood.apart_holed hholed (Nat.le_of_not_lt hbelow)
    omega

theorem goodBelow_succ_of_not {n : Nat} (h : ¬ f.Good n) : f.goodBelow (n + 1) = f.goodBelow n := by
  rw [goodBelow, List.range_succ, List.filter_append, List.filter_singleton, decide_eq_false h]
  exact List.append_nil _

/-- Behind a good group there is no other one for a whole page.  The induction goes over the blocks
of the page, at each of which `Good.apart` rules a group out. -/
theorem goodBelow_add {n : Nat} (h : f.Good n) {m : Nat} (hm : m < f.perPage) :
    f.goodBelow (n + (m + 1)) = f.goodBelow n ++ [n] := by
  induction m with
  | zero =>
    rw [goodBelow, List.range_succ, List.filter_append, List.filter_singleton, decide_eq_true h]
    rfl
  | succ m ih =>
    have hbad : ¬ f.Good (n + (m + 1)) := fun h' => absurd (h.apart h' (by omega)) (by omega)
    rw [← Nat.add_assoc, goodBelow_succ_of_not hbad, ih (by omega)]

/-- A good group is the last one below the block behind it. -/
theorem goodBelow_behind {n : Nat} (h : f.Good n) :
    f.goodBelow (n + f.perPage) = f.goodBelow n ++ [n] := by
  have hpos := f.perPage_pos
  have hadd := goodBelow_add h (m := f.perPage - 1) (by omega)
  rwa [Nat.sub_add_cancel hpos] at hadd

/-- The good groups below a file block are the first ones of the file. -/
theorem goodBelow_prefix {n : Nat} (h : n ≤ f.length) : f.goodBelow n <+: f.goodGroups := by
  refine List.IsPrefix.filter _ ?_
  rw [List.prefix_iff_eq_take, List.length_range, List.take_range, Nat.min_eq_left h]

/-- There are no good groups in the last blocks of the file. -/
theorem goodBelow_all {n : Nat} (h : n ≤ f.length) (hlast : f.length < n + f.perPage) :
    f.goodBelow n = f.goodGroups := by
  obtain ⟨m, hm⟩ := Nat.le.dest h
  have hrest : ((List.range m).map (n + ·)).filter (f.Good ·) = [] := by
    refine List.filter_eq_nil_iff.mpr fun g hg => ?_
    obtain ⟨k, -, rfl⟩ := List.mem_map.mp hg
    rw [decide_eq_true_eq]
    rintro ⟨hin, -⟩
    omega
  rw [goodGroups, ← hm, goodBelow, goodBelow, List.range_add, List.filter_append, hrest,
    List.append_nil]

section

/-! Where blocks are no larger than a page, the words of the scan are the numbers above. -/

variable (h : f.blockBits ≤ pageBits)

include h

theorem shift_eq : (pageBits - f.blockBits).toUInt64.toNat % 64 = 12 - f.blockBits.toNat := by
  rw [UInt32.toNat_toUInt64, UInt32.toNat_sub_of_le _ _ h]
  show (12 - f.blockBits.toNat) % 64 = _
  omega

theorem perPage_eq : (Layout.blocksPerPage f.blockBits).toNat = f.perPage := by
  have hlt : f.perPage < 2 ^ 64 := Nat.lt_of_le_of_lt f.perPage_le (by decide)
  rw [Layout.blocksPerPage, UInt64.toNat_shiftLeft, shift_eq h, UInt64.toNat_one, Nat.shiftLeft_eq,
    Nat.one_mul]
  exact Nat.mod_eq_of_lt hlt

theorem length_eq : (f.size >>> f.blockBits.toUInt64).toNat = f.length := by
  have hle : f.blockBits.toNat ≤ 12 := UInt32.le_iff_toNat_le.mp h
  have hmod : f.blockBits.toUInt64.toNat % 64 = f.blockBits.toNat := by
    rw [UInt32.toNat_toUInt64]; omega
  rw [UInt64.toNat_shiftRight, hmod, Nat.shiftRight_eq_div_pow]
  rfl

theorem shifted_eq (x : UInt64) :
    (x >>> (pageBits - f.blockBits).toUInt64).toNat = x.toNat / f.perPage := by
  rw [UInt64.toNat_shiftRight, shift_eq h, Nat.shiftRight_eq_div_pow]
  rfl

theorem aligned_iff (x : UInt64) :
    x &&& (Layout.blocksPerPage f.blockBits - 1) = 0 ↔ f.perPage ∣ x.toNat := by
  have hpos := f.perPage_pos
  have hmask : (Layout.blocksPerPage f.blockBits - 1).toNat = f.perPage - 1 := by
    rw [UInt64.toNat_sub_of_le _ _ (by rw [UInt64.le_iff_toNat_le, perPage_eq h]; exact hpos),
      perPage_eq h]
    rfl
  rw [← UInt64.toNat_inj, UInt64.toNat_and, hmask, UInt64.toNat_zero, perPage,
    Nat.and_two_pow_sub_one_eq_mod]
  exact (Nat.dvd_iff_mod_eq_zero ..).symm

omit h in
/-- The blocks of an aligned page are words. -/
theorem aligned_add {x : UInt64} (hdvd : f.perPage ∣ x.toNat) {i : Nat} (hi : i < f.perPage) :
    (x + .ofNat i).toNat = x.toNat + i := by
  have hle := f.perPage_le
  have hword : f.perPage ∣ 2 ^ 64 := Nat.pow_dvd_pow 2 (by omega)
  have hroom : x.toNat + f.perPage ≤ 2 ^ 64 := by
    obtain ⟨k, hk⟩ := hdvd
    obtain ⟨m, hm⟩ := hword
    have hlt : f.perPage * k < f.perPage * m := by
      rw [← hk, ← hm]
      exact x.toNat_lt
    have hkm := Nat.mul_le_mul_left f.perPage (Nat.lt_of_mul_lt_mul_left hlt)
    rw [Nat.succ_eq_add_one, Nat.mul_add, Nat.mul_one] at hkm
    rw [hk, hm]
    exact hkm
  have hsize : UInt64.size = 2 ^ 64 := rfl
  have hi64 : (UInt64.ofNat i).toNat = i := UInt64.toNat_ofNat_of_lt' (by omega)
  rw [toNat_add_of_lt (by rw [hi64]; omega), hi64]

end

theorem pageBlock_lt_size (f : BlockMap) (g : Nat) : f.pageBlock g < UInt64.size := by
  refine Nat.lt_of_le_of_lt (Nat.div_le_self _ _) ?_
  rw [device?]
  cases f.block? (UInt64.ofNat g) with
  | none => exact Nat.two_pow_pos 64
  | some b => exact b.toNat_lt

theorem Sized.length_lt (h : f.Sized) : f.length < 2 ^ 63 :=
  Nat.lt_of_le_of_lt (Nat.div_le_self _ _) h.size

namespace Modest

theorem sized (h : f.Modest) : f.Sized := ⟨h.bits, h.size⟩

theorem device_lt (h : f.Modest) {i b : Nat} (hb : f.device? i = some b) : b < 2 ^ 63 := by
  obtain ⟨x, hx, rfl⟩ := Option.map_eq_some_iff.mp hb
  exact h.device _ x hx

theorem pageBlock_lt (h : f.Modest) (g : Nat) : f.pageBlock g < 2 ^ 63 := by
  refine Nat.lt_of_le_of_lt (Nat.div_le_self _ _) ?_
  cases hb : f.device? g with
  | none => exact Nat.two_pow_pos _
  | some b => exact h.device_lt hb

/-- No page lies on the last block there is. -/
theorem low (h : f.Modest) {groups : List Nat} : ∀ b ∈ groups.map f.pageBlock, b < topBlock := by
  intro b hb
  obtain ⟨g, -, rfl⟩ := List.mem_map.mp hb
  exact Nat.lt_trans (h.pageBlock_lt g) (by decide)

end Modest

end BlockMap

/-! ## 3. One group, as the scan sees it -/

namespace Layout

variable {f : BlockMap}

/-- **What the scan sees at a file block**: the page there comes to a hole, or it is a good group,
or it is neither. -/
theorem group_spec (h : f.blockBits ≤ pageBits) {probe : UInt64}
    (hin : probe.toNat + f.perPage ≤ f.length) :
    match group f.block? (blocksPerPage f.blockBits) probe with
    | .hole => f.Holed probe.toNat
    | .unusable => ¬ f.Good probe.toNat ∧ ¬ f.Holed probe.toNat
    | .usable first => f.Good probe.toNat ∧ f.device? probe.toNat = some first.toNat := by
  have hpos := f.perPage_pos
  rw [group]
  cases hfirst : f.block? probe with
  | none =>
    exact ⟨0, hpos, by rw [Nat.add_zero, BlockMap.device?_toNat, hfirst]; rfl, 0,
      Nat.dvd_zero _, nofun⟩
  | some first =>
    have hhead : f.device? (probe.toNat + 0) = some first.toNat := by
      rw [Nat.add_zero, BlockMap.device?_toNat, hfirst]; rfl
    -- alignment is looked at before the row: a group off the page is unusable, holes or not
    by_cases halign : first &&& (blocksPerPage f.blockBits - 1) = 0
    · have hdvd := (BlockMap.aligned_iff h first).mp halign
      have hplace : ∀ {i : Nat}, i < f.perPage → f.block? (probe + .ofNat i) =
          some (first + .ofNat i) → f.device? (probe.toNat + i) = some (first.toNat + i) := by
        intro i hi hblock
        rw [BlockMap.device?_add, hblock, Option.map_some, BlockMap.aligned_add hdvd hi]
      -- the row starts at the block that was looked at first
      have hrow : row f.block? first (probe + 1) (first + 1)
          ((blocksPerPage f.blockBits).toNat - 1) = row f.block? first probe first f.perPage := by
        obtain ⟨n, hn⟩ := Nat.exists_eq_add_of_lt hpos
        rw [BlockMap.perPage_eq h, hn, Nat.zero_add, Nat.add_sub_cancel, row, hfirst]
        exact (if_pos rfl).symm
      have hspec := @row_spec f.block? first f.perPage probe first
      simp only [halign, ne_eq, not_true_eq_false, if_false, hrow]
      cases hgroup : row f.block? first probe first f.perPage with
      | hole =>
        rw [hgroup] at hspec
        obtain ⟨j, hj, hnone, hall⟩ := hspec
        exact ⟨j, hj, by rw [BlockMap.device?_add, hnone]; rfl, first.toNat, hdvd,
          fun i hi => hplace (Nat.lt_trans hi hj) (hall i hi)⟩
      | unusable =>
        rw [hgroup] at hspec
        obtain ⟨j, hj, ⟨b, hne, hb⟩, hall⟩ := hspec
        have hblock : f.device? (probe.toNat + j) = some b.toNat := by
          rw [BlockMap.device?_add, hb]; rfl
        have hwrong : f.device? (probe.toNat + j) ≠ some (first.toNat + j) := by
          rw [hblock, ← BlockMap.aligned_add hdvd hj]
          exact fun heq => hne (UInt64.toNat_inj.mp (Option.some.inj heq))
        -- a good group has block `j` in place; a holed one has its hole before `j`, where all are
        -- in place, or at `j`, which is none, or behind it, and then `j` is in place
        constructor
        · rintro ⟨-, b', hb', -, hall'⟩
          rw [← Nat.add_zero probe.toNat, hhead] at hb'
          injection hb' with hb'
          exact hwrong (hb' ▸ hall' j hj)
        · rintro ⟨k, hk, hnone, b', -, hall'⟩
          rcases Nat.lt_trichotomy k j with hlt | rfl | hlt
          · rw [hplace hk (hall k hlt)] at hnone
            cases hnone
          · rw [hblock] at hnone
            cases hnone
          · have hb' := hall' 0 (by omega)
            rw [hhead] at hb'
            injection hb' with hb'
            exact hwrong (hb' ▸ hall' j hlt)
      | usable x =>
        rw [hgroup] at hspec
        obtain ⟨rfl, hall⟩ := hspec
        exact ⟨⟨hin, x.toNat, hhead, hdvd, fun j hj => hplace hj (hall j hj)⟩, hhead⟩
    · simp only [halign, ne_eq, not_false_eq_true, if_true]
      -- the block that was looked at first starts no page
      have hstart : ∀ {b : Nat}, f.device? (probe.toNat + 0) = some b → ¬ f.perPage ∣ b := by
        intro b hb hdvd
        rw [hhead] at hb
        injection hb with hb
        exact halign ((BlockMap.aligned_iff h first).mpr (hb ▸ hdvd))
      constructor
      · rintro ⟨-, b, hb, hdvd, -⟩
        exact hstart hb hdvd
      · rintro ⟨k, -, hnone, b, hdvd, hall⟩
        cases k with
        | zero =>
          rw [hhead] at hnone
          cases hnone
        | succ k => exact hstart (hall 0 (Nat.succ_pos k)) hdvd

/-- What a scan looks at is inside the file. -/
theorem Looks.inside_file {limit probe : UInt64} {s : Found} (hbits : f.blockBits ≤ pageBits)
    (h : Looks (blocksPerPage f.blockBits) limit (f.size >>> f.blockBits.toUInt64) probe s) :
    probe.toNat + f.perPage ≤ f.length := by
  have hin := h.inside
  rwa [BlockMap.perPage_eq hbits, BlockMap.length_eq hbits] at hin

/-! ## 4. The scan -/

/-- One more than the distance between the lowest and the highest of `blocks`, 0 if there is
none. -/
def spread (blocks : List Nat) : Nat :=
  match blocks.min?, blocks.max? with
  | some low, some high => 1 + high - low
  | _, _ => 0

/-- **What a scan has found below `probe`**: all the good groups there, and no others.  The first
one holds the header and does not count for the span.  The lowest and the highest block are kept as
the folds the loop computes; that they are a minimum and a maximum is asked once, at the end. -/
structure Discovered (f : BlockMap) (limit probe : UInt64) (s : Found) : Prop where
  lists : s.table.Lists ((f.goodBelow probe.toNat).map f.pageBlock)
  count : s.pages.toNat = (f.goodBelow probe.toNat).length
  extents : s.nrExtents = s.table.length
  within : s.pages ≤ limit
  inside : probe.toNat ≤ f.length
  lowest : s.lowest.toNat =
    (((f.goodBelow probe.toNat).map f.pageBlock).drop 1).foldl min (2 ^ 64 - 1)
  highest : s.highest.toNat = (((f.goodBelow probe.toNat).map f.pageBlock).drop 1).foldl max 0

theorem discovered_start (f : BlockMap) (limit : UInt64) : Discovered f limit 0 {} where
  lists := ExtentTable.lists_nil
  count := rfl
  extents := rfl
  within := UInt64.le_iff_toNat_le.mpr (Nat.zero_le _)
  inside := Nat.zero_le _
  lowest := rfl
  highest := rfl

/-- A group that is not good is passed over by one block. -/
theorem Discovered.skip {limit probe : UInt64} {s : Found} (h : Discovered f limit probe s)
    (hf : f.Sized) (hin : probe.toNat + f.perPage ≤ f.length) (hbad : ¬ f.Good probe.toNat) :
    Discovered f limit (probe + 1) s := by
  have hpos := f.perPage_pos
  have hlen := hf.length_lt
  have hsize : UInt64.size = 2 ^ 64 := rfl
  have hone : (1 : UInt64).toNat = 1 := rfl
  have hnext : (probe + 1).toNat = probe.toNat + 1 := toNat_add_of_lt (by omega)
  have hbelow : f.goodBelow (probe + 1).toNat = f.goodBelow probe.toNat := by
    rw [hnext, BlockMap.goodBelow_succ_of_not hbad]
  refine ⟨?_, ?_, h.extents, h.within, by omega, ?_, ?_⟩
  · rw [hbelow]; exact h.lists
  · rw [hbelow]; exact h.count
  · rw [hbelow]; exact h.lowest
  · rw [hbelow]; exact h.highest

theorem Found.push_ok {s : Found} {block : UInt64} {k : Nat} {t : ExtentTable}
    (hadd : s.table.add ⟨s.pages, 1, block⟩ = .ok (k, t)) :
    s.push block = .ok {
      table := t, nrExtents := s.nrExtents + k, pages := s.pages + 1
      lowest := if s.pages = 0 then s.lowest else min s.lowest block
      highest := if s.pages = 0 then s.highest else max s.highest block } := by
  unfold Found.push
  rw [hadd]
  by_cases h : s.pages = 0
  · simp only [h, if_true]; rfl
  · simp only [h, if_false]; rfl

/-- The blocks of a table end inside a word if those it lists do. -/
theorem blockStop_lt {t : ExtentTable} {blocks : List Nat} (h : t.Lists blocks) {n : Nat}
    (hblocks : ∀ b ∈ blocks, b < n) : ∀ e ∈ t.extents, e.blockStop ≤ n := by
  intro e he
  have hpos := (h.ordered.fits e he).pos
  have hmaps : t.Maps (e.stop - 1) (e.blockOf (e.stop - 1)) :=
    ⟨e, he, ⟨by rw [Extent.stop]; omega, by rw [Extent.stop]; omega⟩, rfl⟩
  have hlast := hblocks _ (List.mem_of_getElem? ((h.maps _ _).mp hmaps))
  rw [Extent.blockOf, Extent.stop] at hlast
  rw [Extent.blockStop]
  omega

/-- The header does not count, and every later page does. -/
theorem foldl_behind_header (op : Nat → Nat → Nat) (init : Nat) (blocks : List Nat) (b : Nat) :
    ((blocks ++ [b]).drop 1).foldl op init =
      if blocks = [] then (blocks.drop 1).foldl op init
      else op ((blocks.drop 1).foldl op init) b := by
  cases blocks with
  | nil => rfl
  | cons x rest =>
    rw [if_neg (List.cons_ne_nil x rest)]
    exact List.foldl_concat op init b rest

theorem toNat_min (a b : UInt64) : (min a b).toNat = min a.toNat b.toNat := by
  have h : min a b = if a ≤ b then a else b := rfl
  rw [h]
  split
  all_goals
    rename_i hle
    rw [UInt64.le_iff_toNat_le] at hle
    omega

theorem toNat_max (a b : UInt64) : (max a b).toNat = max a.toNat b.toNat := by
  have h : max a b = if a ≤ b then b else a := rfl
  rw [h]
  split
  all_goals
    rename_i hle
    rw [UInt64.le_iff_toNat_le] at hle
    omega

/-- A good group is taken, and the scan goes on behind it, unless a page before it lies on the last
block there is. -/
theorem Discovered.take {limit probe first : UInt64} {s : Found} (h : Discovered f limit probe s)
    (hf : f.Sized) (hlow : ∀ b ∈ (f.goodBelow probe.toNat).map f.pageBlock, b < topBlock)
    (hroom : s.pages < limit) (hin : probe.toNat + f.perPage ≤ f.length)
    (hgood : f.Good probe.toNat) (hfirst : f.device? probe.toNat = some first.toNat) :
    ∃ s', s.push (first >>> (pageBits - f.blockBits).toUInt64) = .ok s' ∧
      Discovered f limit (probe + blocksPerPage f.blockBits) s' := by
  have hpos := f.perPage_pos
  have hlen := hf.length_lt
  have hsize : UInt64.size = 2 ^ 64 := rfl
  have hper := BlockMap.perPage_eq hf.bits
  have hnext : (probe + blocksPerPage f.blockBits).toNat = probe.toNat + f.perPage := by
    rw [toNat_add_of_lt (by omega), hper]
  have hbelow := BlockMap.goodBelow_behind hgood
  have hblock : (first >>> (pageBits - f.blockBits).toUInt64).toNat = f.pageBlock probe.toNat := by
    rw [BlockMap.shifted_eq hf.bits, BlockMap.pageBlock, hfirst]; rfl
  have hblocks : (f.goodBelow (probe + blocksPerPage f.blockBits).toNat).map f.pageBlock =
      (f.goodBelow probe.toNat).map f.pageBlock ++ [f.pageBlock probe.toNat] := by
    rw [hnext, hbelow, List.map_append]; rfl
  have hlimit : limit.toNat < UInt64.size := limit.toNat_lt
  have hroom' : s.pages.toNat < limit.toNat := UInt64.lt_iff_toNat_lt.mp hroom
  have hcount := h.count
  have hone : (1 : UInt64).toNat = 1 := rfl
  have hpages : (s.pages + 1).toNat = s.pages.toNat + 1 := toNat_add_of_lt (by omega)
  -- the loop tells the header by its number, the folds by the list being empty
  have hnone : s.pages = 0 ↔ (f.goodBelow probe.toNat).map f.pageBlock = [] := by
    rw [← UInt64.toNat_inj, hcount, List.map_eq_nil_iff, ← List.length_eq_zero_iff]
    exact Iff.rfl
  rcases @ExtentTable.Lists.push _ _ h.lists _ (first >>> (pageBits - f.blockBits).toUInt64)
      (hcount.trans (List.length_map _).symm) (by rw [List.length_map]; omega) with
    ⟨k, t, hadd, hlists, hlength⟩ | ⟨-, e, he, hover⟩
  · refine ⟨_, Found.push_ok hadd, ?_, ?_, ?_, ?_, ?_, ?_, ?_⟩
    · rw [hblocks, ← hblock]; exact hlists
    · rw [hpages, hnext, hbelow, List.length_append, hcount]; rfl
    · show s.nrExtents + k = t.length
      rw [hlength, h.extents]
    · rw [UInt64.le_iff_toNat_le, hpages]; exact hroom'
    · rw [hnext]; exact hin
    · rw [hblocks, foldl_behind_header, ← h.lowest, ← hblock]
      simp only [hnone, apply_ite UInt64.toNat, toNat_min]
    · rw [hblocks, foldl_behind_header, ← h.highest, ← hblock]
      simp only [hnone, apply_ite UInt64.toNat, toNat_max]
  · -- the sum that did not fit is the end of an extent, and they all end by the top block
    have hstop := blockStop_lt h.lists hlow e he
    have htop : topBlock + 1 = UInt64.size := rfl
    omega

/-- **A scan at `probe`.**  It has not gone past a page that comes to a hole, no page it has found
reaches past the probe, and of these pages only the last one may lie on the last block there is:
with two, the second could not have been added. -/
structure Passed (f : BlockMap) (limit probe : UInt64) (s : Found) : Prop
    extends Discovered f limit probe s where
  whole : f.WholeBelow probe.toNat
  clear : f.Clear probe.toNat
  low : ∀ b ∈ ((f.goodBelow probe.toNat).map f.pageBlock).dropLast, b < topBlock

theorem passed_start (f : BlockMap) (limit : UInt64) : Passed f limit 0 {} where
  toDiscovered := discovered_start f limit
  whole := fun g hg => absurd hg (Nat.not_lt_zero g)
  clear := fun g hg => absurd hg (Nat.not_lt_zero g)
  low := fun _ hb => absurd hb List.not_mem_nil

section

variable {limit probe first : UInt64} {s : Found}

theorem Passed.skip (h : Passed f limit probe s) (hf : f.Sized)
    (hin : probe.toNat + f.perPage ≤ f.length) (hbad : ¬ f.Good probe.toNat)
    (hwhole : ¬ f.Holed probe.toNat) : Passed f limit (probe + 1) s := by
  have hlen := hf.length_lt
  have hsize : UInt64.size = 2 ^ 64 := rfl
  have hone : (1 : UInt64).toNat = 1 := rfl
  have hnext : (probe + 1).toNat = probe.toNat + 1 := toNat_add_of_lt (by omega)
  refine ⟨h.toDiscovered.skip hf hin hbad, ?_, ?_, ?_⟩
  · rw [hnext]
    exact h.whole.skip hwhole
  · rw [hnext]
    exact h.clear.skip hbad
  · rw [hnext, BlockMap.goodBelow_succ_of_not hbad]
    exact h.low

/-- The page behind one on the last block there is cannot be added. -/
theorem Passed.push (h : Passed f limit probe s) (hf : f.Sized) (hroom : s.pages < limit)
    (hin : probe.toNat + f.perPage ≤ f.length) (hgood : f.Good probe.toNat)
    (hfirst : f.device? probe.toNat = some first.toNat) :
    (∃ s', s.push (first >>> (pageBits - f.blockBits).toUInt64) = .ok s' ∧
        Passed f limit (probe + blocksPerPage f.blockBits) s') ∨
      s.push (first >>> (pageBits - f.blockBits).toUInt64) = .error (.fault (.overflow .add)) ∧
        ((f.goodBelow probe.toNat).map f.pageBlock).getLast? = some topBlock := by
  have hlen := hf.length_lt
  have hle := f.perPage_le
  have hsize : UInt64.size = 2 ^ 64 := rfl
  have htop : topBlock + 1 = UInt64.size := rfl
  have hcount := h.count
  have hnext : (probe + blocksPerPage f.blockBits).toNat = probe.toNat + f.perPage := by
    rw [toNat_add_of_lt (by rw [BlockMap.perPage_eq hf.bits]; omega), BlockMap.perPage_eq hf.bits]
  -- below the last block, a group is taken as any other
  have htake : (∀ b ∈ (f.goodBelow probe.toNat).map f.pageBlock, b < topBlock) →
      ∃ s', s.push (first >>> (pageBits - f.blockBits).toUInt64) = .ok s' ∧
        Passed f limit (probe + blocksPerPage f.blockBits) s' := by
    intro hlow
    obtain ⟨s', hpush, hs'⟩ := h.toDiscovered.take hf hlow hroom hin hgood hfirst
    refine ⟨s', hpush, hs', ?_, ?_, ?_⟩
    · rw [hnext]
      exact h.whole.take hgood
    · rw [hnext]
      exact BlockMap.Clear.take hgood
    · rw [hnext, BlockMap.goodBelow_behind hgood, List.map_append, List.map_singleton,
        List.dropLast_concat]
      exact hlow
  -- what decides is the last page found, the one `low` says nothing of
  rcases List.eq_nil_or_concat' ((f.goodBelow probe.toNat).map f.pageBlock) with
    hnil | ⟨init, b, hb⟩
  · exact Or.inl (htake (by rw [hnil]; exact nofun))
  by_cases hlast : b = topBlock
  · subst hlast
    have hlists := h.lists
    rw [hb] at hlists
    have hpages : s.pages.toNat = init.length + 1 := by
      rw [hcount, ← List.length_map f.pageBlock, hb, List.length_append]
      rfl
    refine Or.inr ⟨?_, by rw [hb, List.getLast?_concat]⟩
    unfold Found.push
    rw [hlists.add_top hpages]
    rfl
  · have hword : b < UInt64.size := by
      obtain ⟨g, -, hg⟩ := List.mem_map.mp (hb ▸ List.mem_concat_self)
      exact hg ▸ f.pageBlock_lt_size g
    have hlow := h.low
    rw [hb, List.dropLast_concat] at hlow
    refine Or.inl (htake fun b' hb' => ?_)
    rw [hb] at hb'
    rcases List.mem_append.mp hb' with hb' | hb'
    · exact hlow b' hb'
    · rw [List.mem_singleton.mp hb']
      omega

end

/-- **Where a scan ends**, in numbers of the file.  Of the ends of `ScanEnds` one is missing: in a
sized file every probe has a page behind it that has a number. -/
inductive Ended (f : BlockMap) (limit : UInt64) : Except Stop Found → Prop
  /-- There is no room for another page, or none is wanted. -/
  | complete {probe : UInt64} {s : Found} (h : Passed f limit probe s)
    (hstop : ¬ (probe.toNat + f.perPage ≤ f.length ∧ s.pages < limit)) : Ended f limit (.ok s)
  /-- The page at the probe comes to a hole. -/
  | hole {probe : UInt64} {s : Found} (h : Passed f limit probe s)
    (hin : probe.toNat + f.perPage ≤ f.length) (hroom : s.pages < limit)
    (hholed : f.Holed probe.toNat) : Ended f limit (.error (.refused .hole))
  /-- There is a page at the probe, and the page before it lies on the last block there is. -/
  | overflow {probe : UInt64} {s : Found} (h : Passed f limit probe s)
    (hin : probe.toNat + f.perPage ≤ f.length) (hroom : s.pages < limit)
    (hgood : f.Good probe.toNat)
    (htop : ((f.goodBelow probe.toNat).map f.pageBlock).getLast? = some topBlock) :
    Ended f limit (.error (.fault (.overflow .add)))

/-- **The scan** goes on from probe to probe until it ends. -/
theorem scanFrom_ended (hf : f.Sized) {limit probe : UInt64} {s : Found}
    (h : Passed f limit probe s) :
    Ended f limit (scanFrom f.block? (blocksPerPage f.blockBits) (pageBits - f.blockBits).toUInt64
      limit (f.size >>> f.blockBits.toUInt64) probe s) := by
  have hends : ScanEnds f.block? (blocksPerPage f.blockBits) (pageBits - f.blockBits).toUInt64 limit
      (f.size >>> f.blockBits.toUInt64) (Passed f limit)
      (scanFrom f.block? (blocksPerPage f.blockBits) (pageBits - f.blockBits).toUInt64 limit
        (f.size >>> f.blockBits.toUInt64) probe s) := by
    refine scanFrom_induction (fun {probe s} h hlooks hgroup => ?_)
      (fun {probe s first s'} h hlooks hgroup hpush => ?_) h
    · have hin := hlooks.inside_file hf.bits
      have hspec := group_spec hf.bits hin
      rw [hgroup] at hspec
      exact h.skip hf hin hspec.1 hspec.2
    · have hin := hlooks.inside_file hf.bits
      have hspec := group_spec hf.bits hin
      rw [hgroup] at hspec
      rcases h.push hf hlooks.wanted hin hspec.1 hspec.2 with
        ⟨s'', hok, hs''⟩ | ⟨hfault, -⟩
      · exact Except.ok.inj (hpush.symm.trans hok) ▸ hs''
      · cases hpush.symm.trans hfault
  generalize scanFrom f.block? (blocksPerPage f.blockBits) (pageBits - f.blockBits).toUInt64 limit
    (f.size >>> f.blockBits.toUInt64) probe s = answer at hends
  cases hends with
  | complete h hfits hstop =>
    rw [BlockMap.perPage_eq hf.bits, BlockMap.length_eq hf.bits] at hstop
    refine .complete h fun hmore => hstop ⟨hmore.1, hmore.2, fun hzero => ?_⟩
    have hper := BlockMap.perPage_eq hf.bits
    rw [hzero] at hper
    exact absurd hper (Nat.ne_of_lt f.perPage_pos)
  | hole h hlooks hgroup =>
    have hin := hlooks.inside_file hf.bits
    have hspec := group_spec hf.bits hin
    rw [hgroup] at hspec
    exact .hole h hin hlooks.wanted hspec
  | unadded h hlooks hgroup hpush =>
    have hin := hlooks.inside_file hf.bits
    have hspec := group_spec hf.bits hin
    rw [hgroup] at hspec
    rcases h.push hf hlooks.wanted hin hspec.1 hspec.2 with ⟨s', hok, -⟩ | ⟨hfault, htop⟩
    · cases hpush.symm.trans hok
    · exact Except.error.inj (hfault.symm.trans hpush) ▸
        .overflow h hin hlooks.wanted hspec.1 htop
  | beyond h hover =>
    rw [BlockMap.perPage_eq hf.bits] at hover
    have hin := h.inside
    have hlt := hf.length_lt
    have hle := f.perPage_le
    have hsize : UInt64.size = 2 ^ 64 := rfl
    omega

/-- **The scan of a modest file** finds every good group below the block at which it stops, or there
is a hole. -/
theorem scanFrom_discovers (hm : f.Modest) {limit probe : UInt64} {s : Found}
    (h : Passed f limit probe s) :
    match scanFrom f.block? (blocksPerPage f.blockBits) (pageBits - f.blockBits).toUInt64 limit
        (f.size >>> f.blockBits.toUInt64) probe s with
    | .ok s' => ∃ probe', Discovered f limit probe' s' ∧
        ¬ (probe'.toNat + f.perPage ≤ f.length ∧ s'.pages < limit)
    | .error _ => ∃ i < f.length, f.device? i = none := by
  have hended := scanFrom_ended hm.sized h
  generalize scanFrom f.block? (blocksPerPage f.blockBits) (pageBits - f.blockBits).toUInt64 limit
    (f.size >>> f.blockBits.toUInt64) probe s = answer at hended
  cases hended with
  | complete h hstop => exact ⟨_, h.toDiscovered, hstop⟩
  | hole h hin hroom hholed =>
    obtain ⟨j, hj, hnone, -⟩ := hholed
    exact ⟨_, by omega, hnone⟩
  | overflow h hin hroom hgood htop =>
    have hlow := hm.low _ (List.mem_of_mem_getLast? (Option.mem_def.mpr htop))
    exact absurd hlow (Nat.lt_irrefl _)

/-- The groups below the block at which a scan stops are those it was asked for.  It stops for one
of two reasons, and for either the list is the same prefix: as many as were wanted, or all there
are. -/
theorem Discovered.groups {limit probe : UInt64} {s : Found} (h : Discovered f limit probe s)
    (hstop : ¬ (probe.toNat + f.perPage ≤ f.length ∧ s.pages < limit)) :
    f.goodBelow probe.toNat = f.goodGroups.take limit.toNat := by
  have hwithin : s.pages.toNat ≤ limit.toNat := UInt64.le_iff_toNat_le.mp h.within
  have hcount := h.count
  by_cases hmore : probe.toNat + f.perPage ≤ f.length
  · -- the limit is reached
    have hfull : ¬ s.pages.toNat < limit.toNat :=
      fun hlt => hstop ⟨hmore, UInt64.lt_iff_toNat_lt.mpr hlt⟩
    have hlead := List.prefix_iff_eq_take.mp (BlockMap.goodBelow_prefix h.inside)
    rw [hlead]
    congr 1
    omega
  · -- the end of the file is reached
    rw [BlockMap.goodBelow_all h.inside (by omega)] at hcount ⊢
    rw [List.take_of_length_le (by omega)]

/-- The span of what was found, if no page lies on the last block there is. -/
theorem Discovered.span {limit probe : UInt64} {s : Found} (h : Discovered f limit probe s)
    (hbound : ∀ b ∈ ((f.goodBelow probe.toNat).map f.pageBlock).drop 1, b < topBlock) :
    ∃ span, s.span = .ok span ∧
      span.toNat = spread (((f.goodBelow probe.toNat).map f.pageBlock).drop 1) := by
  have hlow := h.lowest
  have hhigh := h.highest
  have htop : topBlock = 2 ^ 64 - 1 := rfl
  unfold Found.span
  generalize ((f.goodBelow probe.toNat).map f.pageBlock).drop 1 = blocks at hlow hhigh hbound
  cases blocks with
  | nil =>
    -- the lowest block is still what the scan started with, which stands for none
    have hnone : s.lowest = 0xffffffffffffffff := UInt64.toNat_inj.mp hlow
    exact ⟨0, by rw [if_pos hnone]; rfl, rfl⟩
  | cons b rest =>
    have hmin : (b :: rest).min? = some s.lowest.toNat := by
      have hb := hbound b List.mem_cons_self
      rw [List.min?_cons', hlow, List.foldl_cons, Nat.min_eq_right (by omega)]
    have hmax : (b :: rest).max? = some s.highest.toNat := by
      rw [List.max?_cons', hhigh, List.foldl_cons, Nat.zero_max]
    obtain ⟨hlowest, hbelow⟩ := List.min?_eq_some_iff.mp hmin
    obtain ⟨hhighest, habove⟩ := List.max?_eq_some_iff.mp hmax
    have hlow' := hbound _ hlowest
    have hhigh' := hbound _ hhighest
    have hle : s.lowest.toNat ≤ s.highest.toNat :=
      Nat.le_trans (hbelow b List.mem_cons_self) (habove b List.mem_cons_self)
    -- a lowest block that was found is not taken for none, since it is below the top block
    have hsome : s.lowest ≠ 0xffffffffffffffff := by
      intro hnone
      rw [hnone] at hlow'
      exact absurd hlow' (Nat.lt_irrefl _)
    have hone : (1 : UInt64).toNat = 1 := rfl
    have hsize : UInt64.size = 2 ^ 64 := rfl
    have hfits : (1 : UInt64).toNat + s.highest.toNat < UInt64.size := by omega
    refine ⟨1 + s.highest - s.lowest, ?_, ?_⟩
    · rw [if_neg hsome, addWord_ok hfits]
      rfl
    · have hsum := toNat_add_of_lt hfits
      rw [UInt64.toNat_sub_of_le _ _ (by rw [UInt64.le_iff_toNat_le]; omega), hsum, spread, hmin,
        hmax]
      rfl

/-- A scan that is not given up ends with what was asked for. -/
theorem scan_of_found (hm : f.Modest) {limit : UInt64} {s : Found}
    (hfound : scanFrom f.block? (blocksPerPage f.blockBits) (pageBits - f.blockBits).toUInt64
      limit (f.size >>> f.blockBits.toUInt64) 0 {} = .ok s) :
    ∃ probe span, Discovered f limit probe s ∧
      f.goodBelow probe.toNat = f.goodGroups.take limit.toNat ∧
      span.toNat = spread ((f.pageBlocks limit.toNat).drop 1) ∧
      scan f limit = .ok (s.table,
        { nrExtents := s.nrExtents, max := max s.pages 1, pages := max s.pages 1 - 1
          span }) := by
  have hscan := scanFrom_discovers hm (passed_start f limit)
  rw [hfound] at hscan
  obtain ⟨probe, hs, hstop⟩ := hscan
  obtain ⟨span, hspan, hspread⟩ := hs.span fun b hb => hm.low b (List.mem_of_mem_drop hb)
  have hgroups := hs.groups hstop
  refine ⟨probe, span, hs, hgroups, ?_, ?_⟩
  · rw [hspread, hgroups]; rfl
  · rw [scan_of_ok hm.bits hfound, hspan]

/-- A scan of a modest file meets a hole, or it ends with what was asked for. -/
theorem scan_discovers (hm : f.Modest) (limit : UInt64) :
    (∃ e, scan f limit = .error e ∧ ∃ i < f.length, f.device? i = none) ∨
      ∃ probe s span, Discovered f limit probe s ∧
        f.goodBelow probe.toNat = f.goodGroups.take limit.toNat ∧
        span.toNat = spread ((f.pageBlocks limit.toNat).drop 1) ∧
        scan f limit = .ok (s.table,
          { nrExtents := s.nrExtents, max := max s.pages 1, pages := max s.pages 1 - 1
            span }) := by
  have hscan := scanFrom_discovers hm (passed_start f limit)
  rcases hfound : scanFrom f.block? (blocksPerPage f.blockBits) (pageBits - f.blockBits).toUInt64
      limit (f.size >>> f.blockBits.toUInt64) 0 {} with e | s
  · rw [hfound] at hscan
    exact Or.inl ⟨e, scan_of_error hm.bits hfound, hscan⟩
  · obtain ⟨probe, span, hs⟩ := scan_of_found hm hfound
    exact Or.inr ⟨probe, s, span, hs⟩

end Layout

open Layout in
/-- **A scan finds exactly the usable pages of a file.**  Page `o` of the table it makes is the
`o`th good group of the file, for as many groups as it was asked for; no two of them overlap; and
the dimensions it reports are those of the pages found.  It succeeds if the file has no hole. -/
theorem scan_finds_the_good_groups {f : BlockMap} (hm : f.Modest) (limit : UInt64) :
    (∀ table dims, scan f limit = .ok (table, dims) →
      (∀ o, table.map? o = .ok ((f.pageBlocks limit.toNat)[o.toNat]?.map UInt64.ofNat)) ∧
      dims.max.toNat = max (min limit.toNat f.goodGroups.length) 1 ∧
      dims.pages = dims.max - 1 ∧
      dims.nrExtents = table.length ∧
      table.length = ((f.pageBlocks limit.toNat).splitBy nextBlock).length ∧
      dims.span.toNat = spread ((f.pageBlocks limit.toNat).drop 1)) ∧
    f.goodGroups.Pairwise (fun g g' => g + f.perPage ≤ g') ∧
    ((∀ i < f.length, f.device? i ≠ none) → ∃ table dims, scan f limit = .ok (table, dims)) := by
  refine ⟨fun table dims hok => ?_, ?_, fun hfull => ?_⟩
  · rcases scan_discovers hm limit with ⟨e, herror, -⟩ | ⟨probe, s, span, hs, hgroups, hspan, hscan⟩
    · rw [hok] at herror
      exact absurd herror nofun
    rw [hok] at hscan
    injection hscan with hscan
    injection hscan with htable hdims
    subst htable hdims
    have hlists := hs.lists
    rw [hgroups] at hlists
    refine ⟨fun o => ?_, ?_, rfl, hs.extents, ?_, hspan⟩
    · refine hlists.map?_eq (fun b hb => ?_) o
      obtain ⟨g, -, rfl⟩ := List.mem_map.mp hb
      exact Nat.lt_trans (hm.pageBlock_lt g) (by decide)
    · rw [toNat_max, hs.count, hgroups, List.length_take]
      rfl
    · have hruns := congrArg List.length hlists.runs
      rw [List.length_map] at hruns
      exact hruns.symm
  · refine List.Pairwise.imp_of_mem (fun {g g'} hg hg' hlt => ?_)
      (List.Pairwise.filter _ List.pairwise_lt_range)
    exact BlockMap.Good.apart (by simpa using (List.mem_filter.mp hg).2)
      (by simpa using (List.mem_filter.mp hg').2) hlt
  · rcases scan_discovers hm limit with ⟨-, -, i, hi, hnone⟩ | ⟨probe, s, span, -, -, -, hscan⟩
    · exact absurd hnone (hfull i hi)
    · exact ⟨_, _, hscan⟩

/-- A file of nine blocks, two to a page, in which pages start at blocks 3, 5 and 7. -/
def splitFile : BlockMap where
  blockBits := 11
  size := 9 * 2048
  block? i := [9, 20, 23, 40, 41, 44, 45, 46, 47][i.toNat]?

/-- Two of the three pages lie next to each other. -/
theorem split_file_has_three_pages :
    splitFile.Modest ∧ ∃ table dims, Layout.scan splitFile 8 = .ok (table, dims) ∧
      table.map? 0 = .ok (some 20) ∧ table.map? 2 = .ok (some 23) ∧ table.map? 3 = .ok none ∧
      dims.max.toNat = 3 ∧ table.length = 2 ∧ dims.span.toNat = 2 := by
  have hm : splitFile.Modest := by
    refine ⟨by decide, by decide, fun i b hb => ?_⟩
    have hall : ([9, 20, 23, 40, 41, 44, 45, 46, 47] : List UInt64).all (·.toNat < 2 ^ 63) := by
      decide
    exact of_decide_eq_true (List.all_eq_true.mp hall b (List.mem_of_getElem? hb))
  have hgroups : splitFile.goodGroups = [3, 5, 7] := by decide
  have hblocks : splitFile.pageBlocks 8 = [20, 22, 23] := by
    rw [BlockMap.pageBlocks, hgroups]; decide
  obtain ⟨hright, -, hdone⟩ := scan_finds_the_good_groups hm 8
  obtain ⟨table, dims, hok⟩ := hdone (by decide)
  obtain ⟨hmaps, hmax, -, -, hruns, hspan⟩ := hright table dims hok
  have height : (8 : UInt64).toNat = 8 := rfl
  rw [height, hblocks] at hruns hspan
  rw [height, hgroups] at hmax
  refine ⟨hm, table, dims, hok, ?_, ?_, ?_, hmax, hruns, hspan⟩
  all_goals rw [hmaps, height, hblocks]; rfl

end PageSwap
