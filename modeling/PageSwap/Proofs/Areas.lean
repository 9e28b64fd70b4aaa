/-
# What an area maps

Bringing an area up fixes a list of page blocks, and page `o` of the area lies on the `o`th of them.
For a whole device and for a file reached through its file system the blocks are `0, 1, 2, ...`; for
a mapped file they are the aligned groups the scan found, in the order of the file.

The invariant of the scan is `Layout.Scanned`, and it speaks of the LIST of pages taken so far,
which the scan itself does not keep.  What it does keep, a table, a number and the lowest and
highest block, cannot carry the proof: the table forgets at which file block a page starts, and that
is what tells two pages apart when one asks whether they share storage.  With the list at hand the
table is `ExtentTable.Lists` of it, page for page, so that taking a page appends one entry on both
sides and nobody asks whether the table made a new extent of it or a longer last one.

The loop is gone through once, by `Layout.scanFrom_induction`.  It takes any `I` that passing over a
block and taking a page keep, and says with what a scan ends (`Layout.ScanEnds`); that the scan
finds every good group and that it passes over no hole are two more such `I`, in modules of their
own.

* `Layout.scanFrom_induction` -- what each step of a scan keeps, the scan keeps.
* `Layout.Scanned`, `Layout.scan_spec` -- what it has found, and what it answers.
* `Area.Ground.plan_spec` -- what an area is brought up with, and what can go wrong.
* `activate_spec`, `activate_wp`, `swapOn_wp`, `swapOn_ok` -- bringing an area up.
* `Area.BroughtUp.apart` -- no two pages of an area lie on one block, and sectors of blocks fit.
* `Area.sector_eq_ok_iff`, `Area.position_eq_ok_iff` -- where the slot of a page lies.
-/
import Mathlib.Algebra.Group.Nat.Defs
import Mathlib.Data.List.Nodup
import PageSwap.Proofs.Extents
import PageSwap.Proofs.Run

namespace PageSwap

/-! ## 1. Tables that list blocks -/

namespace ExtentTable

/-- Page `o` lies on the `o`th of `blocks`, and there are no other pages. -/
structure Lists (t : ExtentTable) (blocks : List Nat) : Prop where
  ordered : t.Ordered
  merged : t.Merged
  -- follows from `maps`; here so that the next page is seen to come behind every extent
  stop : ∀ e ∈ t.extents, e.stop ≤ blocks.length
  maps : ∀ o b, t.Maps o b ↔ blocks[o]? = some b

theorem lists_nil : Lists {} [] where
  ordered := ordered_empty
  merged := merged_empty
  stop := nofun
  maps := by
    intro o b
    constructor
    · rintro ⟨e, he, -⟩
      exact absurd he List.not_mem_nil
    · intro h
      rw [List.getElem?_nil] at h
      exact absurd h nofun

theorem getElem?_range_iff {n o b : Nat} : (List.range n)[o]? = some b ↔ o < n ∧ o = b := by
  rw [List.getElem?_eq_some_iff]
  constructor
  · rintro ⟨h, hb⟩
    rw [List.getElem_range] at hb
    exact ⟨by simpa using h, hb⟩
  · rintro ⟨h, hb⟩
    exact ⟨by simpa using h, by rw [List.getElem_range]; exact hb⟩

/-- One more page at the end. -/
theorem Lists.push {t : ExtentTable} {blocks : List Nat} (h : t.Lists blocks) {n block : UInt64}
    (hn : n.toNat = blocks.length) (hsize : blocks.length + 1 < UInt64.size) :
    (∃ k t', t.add ⟨n, 1, block⟩ = .ok (k, t') ∧ t'.Lists (blocks ++ [block.toNat]) ∧
        t'.length = t.length + k) ∨
      t.add ⟨n, 1, block⟩ = .error (.fault (.overflow .add)) ∧
        ∃ e ∈ t.extents, UInt64.size ≤ e.blockStop := by
  have hstop : (⟨n, 1, block⟩ : Extent).stop = blocks.length + 1 := by
    show n.toNat + (1 : UInt64).toNat = _
    rw [hn]; rfl
  have hfits : (⟨n, 1, block⟩ : Extent).Fits := by
    refine ⟨Nat.one_pos, by rw [hstop]; exact hsize, ?_⟩
    show block.toNat + 1 ≤ UInt64.size
    exact block.toNat_lt
  have hbefore : ∀ e ∈ t.extents, e.Before ⟨n, 1, block⟩ := by
    intro e he
    have := h.stop e he
    show e.stop ≤ n.toNat
    omega
  -- `k` is 1 for a new extent and 0 for a longer last one: the blocks are the same
  rcases add_at_end h.ordered h.merged hfits hbefore with ⟨k, t', hadd, hend⟩ | hadd
  · refine Or.inl ⟨k, t', hadd, ⟨hend.ordered, hend.merged, fun e he => ?_, fun o b => ?_⟩,
      hend.length⟩
    · rw [List.length_append]
      exact hstop ▸ hend.stop e he
    · have hnew : (⟨n, 1, block⟩ : Extent).Holds o ∧ (⟨n, 1, block⟩ : Extent).blockOf o = b ↔
          o = blocks.length ∧ b = block.toNat := by
        unfold Extent.Holds Extent.blockOf
        rw [hstop]
        show (n.toNat ≤ o ∧ o < blocks.length + 1) ∧ block.toNat + (o - n.toNat) = b ↔ _
        omega
      rw [hend.maps, h.maps, hnew, List.getElem?_append]
      -- an old page, the new one, or none
      by_cases ho : o < blocks.length
      · rw [if_pos ho]
        constructor
        · rintro (hb | ⟨hb, -⟩)
          · exact hb
          · omega
        · exact Or.inl
      · rw [if_neg ho, List.getElem?_eq_none (by omega), List.getElem?_singleton]
        by_cases ho' : o = blocks.length
        · subst ho'
          simp [eq_comm]
        · rw [if_neg (by omega)]
          simp [ho']
  · exact Or.inr hadd

/-- A single extent lists its blocks. -/
theorem lists_range {max : UInt64} (hmax : max ≠ 0) :
    (∃ k t, ExtentTable.add {} ⟨0, max, 0⟩ = .ok (k, t) ∧ t.Lists (List.range max.toNat)) ∨
      ExtentTable.add {} ⟨0, max, 0⟩ = .error (.fault (.overflow .add)) := by
  have hstop : (⟨0, max, 0⟩ : Extent).stop = max.toNat := Nat.zero_add _
  have hpos : 0 < max.toNat := by
    rcases Nat.eq_zero_or_pos max.toNat with h | h
    · exact absurd (UInt64.toNat_inj.mp h) hmax
    · exact h
  have hfits : (⟨0, max, 0⟩ : Extent).Fits := by
    refine ⟨hpos, by rw [hstop]; exact max.toNat_lt, ?_⟩
    show (0 : UInt64).toNat + max.toNat ≤ UInt64.size
    rw [UInt64.toNat_zero, Nat.zero_add]
    exact Nat.le_of_lt max.toNat_lt
  rcases add_at_end ordered_empty merged_empty hfits (fun e he => absurd he List.not_mem_nil) with
    ⟨k, t, hadd, hend⟩ | ⟨hadd, -⟩
  · refine Or.inl ⟨k, t, hadd, hend.ordered, hend.merged, fun e he => ?_, fun o b => ?_⟩
    · rw [List.length_range]
      exact hstop ▸ hend.stop e he
    · rw [hend.maps, getElem?_range_iff]
      unfold Extent.Holds Extent.blockOf
      rw [hstop]
      show Maps {} o b ∨ ((0 : UInt64).toNat ≤ o ∧ o < max.toNat) ∧
        (0 : UInt64).toNat + (o - (0 : UInt64).toNat) = b ↔ _
      rw [UInt64.toNat_zero]
      constructor
      · rintro (⟨e, he, -⟩ | h)
        · exact absurd he List.not_mem_nil
        · omega
      · intro h
        exact Or.inr (by omega)
  · exact Or.inr hadd

end ExtentTable

/-! ## 2. The scan of a file -/

namespace Layout

/-- What a row is depends on the first of its blocks that is not in place. -/
theorem row_spec (block? : UInt64 → Option UInt64) (first : UInt64) :
    ∀ (n : Nat) {file device : UInt64},
      match row block? first file device n with
      | .hole => ∃ j < n, block? (file + .ofNat j) = none ∧
          ∀ i < j, block? (file + .ofNat i) = some (device + .ofNat i)
      | .unusable => ∃ j < n, (∃ b ≠ device + .ofNat j, block? (file + .ofNat j) = some b) ∧
          ∀ i < j, block? (file + .ofNat i) = some (device + .ofNat i)
      | .usable x => x = first ∧ ∀ j < n, block? (file + .ofNat j) = some (device + .ofNat j) := by
  intro n
  induction n with
  | zero =>
    intro file device
    exact ⟨rfl, nofun⟩
  | succ n ih =>
    intro file device
    have hzero : ∀ x : UInt64, x + .ofNat 0 = x := UInt64.add_zero
    -- the `j`th block of the rest is the one behind it
    have hshift : ∀ (x : UInt64) (j : Nat), x + 1 + .ofNat j = x + .ofNat (j + 1) := by
      intro x j
      rw [UInt64.ofNat_add, UInt64.add_assoc, UInt64.add_comm 1]
      rfl
    have hnext := @ih (file + 1) (device + 1)
    simp only [hshift] at hnext
    rw [row]
    cases hb : block? file with
    | none => exact ⟨0, Nat.succ_pos n, by rw [hzero]; exact hb, nofun⟩
    | some b =>
      by_cases hplace : b = device
      · subst hplace
        -- with its first block in place, the row is what the rest is
        have hall : ∀ {j : Nat}, (∀ i < j, block? (file + .ofNat (i + 1)) =
            some (b + .ofNat (i + 1))) → ∀ i < j + 1, block? (file + .ofNat i) =
            some (b + .ofNat i) := by
          intro j hrest i hi
          cases i with
          | zero => rw [hzero, hzero]; exact hb
          | succ i => exact hrest i (by omega)
        simp only [if_true]
        cases hrow : row block? first (file + 1) (b + 1) n with
        | hole =>
          rw [hrow] at hnext
          obtain ⟨j, hj, hnone, hrest⟩ := hnext
          exact ⟨j + 1, by omega, hnone, hall hrest⟩
        | unusable =>
          rw [hrow] at hnext
          obtain ⟨j, hj, hother, hrest⟩ := hnext
          exact ⟨j + 1, by omega, hother, hall hrest⟩
        | usable x =>
          rw [hrow] at hnext
          obtain ⟨hx, hrest⟩ := hnext
          exact ⟨hx, hall hrest⟩
      · simp only [hplace, if_false]
        exact ⟨0, Nat.succ_pos n, ⟨b, by rw [hzero]; exact hplace, by rw [hzero]; exact hb⟩, nofun⟩

/-- A usable group starts at the block of its first file block, which is aligned. -/
theorem group_usable {block? : UInt64 → Option UInt64} {perPage file first : UInt64}
    (h : group block? perPage file = .usable first) :
    block? file = some first ∧ first &&& (perPage - 1) = 0 := by
  unfold group at h
  split at h
  · exact absurd h nofun
  · rename_i first' hfirst
    split at h
    · exact absurd h nofun
    · rename_i halign
      have hrow := @row_spec block? first' (perPage.toNat - 1) (file + 1) (first' + 1)
      rw [h] at hrow
      exact ⟨hrow.1 ▸ hfirst, by simpa [hrow.1] using halign⟩

section

variable {block? : UInt64 → Option UInt64} {perPage shift limit last probe probe' first : UInt64}
  {pages : List (UInt64 × UInt64)} {s : Found}

/-- The scan looks at the page at `probe`: the test its loop makes.  The loop takes any numbers, and
a page of no blocks would keep it where it is, hence `pos`. -/
structure Looks (perPage limit last probe : UInt64) (s : Found) : Prop where
  fits : probe.toNat + perPage.toNat < UInt64.size
  inside : probe.toNat + perPage.toNat ≤ last.toNat
  wanted : s.pages < limit
  pos : perPage ≠ 0

theorem Looks.perPage_pos (h : Looks perPage limit last probe s) : 0 < perPage.toNat :=
  Nat.pos_of_ne_zero fun hzero => h.pos (UInt64.toNat_inj.mp hzero)

theorem Looks.toNat_next (h : Looks perPage limit last probe s) :
    (probe + 1).toNat = probe.toNat + 1 := by
  have hpos := h.perPage_pos
  have hfits := h.fits
  have hone : (1 : UInt64).toNat = 1 := rfl
  rw [toNat_add_of_lt (by omega), hone]

theorem Looks.lt_next (h : Looks perPage limit last probe s) : probe < probe + 1 := by
  rw [UInt64.lt_iff_toNat_lt, h.toNat_next]
  exact Nat.lt_succ_self _

theorem Looks.lt_behind (h : Looks perPage limit last probe s) : probe < probe + perPage := by
  rw [UInt64.lt_iff_toNat_lt, toNat_add_of_lt h.fits]
  exact Nat.lt_add_of_pos_right h.perPage_pos

/-- There is a number for the page. -/
theorem Looks.room (h : Looks perPage limit last probe s) : s.pages.toNat + 1 < UInt64.size :=
  Nat.lt_of_le_of_lt (UInt64.lt_iff_toNat_lt.mp h.wanted) limit.toNat_lt

/-- **How a scan ends** that keeps `I` at each of its probes, and what is known there. -/
inductive ScanEnds (block? : UInt64 → Option UInt64) (perPage shift limit last : UInt64)
    (I : UInt64 → Found → Prop) : Except Stop Found → Prop
  /-- There is no room for another page, or none is wanted. -/
  | complete {probe : UInt64} {s : Found} (h : I probe s)
    (hfits : probe.toNat + perPage.toNat < UInt64.size)
    (hstop : ¬ (probe.toNat + perPage.toNat ≤ last.toNat ∧ s.pages < limit ∧ perPage ≠ 0)) :
    ScanEnds block? perPage shift limit last I (.ok s)
  /-- The page at the probe comes to a hole. -/
  | hole {probe : UInt64} {s : Found} (h : I probe s) (hlooks : Looks perPage limit last probe s)
    (hgroup : group block? perPage probe = .hole) :
    ScanEnds block? perPage shift limit last I (.error (.refused .hole))
  /-- There is a page at the probe, and it cannot be added. -/
  | unadded {probe first : UInt64} {s : Found} {e : Stop} (h : I probe s)
    (hlooks : Looks perPage limit last probe s)
    (hgroup : group block? perPage probe = .usable first)
    (hpush : s.push (first >>> shift) = .error e) :
    ScanEnds block? perPage shift limit last I (.error e)
  /-- The block behind the page at the probe has no number. -/
  | beyond {probe : UInt64} {s : Found} (h : I probe s)
    (hover : UInt64.size ≤ probe.toNat + perPage.toNat) :
    ScanEnds block? perPage shift limit last I (.error (.fault (.overflow .add)))

/-- **A scan keeps what each of its steps keeps**: to pass over a block, and to take a page. -/
theorem scanFrom_induction {I : UInt64 → Found → Prop}
    (hskip : ∀ {probe s}, I probe s → Looks perPage limit last probe s →
      group block? perPage probe = .unusable → I (probe + 1) s)
    (htake : ∀ {probe s first s'}, I probe s → Looks perPage limit last probe s →
      group block? perPage probe = .usable first → s.push (first >>> shift) = .ok s' →
      I (probe + perPage) s') (h : I probe s) :
    ScanEnds block? perPage shift limit last I
      (scanFrom block? perPage shift limit last probe s) := by
  -- the cases are the branches of the loop: one for each way to end, and the two that go on
  fun_induction scanFrom block? perPage shift limit last probe s with
  | case1 probe s hfits hl hgroup => exact .hole h ⟨hfits, hl.1, hl.2.1, hl.2.2⟩ hgroup
  | case2 probe s hfits hl hgroup ih =>
    exact ih (hskip h ⟨hfits, hl.1, hl.2.1, hl.2.2⟩ hgroup)
  | case3 probe s hfits hl first hgroup e hpush =>
    exact .unadded h ⟨hfits, hl.1, hl.2.1, hl.2.2⟩ hgroup hpush
  | case4 probe s hfits hl first hgroup s' hpush ih =>
    exact ih (htake h ⟨hfits, hl.1, hl.2.1, hl.2.2⟩ hgroup hpush)
  | case5 probe s hfits hl => exact .complete h hfits hl
  | case6 probe s hover => exact .beyond h (Nat.le_of_not_lt hover)

/-- The pages found so far, each as the file block and the device block it starts with: the table
lists their page blocks, they are usable groups before file block `last`, and the file blocks rise
towards `probe`.  That a group is usable is kept as the loop computed it, since the loop does not
know that `perPage` blocks of this file make a page; `group_spec` reads it as a good group where
they do. -/
structure Scanned (block? : UInt64 → Option UInt64) (perPage shift last probe : UInt64)
    (pages : List (UInt64 × UInt64)) (s : Found) : Prop where
  lists : s.table.Lists (pages.map fun x => (x.2 >>> shift).toNat)
  count : s.pages.toNat = pages.length
  groups : ∀ x ∈ pages, group block? perPage x.1 = .usable x.2
  inside : ∀ x ∈ pages, x.1.toNat + perPage.toNat ≤ last.toNat
  rising : pages.Pairwise fun x y => x.1 < y.1
  below : ∀ x ∈ pages, x.1 < probe

theorem Scanned.found (h : Scanned block? perPage shift last probe pages s) :
    ∀ x ∈ pages, block? x.1 = some x.2 ∧ x.2 &&& (perPage - 1) = 0 :=
  fun x hx => group_usable (h.groups x hx)

/-- Moving on keeps what was found. -/
theorem Scanned.mono (h : Scanned block? perPage shift last probe pages s) (hp : probe ≤ probe') :
    Scanned block? perPage shift last probe' pages s :=
  { h with below := fun x hx => UInt64.lt_of_lt_of_le (h.below x hx) hp }

/-- One more page. -/
theorem Scanned.push (h : Scanned block? perPage shift last probe pages s)
    (hlooks : Looks perPage limit last probe s)
    (hgroup : group block? perPage probe = .usable first) :
    (∃ s', s.push (first >>> shift) = .ok s' ∧
        Scanned block? perPage shift last (probe + perPage) (pages ++ [(probe, first)]) s') ∨
      s.push (first >>> shift) = .error (.fault (.overflow .add)) ∧
        ∃ e ∈ s.table.extents, UInt64.size ≤ e.blockStop := by
  -- the number the loop gives the page is its place in the list
  have hlen : (pages.map fun x : UInt64 × UInt64 => (x.2 >>> shift).toNat).length = pages.length :=
    List.length_map _
  have hcount := h.count
  have hroom := hlooks.room
  rcases @ExtentTable.Lists.push _ _ h.lists _ (first >>> shift) (hcount.trans hlen.symm)
    (by omega) with
    ⟨k, t', hadd, hlists, -⟩ | ⟨hadd, hover⟩
  · refine Or.inl ⟨_, by unfold Found.push; rw [hadd]; rfl, ?_, ?_, ?_, ?_, ?_, ?_⟩
    · rw [List.map_append]
      exact hlists
    · rw [List.length_append, toNat_add_of_lt (by exact hroom), hcount]
      rfl
    · intro x hx
      rcases List.mem_append.mp hx with hx | hx
      · exact h.groups x hx
      · rw [List.mem_singleton.mp hx]
        exact hgroup
    · intro x hx
      rcases List.mem_append.mp hx with hx | hx
      · exact h.inside x hx
      · rw [List.mem_singleton.mp hx]
        exact hlooks.inside
    · refine List.pairwise_append.mpr ⟨h.rising, List.pairwise_singleton _ _, fun x hx y hy => ?_⟩
      rw [List.mem_singleton.mp hy]
      exact h.below x hx
    · intro x hx
      rcases List.mem_append.mp hx with hx | hx
      · exact UInt64.lt_trans (h.below x hx) hlooks.lt_behind
      · rw [List.mem_singleton.mp hx]
        exact hlooks.lt_behind
  · exact Or.inr ⟨by unfold Found.push; rw [hadd]; rfl, hover⟩

/-- The page that was taken is one more. -/
theorem Scanned.take {s' : Found} (h : Scanned block? perPage shift last probe pages s)
    (hlooks : Looks perPage limit last probe s)
    (hgroup : group block? perPage probe = .usable first)
    (hpush : s.push (first >>> shift) = .ok s') :
    Scanned block? perPage shift last (probe + perPage) (pages ++ [(probe, first)]) s' := by
  rcases h.push hlooks hgroup with ⟨s'', hok, hs''⟩ | ⟨hfault, -⟩
  · exact Except.ok.inj (hpush.symm.trans hok) ▸ hs''
  · cases hpush.symm.trans hfault

/-- The page cannot be added because an extent ends with the last block there is. -/
theorem Scanned.unadded {e : Stop} (h : Scanned block? perPage shift last probe pages s)
    (hlooks : Looks perPage limit last probe s)
    (hgroup : group block? perPage probe = .usable first)
    (hpush : s.push (first >>> shift) = .error e) :
    e = .fault (.overflow .add) ∧ ∃ x ∈ s.table.extents, UInt64.size ≤ x.blockStop := by
  rcases h.push hlooks hgroup with ⟨s'', hok, -⟩ | ⟨hfault, hover⟩
  · cases hpush.symm.trans hok
  · exact ⟨Except.error.inj (hpush.symm.trans hfault), hover⟩

/-- **The scan** finds pages in the order of the file, or it meets a hole, or a sum does not fit. -/
theorem scanFrom_spec (h : Scanned block? perPage shift last probe pages s) :
    match scanFrom block? perPage shift limit last probe s with
    | .ok s' => ∃ probe' pages', Scanned block? perPage shift last probe' pages' s'
    | .error e => e = .refused .hole ∨ e = .fault (.overflow .add) := by
  -- the list is not part of the state, so the invariant says that there is one
  have hends : ScanEnds block? perPage shift limit last
      (fun probe s => ∃ pages, Scanned block? perPage shift last probe pages s)
      (scanFrom block? perPage shift limit last probe s) := by
    refine scanFrom_induction ?_ ?_ ⟨pages, h⟩
    · rintro probe s ⟨pages, hs⟩ hlooks -
      exact ⟨pages, hs.mono (UInt64.le_of_lt hlooks.lt_next)⟩
    · rintro probe s first s' ⟨pages, hs⟩ hlooks hgroup hpush
      exact ⟨_, hs.take hlooks hgroup hpush⟩
  generalize scanFrom block? perPage shift limit last probe s = answer at hends
  cases hends with
  | complete h => exact ⟨_, h⟩
  | hole => exact Or.inl rfl
  | unadded h hlooks hgroup hpush =>
    obtain ⟨pages, hs⟩ := h
    exact Or.inr (hs.unadded hlooks hgroup hpush).1
  | beyond => exact Or.inr rfl

end

/-- Before its first probe a scan has found nothing. -/
theorem scanned_start {block? : UInt64 → Option UInt64} {perPage shift last : UInt64} :
    Scanned block? perPage shift last 0 [] {} :=
  ⟨ExtentTable.lists_nil, rfl, nofun, nofun, List.Pairwise.nil, nofun⟩

theorem onlySums_span (s : Found) : OnlySums s.span := by
  unfold Found.span
  split
  · exact onlySums_ok _
  · exact (onlySums_addWord _ _).bind fun _ => onlySums_ok _

section

variable {f : BlockMap} {limit : UInt64}

/-- A scan that is given up on its way. -/
theorem scan_of_error (hbits : f.blockBits ≤ pageBits) {e : Stop}
    (h : scanFrom f.block? (blocksPerPage f.blockBits) (pageBits - f.blockBits).toUInt64 limit
      (f.size >>> f.blockBits.toUInt64) 0 {} = .error e) : scan f limit = .error e := by
  unfold scan
  rw [if_neg (UInt32.not_lt.mpr hbits)]
  dsimp only
  rw [h]
  rfl

/-- A scan that comes to its end answers what it has found, if there is a span to tell. -/
theorem scan_of_ok (hbits : f.blockBits ≤ pageBits) {s : Found}
    (h : scanFrom f.block? (blocksPerPage f.blockBits) (pageBits - f.blockBits).toUInt64 limit
      (f.size >>> f.blockBits.toUInt64) 0 {} = .ok s) :
    scan f limit = match s.span with
      | .error fault => .error (.fault fault)
      | .ok span => .ok (s.table,
          { nrExtents := s.nrExtents, max := max s.pages 1, pages := max s.pages 1 - 1
            span }) := by
  unfold scan Found.dimensions
  rw [if_neg (UInt32.not_lt.mpr hbits)]
  dsimp only
  rw [h]
  rcases hspan : s.span with fault | span
  · simp only [bind, Except.bind, liftM, monadLift, MonadLift.monadLift, hspan, Except.mapError]
  · simp only [bind, Except.bind, liftM, monadLift, MonadLift.monadLift, hspan, Except.mapError,
      pure, Except.pure]

end

/-- **What a scan answers**: a table that lists the page blocks it found, with their number; or a
hole; or a sum that does not fit; and it does not take blocks larger than a page. -/
theorem scan_spec (f : BlockMap) (limit : UInt64) :
    match scan f limit with
    | .ok (table, dims) => ∃ probe pages s,
        Scanned f.block? (blocksPerPage f.blockBits) (pageBits - f.blockBits).toUInt64
          (f.size >>> f.blockBits.toUInt64) probe pages s ∧
        f.blockBits ≤ pageBits ∧ table = s.table ∧ dims.max = max s.pages 1 ∧
        dims.pages = max s.pages 1 - 1
    | .error e => e = .refused .hole ∨ e = .fault (.overflow .add) ∨
        e = .fault .blockSize ∧ pageBits < f.blockBits := by
  by_cases hbits : f.blockBits ≤ pageBits
  · have hspec := @scanFrom_spec f.block? (blocksPerPage f.blockBits)
      (pageBits - f.blockBits).toUInt64 limit (f.size >>> f.blockBits.toUInt64) _ _ _ scanned_start
    rcases hfound : scanFrom f.block? (blocksPerPage f.blockBits) (pageBits - f.blockBits).toUInt64
        limit (f.size >>> f.blockBits.toUInt64) 0 {} with e | s
    · rw [hfound] at hspec
      rw [scan_of_error hbits hfound]
      rcases hspec with rfl | rfl
      · exact Or.inl rfl
      · exact Or.inr (Or.inl rfl)
    · rw [hfound] at hspec
      rw [scan_of_ok hbits hfound]
      obtain ⟨probe, pages, hs⟩ := hspec
      rcases hspan : s.span with fault | span
      · rw [onlySums_span s fault hspan]
        exact Or.inr (Or.inl rfl)
      · exact ⟨probe, pages, s, hs, hbits, rfl, rfl, rfl⟩
  · have hlarge : f.blockBits > pageBits := UInt32.not_le.mp hbits
    unfold scan
    rw [if_pos hlarge]
    exact Or.inr (Or.inr ⟨rfl, hlarge⟩)

end Layout

/-! ## 3. What an area is brought up with -/

namespace Area

/-- `blocks` are the page blocks of an area on this ground, in the order of its pages.  Those of a
mapped file start at device blocks of the file, at most one for each file block: the rising file
blocks are what is left of the scan here, and `Ground.Lays.nodup` is why they are. -/
def Ground.Lays (g : Ground) (blocks : List Nat) : Prop :=
  match g with
  | .pages available => blocks.length ≤ available.toNat ∧ blocks = List.range blocks.length
  | .blocks map => map.blockBits ≤ pageBits ∧ ∃ pages : List (UInt64 × UInt64),
      blocks = pages.map (fun x => (x.2 >>> (pageBits - map.blockBits).toUInt64).toNat) ∧
      (∀ x ∈ pages, map.block? x.1 = some x.2 ∧
        x.2 &&& (Layout.blocksPerPage map.blockBits - 1) = 0) ∧
      pages.Pairwise fun x y => x.1 < y.1

/-- **What a plan is**: a table that lists the blocks of the area, one for each of its pages. -/
theorem Ground.plan_spec (g : Ground) (limit : UInt64) :
    match g.plan limit with
    | .ok (table, dims) => dims.pages ≠ 0 → ∃ blocks, table.Lists blocks ∧ g.Lays blocks ∧
        dims.max.toNat = blocks.length
    | .error (.refused _) => True
    | .error (.fault f) => f = .overflow .add ∨
        f = .blockSize ∧ ∃ map, g = .blocks map ∧ pageBits < map.blockBits := by
  cases g with
  | pages available =>
    unfold Ground.plan linear
    dsimp only
    by_cases hmax : min available limit = 0
    · simp only [hmax, if_true]
      exact fun h => absurd rfl h
    · rcases ExtentTable.lists_range hmax with ⟨k, t, hadd, hlists⟩ | hadd
      · simp only [hmax, if_false, hadd, bind, Except.bind, pure, Except.pure]
        intro _
        refine ⟨_, hlists, ⟨?_, ?_⟩, ?_⟩
        · have hmin : min available limit = if available ≤ limit then available else limit := rfl
          rw [List.length_range, hmin]
          split
          · exact Nat.le_refl _
          · rename_i hle
            exact Nat.le_of_lt (UInt64.lt_iff_toNat_lt.mp (UInt64.not_le.mp hle))
        · rw [List.length_range]
        · rw [List.length_range]
      · simp only [hmax, if_false, hadd, bind, Except.bind]
        exact Or.inl trivial
  | blocks map =>
    have hscan := Layout.scan_spec map limit
    unfold Ground.plan
    dsimp only
    rcases hs : Layout.scan map limit with e | ⟨table, dims⟩
    · rw [hs] at hscan
      rcases hscan with rfl | rfl | ⟨rfl, hbits⟩
      · trivial
      · exact Or.inl rfl
      · exact Or.inr ⟨rfl, map, rfl, hbits⟩
    · rw [hs] at hscan
      obtain ⟨probe, pages, s, hscanned, hbits, rfl, hmax, hpages⟩ := hscan
      intro hne
      refine ⟨_, hscanned.lists, ⟨hbits, pages, rfl, hscanned.found, hscanned.rising⟩, ?_⟩
      -- a layout without a page has none to use besides its header
      have hdef : Max.max s.pages 1 = if s.pages ≤ 1 then 1 else s.pages := rfl
      rw [hdef] at hmax hpages
      by_cases hle : s.pages ≤ 1
      · rw [if_pos hle] at hpages
        exact absurd hpages hne
      · rw [if_neg hle] at hmax
        rw [List.length_map, ← hscanned.count, hmax]

/-- Where a sector can be told: the slot is in the area and its page is mapped. -/
theorem sector_eq_ok_iff {a : Area} (h : a.table.Ordered) {slot : Option Slot} {sector : UInt64} :
    a.sector slot = .ok sector ↔ ∃ sl b, slot = some sl ∧ sl.area = a.number ∧
      a.table.Maps sl.offset.toNat b.toNat ∧ sector = b <<< pageSectorBits.toUInt64 := by
  unfold Area.sector Area.block Area.offset
  cases slot with
  | none => exact ⟨fun h => absurd h nofun, fun ⟨_, _, h, _⟩ => absurd h nofun⟩
  | some sl =>
    dsimp only
    by_cases harea : sl.area = a.number
    · rw [if_pos harea]
      obtain ⟨r, hr, hspec⟩ := h.map?_spec sl.offset
      simp only [Except.mapError, bind, Except.bind, liftM, monadLift, MonadLift.monadLift, hr]
      cases r with
      | none =>
        refine ⟨fun h => absurd h nofun, ?_⟩
        rintro ⟨sl', b, hsl, -, hmaps, -⟩
        injection hsl with hsl
        exact absurd ((hspec b).mpr (hsl ▸ hmaps)) nofun
      | some b =>
        constructor
        · intro hs
          injection hs with hs
          exact ⟨sl, b, rfl, harea, (hspec b).mp rfl, hs.symm⟩
        · rintro ⟨sl', b', hsl, -, hmaps, rfl⟩
          injection hsl with hsl
          have hb := (hspec b').mpr (hsl ▸ hmaps)
          injection hb with hb
          rw [hb]
          rfl
    · rw [if_neg harea]
      refine ⟨fun h => absurd h nofun, ?_⟩
      rintro ⟨sl', b, hsl, harea', -⟩
      injection hsl with hsl
      exact absurd (hsl ▸ harea') harea

/-- In an ordered table every slot is looked up without a fault. -/
theorem sector_ne_fault {a : Area} (h : a.table.Ordered) {slot : Option Slot} {f : Fault} :
    a.sector slot ≠ .error (.fault f) := by
  intro hfault
  unfold Area.sector Area.block Area.offset at hfault
  cases slot with
  | none => cases hfault
  | some sl =>
    dsimp only at hfault
    split at hfault
    · obtain ⟨r, hr, -⟩ := h.map?_spec sl.offset
      simp only [Except.mapError, bind, Except.bind, liftM, monadLift, MonadLift.monadLift, hr]
        at hfault
      cases r <;> cases hfault
    · cases hfault

/-- Sectors of slots are the first ones of a page, with or without room for it. -/
theorem eight_dvd_of_sector {a : Area} {slot : Option Slot} {sector : UInt64}
    (h : a.sector slot = .ok sector) : 8 ∣ sector.toNat := by
  unfold Area.sector at h
  cases hblock : a.block slot with
  | error e =>
    rw [hblock] at h
    exact absurd h nofun
  | ok block =>
    rw [hblock] at h
    injection h with h
    rw [← h, UInt64.toNat_shiftLeft]
    show 8 ∣ block.toNat <<< 3 % 2 ^ 64
    rw [Nat.shiftLeft_eq]
    omega

/-- Where a position can be told: the slot is in the area. -/
theorem position_eq_ok_iff {a : Area} {slot : Option Slot} {position : UInt64} :
    a.position slot = .ok position ↔ ∃ sl, slot = some sl ∧ sl.area = a.number ∧
      position = sl.offset <<< pageBits.toUInt64 := by
  unfold Area.position Area.offset
  cases slot with
  | none => exact ⟨fun h => absurd h nofun, fun ⟨_, h, _⟩ => absurd h nofun⟩
  | some sl =>
    dsimp only
    by_cases harea : sl.area = a.number
    · rw [if_pos harea]
      constructor
      · intro hp
        injection hp with hp
        exact ⟨sl, rfl, harea, hp.symm⟩
      · rintro ⟨sl', hsl, -, rfl⟩
        injection hsl with hsl
        rw [hsl]
        rfl
    · rw [if_neg harea]
      refine ⟨fun h => absurd h nofun, ?_⟩
      rintro ⟨sl', hsl, harea', -⟩
      injection hsl with hsl
      exact absurd (hsl ▸ harea') harea

end Area

/-! ## 4. Bringing an area up -/

/-- An area brought up from `ground` by `spec`. -/
structure Area.BroughtUp (a : Area) (spec : AreaSpec) (ground : Area.Ground) (blocks : List Nat) :
    Prop where
  number : a.number = spec.number
  backing : a.backing = spec.backing
  slotMap : a.slotMap = spec.slotMap
  lists : a.table.Lists blocks
  lays : ground.Lays blocks
  max : a.max.toNat = blocks.length

/-- **Bringing an area up** is decided by its plan; besides its answer there is only a line on the
console. -/
theorem activate_spec {σ : Type} (b : Backend σ) (spec : AreaSpec) (limit : UInt64)
    (s : System σ) :
    match (groundOf b spec s).plan limit with
    | .ok plan => ∃ console, activate b spec limit s =
        .ok (Area.build spec (synchronousOf b spec s) plan, { s with console })
    | .error (.refused why) => ∃ console, activate b spec limit s =
        .ok (.error why, { s with console })
    | .error (.fault f) => activate b spec limit s = .error f := by
  -- a run without a fault, which leaves all but the console, is the run it says it is
  have hexact : ∀ {answer : Except Refusal Area}, (activate b spec limit).wp
      (fun a s' => a = answer ∧ ∃ console, s' = { s with console }) (fun _ => False) s →
      ∃ console, activate b spec limit s = .ok (answer, { s with console }) := by
    intro answer h
    obtain ⟨_, _, hok, rfl, console, rfl⟩ := Run.exists_ok_of_wp h
    exact ⟨console, hok⟩
  rcases hplan : (groundOf b spec s).plan limit with (why | f) | ⟨table, dims⟩
  · refine hexact ?_
    unfold activate
    simp only [Run.wp_bind, Run.wp_get, Run.wp_attempt, hplan]
    rw [Run.wp_ite]
    split
    · cases Layout.remark (.error why) with
      | none => exact ⟨rfl, s.console, rfl⟩
      | some line => exact ⟨rfl, _, rfl⟩
    · exact ⟨rfl, s.console, rfl⟩
  · refine Run.eq_error_of_wp ?_
    unfold activate
    simp only [Run.wp_bind, Run.wp_get, Run.wp_attempt, hplan]
  · refine hexact ?_
    unfold activate
    simp only [Run.wp_bind, Run.wp_get, Run.wp_attempt, hplan]
    -- a line about the plan, and one about an area without a page to use
    by_cases hpages : dims.pages = 0
    · simp only [Area.build, hpages, if_true]
      rw [Run.wp_ite]
      split
      · cases Layout.remark (.ok (table, dims)) with
        | none => exact ⟨rfl, _, rfl⟩
        | some line => exact ⟨rfl, _, rfl⟩
      · exact ⟨rfl, _, rfl⟩
    · simp only [Area.build, hpages, if_false, Bool.false_eq_true]
      rw [Run.wp_ite]
      split
      · cases Layout.remark (.ok (table, dims)) with
        | none => exact ⟨rfl, s.console, rfl⟩
        | some line => exact ⟨rfl, _, rfl⟩
      · exact ⟨rfl, s.console, rfl⟩

theorem activate_wp {σ : Type} {b : Backend σ} {spec : AreaSpec} {limit : UInt64} {s : System σ}
    {post : Except Refusal Area → System σ → Prop} {stop : Fault → Prop}
    (hsum : stop (.overflow .add))
    (hblock : ∀ map, groundOf b spec s = .blocks map → pageBits < map.blockBits → stop .blockSize)
    (hrefused : ∀ why console, post (.error why) { s with console })
    (hok : ∀ area blocks console, area.BroughtUp spec (groundOf b spec s) blocks →
      post (.ok area) { s with console }) :
    (activate b spec limit).wp post stop s := by
  have hplan := (groundOf b spec s).plan_spec limit
  have hspec := activate_spec b spec limit s
  rcases hp : (groundOf b spec s).plan limit with (why | f) | ⟨table, dims⟩
  all_goals rw [hp] at hplan hspec
  · obtain ⟨console, hspec⟩ := hspec
    rw [Run.wp_of_ok hspec]
    exact hrefused why console
  · rw [Run.wp_of_error hspec]
    rcases hplan with rfl | ⟨rfl, map, hmap, hbits⟩
    · exact hsum
    · exact hblock map hmap hbits
  · obtain ⟨console, hspec⟩ := hspec
    rw [Run.wp_of_ok hspec]
    by_cases hpages : dims.pages = 0
    · simp only [Area.build, hpages, if_true]
      exact hrefused _ _
    · obtain ⟨blocks, hlists, hlays, hmax⟩ := hplan hpages
      simp only [Area.build, hpages, if_false]
      exact hok _ blocks _ ⟨rfl, rfl, rfl, hlists, hlays, hmax⟩

theorem swapOn_wp {σ : Type} {b : Backend σ} {spec : AreaSpec} {limit : UInt64} {s : System σ}
    {post : Except Refusal Area → System σ → Prop} {stop : Fault → Prop}
    (hsum : stop (.overflow .add))
    (hblock : ∀ map, groundOf b spec s = .blocks map → pageBits < map.blockBits → stop .blockSize)
    (hrefused : ∀ why console, post (.error why) { s with console })
    (hok : ∀ area blocks console, area.BroughtUp spec (groundOf b spec s) blocks →
      post (.ok area)
        { s with registry := s.registry.set area.number.toNat (some area), console }) :
    (swapOn b spec limit).wp post stop s := by
  have hvacant : (checkVacant spec.number : Run σ _).wp (fun _ s' => s' = s) stop s := by
    unfold checkVacant
    by_cases hnumber : spec.number ≥ Slot.areaLimit
    · rw [if_pos hnumber]; exact rfl
    · rw [if_neg hnumber]
      simp only [Run.wp_bind, Run.wp_get]
      cases s.area? spec.number with
      | none => exact rfl
      | some area => exact rfl
  -- the number is looked up before the area is built and once more when it is registered
  unfold swapOn
  rw [Run.wp_bind]
  refine Run.wp_mono hvacant (fun vacant s' hs => ?_) fun _ hf => hf
  subst hs
  cases vacant with
  | error why => exact hrefused why _
  | ok u =>
    simp only [Run.wp_bind, Run.wp_pure]
    refine activate_wp hsum hblock (fun why console => hrefused why console)
      fun area blocks console hup => ?_
    unfold register
    simp only [Run.wp_bind, Run.wp_get]
    rw [show System.area? { s' with console } area.number = s'.area? area.number from rfl]
    cases s'.area? area.number with
    | some area' => exact hrefused _ _
    | none => exact hok area blocks _ hup

/-- **An area that was brought up** is registered, and nothing else has happened. -/
theorem swapOn_ok {σ : Type} {b : Backend σ} {spec : AreaSpec} {limit : UInt64} {s s' : System σ}
    {area : Area} (h : (swapOn b spec limit) s = .ok (.ok area, s')) :
    ∃ blocks registry console, area.BroughtUp spec (groundOf b spec s) blocks ∧
      s' = { s with registry, console } ∧ s'.area? area.number = some area := by
  have hwp : (swapOn b spec limit).wp (fun answer s' => ∀ area, answer = .ok area →
      ∃ blocks registry console, area.BroughtUp spec (groundOf b spec s) blocks ∧
        s' = { s with registry, console } ∧ s'.area? area.number = some area)
      (fun _ => True) s := by
    refine swapOn_wp trivial (fun _ _ _ => trivial)
      (fun why console area harea => absurd harea nofun)
      fun area blocks console hup area' harea => ?_
    injection harea with harea
    subst harea
    exact ⟨blocks, _, console, hup, rfl, Table.get_set_self _ _ _⟩
  exact hwp.of_ok h area rfl

/-! ## 5. Blocks that stay apart -/

/-- What is asked of the file of a mapped area: no two of its blocks lie on one device block, and
they lie inside the device. -/
structure BlockMap.Sound (map : BlockMap) (sectors : UInt64) : Prop where
  injective : ∀ {i j block}, map.block? i = some block → map.block? j = some block → i = j
  inside : ∀ {i block}, map.block? i = some block →
    (block.toNat + 1) * 2 ^ map.blockBits.toNat ≤ sectors.toNat * 2 ^ sectorBits.toNat

/-- The files of a spec are sound. -/
def AreaSpec.Sound {σ : Type} (b : Backend σ) (spec : AreaSpec) (s : System σ) : Prop :=
  ∀ f d, spec.backing = .mapped f d →
    (b.files.blockMap f s.world).Sound (s.devices.get d).sectors

/-- Aligned blocks are told apart by the pages they start. -/
theorem aligned_inj {x y shift : UInt64} (hshift : shift ≤ 12)
    (hx : x &&& (1 <<< shift - 1) = 0) (hy : y &&& (1 <<< shift - 1) = 0)
    (h : (x >>> shift).toNat = (y >>> shift).toNat) : x = y := by
  have hle : shift.toNat ≤ 12 := UInt64.le_iff_toNat_le.mp hshift
  have hmod : shift.toNat % 64 = shift.toNat := by omega
  have hpow : (1 <<< shift - 1 : UInt64).toNat = 2 ^ shift.toNat - 1 := by
    have hlt : 2 ^ shift.toNat < 2 ^ 64 := Nat.pow_lt_pow_right (by decide) (by omega)
    have hone : (1 <<< shift : UInt64).toNat = 2 ^ shift.toNat := by
      rw [UInt64.toNat_shiftLeft, hmod, UInt64.toNat_one, Nat.shiftLeft_eq, Nat.one_mul]
      exact Nat.mod_eq_of_lt hlt
    have hpos := Nat.two_pow_pos shift.toNat
    rw [UInt64.toNat_sub_of_le _ _ (by rw [UInt64.le_iff_toNat_le, hone]; exact hpos), hone]
    rfl
  -- an aligned block is the page it starts, times the blocks of a page
  have hsplit : ∀ z : UInt64, z &&& (1 <<< shift - 1) = 0 →
      z.toNat = (z >>> shift).toNat * 2 ^ shift.toNat := by
    intro z hz
    have hz' := congrArg UInt64.toNat hz
    rw [UInt64.toNat_and, hpow, Nat.and_two_pow_sub_one_eq_mod, UInt64.toNat_zero] at hz'
    rw [UInt64.toNat_shiftRight, hmod, Nat.shiftRight_eq_div_pow]
    exact (Nat.div_mul_cancel (Nat.dvd_of_mod_eq_zero hz')).symm
  exact UInt64.toNat_inj.mp (by rw [hsplit x hx, hsplit y hy, h])

namespace Area

/-- The blocks of a mapped file stay apart. -/
theorem Ground.Lays.nodup {g : Ground} {blocks : List Nat} (h : g.Lays blocks)
    (hsound : ∀ map, g = .blocks map → ∃ sectors, map.Sound sectors) : blocks.Nodup := by
  cases g with
  | pages available =>
    rw [h.2]
    exact List.nodup_range
  | blocks map =>
    obtain ⟨hbits, pages, rfl, hfound, hrising⟩ := h
    obtain ⟨sectors, hsound⟩ := hsound map rfl
    have hshift : (pageBits - map.blockBits).toUInt64 ≤ 12 := by
      have hsub := UInt32.toNat_sub_of_le _ _ hbits
      have h12 : pageBits.toNat = 12 := rfl
      rw [UInt64.le_iff_toNat_le, UInt32.toNat_toUInt64]
      show _ ≤ 12
      omega
    -- pages on one block start at one device block, hence at one file block, hence are one page
    refine List.Nodup.map_on (fun x hx y hy heq => ?_) ?_
    · have hdevice := aligned_inj hshift (hfound x hx).2 (hfound y hy).2 heq
      refine Prod.ext ?_ hdevice
      have hy' := (hfound y hy).1
      rw [← hdevice] at hy'
      exact hsound.injective (hfound x hx).1 hy'
    · have hne : ∀ {x y : UInt64 × UInt64}, x.1 < y.1 → x ≠ y := by
        rintro x _ hlt rfl
        exact UInt64.lt_irrefl _ hlt
      exact hrising.imp hne

/-- The blocks of a mapped file are inside the device. -/
theorem Ground.Lays.inside {map : BlockMap} {blocks : List Nat} {sectors : UInt64}
    (h : (Ground.blocks map).Lays blocks) (hsound : map.Sound sectors) :
    ∀ block ∈ blocks, block < 2 ^ 61 := by
  obtain ⟨hbits, pages, rfl, hfound, -⟩ := h
  intro block hblock
  obtain ⟨x, hx, rfl⟩ := List.mem_map.mp hblock
  have hinside := hsound.inside (hfound x hx).1
  have hsectors : sectors.toNat < 2 ^ 64 := sectors.toNat_lt
  have hle : map.blockBits.toNat ≤ 12 := UInt32.le_iff_toNat_le.mp hbits
  have hshift : (pageBits - map.blockBits).toUInt64.toNat % 64 = 12 - map.blockBits.toNat := by
    rw [UInt32.toNat_toUInt64, UInt32.toNat_sub_of_le _ _ hbits]
    show (12 - map.blockBits.toNat) % 64 = _
    omega
  have hpow : 2 ^ map.blockBits.toNat * 2 ^ (12 - map.blockBits.toNat) = 4096 := by
    rw [← Nat.pow_add, Nat.add_sub_cancel' hle]
  rw [UInt64.toNat_shiftRight, hshift, Nat.shiftRight_eq_div_pow]
  refine (Nat.div_lt_iff_lt_mul (Nat.two_pow_pos _)).mpr ?_
  -- the blocks of the device make up fewer than 2 ^ 61 pages
  have hbits9 : 2 ^ sectorBits.toNat = 512 := rfl
  rw [hbits9] at hinside
  refine Nat.lt_of_mul_lt_mul_left (a := 2 ^ map.blockBits.toNat) ?_
  have hmul : 2 ^ map.blockBits.toNat * (2 ^ 61 * 2 ^ (12 - map.blockBits.toNat)) =
      2 ^ 61 * 4096 := by
    rw [← hpow, Nat.mul_left_comm]
  rw [hmul, Nat.mul_comm]
  have hsucc : x.2.toNat * 2 ^ map.blockBits.toNat < (x.2.toNat + 1) * 2 ^ map.blockBits.toNat :=
    Nat.mul_lt_mul_of_pos_right (Nat.lt_succ_self _) (Nat.two_pow_pos _)
  omega

/-- **No two pages of an area lie on one block, and sectors of blocks fit a word.**  The pages of a
file that is reached through its file system lie one after the other. -/
theorem BroughtUp.apart {σ : Type} {b : Backend σ} {spec : AreaSpec} {s : System σ} {a : Area}
    {blocks : List Nat} (h : a.BroughtUp spec (groundOf b spec s) blocks)
    (hsound : spec.Sound b s) :
    blocks.Nodup ∧ (∀ block ∈ blocks, block < 2 ^ 61) ∧
      (∀ d, spec.backing = .device d → blocks = List.range blocks.length) ∧
      ∀ f, spec.backing = .file f → blocks = List.range blocks.length ∧ blocks.length ≤ 2 ^ 52 := by
  have hlays := h.lays
  unfold groundOf at hlays
  cases hback : spec.backing with
  | device d =>
    rw [hback] at hlays
    have hlen := hlays.1
    rw [UInt64.toNat_shiftRight] at hlen
    have hlt := (s.devices.get d).sectors.toNat_lt
    have hshift : (s.devices.get d).sectors.toNat >>> (pageSectorBits.toUInt64.toNat % 64) =
        (s.devices.get d).sectors.toNat / 8 := Nat.shiftRight_eq_div_pow _ 3
    refine ⟨hlays.nodup nofun, fun block hblock => ?_, fun _ _ => hlays.2, nofun⟩
    rw [hlays.2, List.mem_range] at hblock
    omega
  | mapped f d =>
    rw [hback] at hlays
    have hsound := hsound f d hback
    refine ⟨hlays.nodup fun map hmap => ?_, hlays.inside hsound, nofun, nofun⟩
    injection hmap with hmap
    exact ⟨_, hmap ▸ hsound⟩
  | file f =>
    rw [hback] at hlays
    have hlen := hlays.1
    rw [UInt64.toNat_shiftRight] at hlen
    have hlt := (b.files.blockMap f s.world).size.toNat_lt
    have hshift : (b.files.blockMap f s.world).size.toNat >>> (pageBits.toUInt64.toNat % 64) =
        (b.files.blockMap f s.world).size.toNat / 4096 := Nat.shiftRight_eq_div_pow _ 12
    refine ⟨hlays.nodup nofun, fun block hblock => ?_, nofun, fun _ _ => ⟨hlays.2, by omega⟩⟩
    rw [hlays.2, List.mem_range] at hblock
    omega

end Area

end PageSwap
