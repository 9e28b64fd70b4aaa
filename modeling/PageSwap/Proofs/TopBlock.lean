/-
# The last block there is

Nothing keeps a file from lying on the block whose number is the largest word.  A scan has two sums
that do not fit there: where the extent of such a page ends, which it adds up when it comes to the
next page, and one more than the highest block, of which it takes the lowest to get the span.  And
the lowest block starts out as that very number, which stands for none.

* `BlockMap.Overrun` -- the files for which one of the sums is asked for.
* `Layout.Passed.at_top` -- what a scan has found that has just taken a page on the last block.
* `Layout.Passed.span_cases` -- the span of what a scan has found.
* `scan_fails_at_the_last_block_only` -- when a scan faults, and which span it answers.
* `span_lost_on_the_last_block` -- a page that has no span, and two files whose scan faults.
-/
import Mathlib.Data.List.TakeDrop
import PageSwap.Proofs.Holes

namespace PageSwap

/-! ## 1. Files whose blocks are pages -/

namespace BlockMap

variable {f : BlockMap}

/-- **The scan adds up behind the last block there is.**  Page `j` lies on it, the scan comes past
that page, and there is another page behind it, or one besides the header before it.  Only blocks of
a whole page reach so far. -/
def Overrun (f : BlockMap) (limit : Nat) : Prop :=
  f.blockBits = pageBits ∧ ∃ j < min limit f.length, f.device? j = some topBlock ∧
    (∀ i ≤ j + 1, i < min limit f.length → f.device? i ≠ none) ∧
    (j + 1 < min limit f.length ∨ 2 ≤ j)

instance (f : BlockMap) (limit : Nat) : Decidable (f.Overrun limit) :=
  inferInstanceAs (Decidable (_ ∧ _))

/-- A page on the last block there is takes up one block of its file. -/
theorem blockBits_of_top (hbits : f.blockBits ≤ pageBits) {g : Nat}
    (h : f.pageBlock g = topBlock) : f.blockBits = pageBits := by
  by_contra hne
  have htop : topBlock = 2 ^ 64 - 1 := rfl
  rw [pageBlock, device?] at h
  cases hb : f.block? (UInt64.ofNat g) with
  | none =>
    rw [hb, Option.map_none, Option.getD_none, Nat.zero_div] at h
    exact absurd h (by decide)
  | some b =>
    have hlt := pageBlock_succ_lt hbits (fun h => hne h.1) hb
    rw [hb, Option.map_some, Option.getD_some, ← shifted_eq hbits] at h
    omega

section

variable (hpage : f.blockBits = pageBits)

include hpage

theorem perPage_eq_one : f.perPage = 1 := by
  rw [perPage, hpage]
  rfl

theorem pageBlock_of_device {g b : Nat} (h : f.device? g = some b) : f.pageBlock g = b := by
  rw [pageBlock, h, perPage_eq_one hpage, Nat.div_one]
  rfl

theorem good_iff {g : Nat} : f.Good g ↔ g < f.length ∧ f.device? g ≠ none := by
  rw [Good, perPage_eq_one hpage]
  refine and_congr_right fun _ => ⟨?_, fun h => ?_⟩
  · rintro ⟨b, hb, -⟩
    rw [Option.mem_def.mp hb]
    exact nofun
  · obtain ⟨b, hb⟩ := Option.ne_none_iff_exists'.mp h
    refine ⟨b, hb, Nat.one_dvd b, fun j hj => ?_⟩
    obtain rfl := Nat.lt_one_iff.mp hj
    exact hb

theorem device_of_holed {g : Nat} (h : f.Holed g) : f.device? g = none := by
  obtain ⟨j, hj, hnone, -⟩ := h
  rw [perPage_eq_one hpage, Nat.lt_one_iff] at hj
  rwa [hj, Nat.add_zero] at hnone

/-- As long as there are no holes, every block is a page. -/
theorem goodBelow_eq_range {n : Nat} (hin : n ≤ f.length) (hwhole : ∀ g < n, ¬ f.Holed g) :
    f.goodBelow n = List.range n := by
  refine List.filter_eq_self.mpr fun g hg => decide_eq_true ((good_iff hpage).mpr ?_)
  have hlt := List.mem_range.mp hg
  exact ⟨Nat.lt_of_lt_of_le hlt hin, fun hnone => hwhole g hlt (holed_of_hole hnone)⟩

end

end BlockMap

/-! ## 2. What a scan has found -/

namespace Layout

open BlockMap

variable {f : BlockMap} {limit probe : UInt64} {s : Found}

/-- Where blocks are pages, a scan at block `n` has found `n` pages. -/
theorem Passed.blocks_eq (h : Passed f limit probe s) (hpage : f.blockBits = pageBits) :
    (f.goodBelow probe.toNat).map f.pageBlock = (List.range probe.toNat).map f.pageBlock ∧
      s.pages.toNat = probe.toNat := by
  have hrange := goodBelow_eq_range hpage h.inside h.whole
  refine ⟨by rw [hrange], ?_⟩
  rw [h.count, hrange, List.length_range]

/-- **A page on the last block there is** was the last one that the scan has taken. -/
theorem Passed.next_of_top (h : Passed f limit probe s) (hpage : f.blockBits = pageBits) {j : Nat}
    (hj : j < probe.toNat) (htop : f.device? j = some topBlock) : probe.toNat = j + 1 := by
  by_contra hne
  have hlow := h.low
  rw [(h.blocks_eq hpage).1] at hlow
  have hmem : topBlock ∈ ((List.range probe.toNat).map f.pageBlock).dropLast := by
    refine List.mem_iff_getElem?.mpr ⟨j, ?_⟩
    rw [List.getElem?_dropLast, List.length_map, List.length_range, if_pos (by omega),
      List.getElem?_map, List.getElem?_range hj, Option.map_some, pageBlock_of_device hpage htop]
  exact absurd (hlow _ hmem) (Nat.lt_irrefl _)

/-- What a scan has found whose last page lies on the last block there is. -/
theorem Passed.at_top (h : Passed f limit probe s) (hbits : f.blockBits ≤ pageBits)
    (htop : ((f.goodBelow probe.toNat).map f.pageBlock).getLast? = some topBlock) :
    f.blockBits = pageBits ∧ ∃ j, probe.toNat = j + 1 ∧ f.device? j = some topBlock := by
  obtain ⟨g, -, hg⟩ := List.mem_map.mp (List.mem_of_mem_getLast? (Option.mem_def.mpr htop))
  have hpage := blockBits_of_top hbits hg
  rw [(h.blocks_eq hpage).1] at htop
  refine ⟨hpage, ?_⟩
  obtain ⟨j, hj⟩ : ∃ j, probe.toNat = j + 1 := by
    refine Nat.exists_eq_add_one_of_ne_zero fun hzero => ?_
    rw [hzero] at htop
    cases htop
  refine ⟨j, hj, ?_⟩
  rw [hj, List.range_succ, List.map_append, List.map_singleton, List.getLast?_concat] at htop
  injection htop with htop
  cases hb : f.device? j with
  | none => exact absurd (holed_of_hole hb) (h.whole j (by omega))
  | some b => rw [← htop, pageBlock_of_device hpage hb]

/-- The last of several blocks is the last one there is. -/
def EndsAtTop (blocks : List Nat) : Prop := ∃ init ≠ [], blocks = init ++ [topBlock]

theorem not_endsAtTop_of_lt {blocks : List Nat} (h : ∀ b ∈ blocks, b < topBlock) :
    ¬ EndsAtTop blocks := by
  rintro ⟨init, -, rfl⟩
  exact absurd (h topBlock List.mem_concat_self) (Nat.lt_irrefl _)

theorem not_endsAtTop_singleton : ¬ EndsAtTop [topBlock] := by
  rintro ⟨init, hne, h⟩
  have hlength := congrArg List.length h
  simp [hne] at hlength

/-- **The span of what was found.**  Only the last page may lie on the last block there is, and then
one more than the highest block is asked for, unless that block passes for no block at all. -/
theorem Passed.span_cases (h : Passed f limit probe s) :
    let others := ((f.goodBelow probe.toNat).map f.pageBlock).drop 1
    EndsAtTop others ∧ s.span = .error (.overflow .add) ∨
      ¬ EndsAtTop others ∧ ∃ span, s.span = .ok span ∧
        (others ≠ [topBlock] → span.toNat = spread others) ∧ (others = [topBlock] → span = 0) := by
  intro others
  have hlowest : s.lowest.toNat = others.foldl min topBlock := h.lowest
  have hhighest : s.highest.toNat = others.foldl max 0 := h.highest
  have hlow : ∀ b ∈ others.dropLast, b < topBlock := by
    intro b hb
    rw [List.dropLast_drop_eq_drop_dropLast] at hb
    exact h.low b (List.mem_of_mem_drop hb)
  have hword : ∀ b ∈ others, b < UInt64.size := by
    intro b hb
    obtain ⟨g, -, rfl⟩ := List.mem_map.mp (List.mem_of_mem_drop hb)
    exact f.pageBlock_lt_size g
  have htop : topBlock + 1 = UInt64.size := rfl
  -- below the last block the span is that of the pages
  have hbelow : (∀ b ∈ others, b < topBlock) → ¬ EndsAtTop others ∧
      ∃ span, s.span = .ok span ∧ (others ≠ [topBlock] → span.toNat = spread others) ∧
        (others = [topBlock] → span = 0) := by
    intro hall
    obtain ⟨span, hspan, hspread⟩ := h.toDiscovered.span hall
    refine ⟨not_endsAtTop_of_lt hall, span, hspan, fun _ => hspread, fun hsingle => ?_⟩
    exact absurd (hall topBlock (hsingle ▸ List.mem_singleton_self _)) (Nat.lt_irrefl _)
  clear_value others
  rcases List.eq_nil_or_concat' others with rfl | ⟨init, b, rfl⟩
  · exact .inr (hbelow nofun)
  rw [List.dropLast_concat] at hlow
  by_cases hlast : b = topBlock
  · subst hlast
    rw [List.foldl_concat] at hlowest hhighest
    cases init with
    | nil =>
      have hnone : s.lowest = 0xffffffffffffffff := UInt64.toNat_inj.mp hlowest
      refine .inr ⟨not_endsAtTop_singleton, 0, ?_, fun hne => absurd rfl hne, fun _ => rfl⟩
      unfold Found.span
      rw [if_pos hnone]
      rfl
    | cons b rest =>
      -- the first of the pages lies below the last block, and the last one on it
      have hmin : (topBlock :: b :: rest).min? = some ((b :: rest).foldl min topBlock) :=
        List.min?_cons'
      have hfirst := (List.min?_eq_some_iff.mp hmin).2 b
        (List.mem_cons_of_mem _ List.mem_cons_self)
      have hb := hlow b List.mem_cons_self
      have hsome : s.lowest ≠ 0xffffffffffffffff := by
        intro hnone
        rw [hnone] at hlowest
        have hsentinel : topBlock = (0xffffffffffffffff : UInt64).toNat := rfl
        omega
      have hover : ¬ (1 : UInt64).toNat + s.highest.toNat < UInt64.size := by
        have hone : (1 : UInt64).toNat = 1 := rfl
        have hle := Nat.le_max_right ((b :: rest).foldl max 0) topBlock
        omega
      refine .inl ⟨⟨b :: rest, List.cons_ne_nil _ _, rfl⟩, ?_⟩
      unfold Found.span addWord
      rw [if_neg hsome, if_neg hover]
      rfl
  · refine .inr (hbelow fun b' hb' => ?_)
    rcases List.mem_append.mp hb' with hinit | hb'
    · exact hlow b' hinit
    · obtain rfl := List.mem_singleton.mp hb'
      have := hword b' List.mem_concat_self
      omega

/-! ## 3. Where a scan ends -/

/-- At the page behind one on the last block there is, the scan has to add up where that ends. -/
theorem Passed.overrun_of_next (h : Passed f limit probe s) (hbits : f.blockBits ≤ pageBits)
    (hin : probe.toNat + f.perPage ≤ f.length) (hroom : s.pages < limit)
    (hgood : f.Good probe.toNat)
    (htop : ((f.goodBelow probe.toNat).map f.pageBlock).getLast? = some topBlock) :
    f.Overrun limit.toNat := by
  obtain ⟨hpage, j, hj, hdevice⟩ := h.at_top hbits htop
  have hpages := (h.blocks_eq hpage).2
  have hlimit := UInt64.lt_iff_toNat_lt.mp hroom
  rw [perPage_eq_one hpage] at hin
  refine ⟨hpage, j, by omega, hdevice, fun i hi _ hnone => ?_, .inl (by omega)⟩
  rcases Nat.lt_or_eq_of_le hi with hlt | rfl
  · exact h.whole i (by omega) (holed_of_hole hnone)
  · exact ((good_iff hpage).mp (hj ▸ hgood)).2 hnone

/-- At a hole it has not had to. -/
theorem Passed.not_overrun_of_hole (h : Passed f limit probe s)
    (hin : probe.toNat + f.perPage ≤ f.length) (hroom : s.pages < limit)
    (hholed : f.Holed probe.toNat) : ¬ f.Overrun limit.toNat := by
  rintro ⟨hpage, j, hj, hdevice, hwhole, -⟩
  have hpages := (h.blocks_eq hpage).2
  have hlimit := UInt64.lt_iff_toNat_lt.mp hroom
  have hnone := device_of_holed hpage hholed
  rw [perPage_eq_one hpage] at hin
  by_cases hpassed : j < probe.toNat
  · have hnext := h.next_of_top hpage hpassed hdevice
    exact hwhole probe.toNat (by omega) (by omega) hnone
  · exact hwhole probe.toNat (by omega) (by omega) hnone

/-- Behind all pages, it has to if there is a span to tell and the last page lies there. -/
theorem Passed.overrun_iff (h : Passed f limit probe s) (hbits : f.blockBits ≤ pageBits)
    (hstop : ¬ (probe.toNat + f.perPage ≤ f.length ∧ s.pages < limit)) :
    f.Overrun limit.toNat ↔
      EndsAtTop (((f.goodBelow probe.toNat).map f.pageBlock).drop 1) := by
  have hwithin := UInt64.le_iff_toNat_le.mp h.within
  have hinside := h.inside
  rw [UInt64.lt_iff_toNat_lt] at hstop
  constructor
  · rintro ⟨hpage, j, hj, hdevice, -, hwhere⟩
    obtain ⟨hblocks, hpages⟩ := h.blocks_eq hpage
    rw [perPage_eq_one hpage] at hstop
    have hnext := h.next_of_top hpage (show j < probe.toNat by omega) hdevice
    -- the header, at least one page, and the one on the last block
    obtain ⟨k, rfl⟩ : ∃ k, j = k + 2 := Nat.exists_eq_add_of_le' (by omega)
    refine ⟨((List.range (k + 2)).map f.pageBlock).drop 1, fun hnil => ?_, ?_⟩
    · have hlength := congrArg List.length hnil
      simp at hlength
    · rw [hblocks, hnext, List.range_succ, List.map_append, List.map_singleton,
        List.drop_append_of_le_length (by simp), pageBlock_of_device hpage hdevice]
  · rintro ⟨init, hne, htop⟩
    have hlast : ((f.goodBelow probe.toNat).map f.pageBlock).getLast? = some topBlock := by
      rw [← List.take_append_drop 1 ((f.goodBelow probe.toNat).map f.pageBlock), htop,
        ← List.append_assoc, List.getLast?_concat]
    obtain ⟨hpage, j, hj, hdevice⟩ := h.at_top hbits hlast
    obtain ⟨hblocks, hpages⟩ := h.blocks_eq hpage
    have hlength := congrArg List.length htop
    have hpos := List.length_pos_iff.mpr hne
    rw [perPage_eq_one hpage] at hstop
    simp only [hblocks, List.length_drop, List.length_map, List.length_range, List.length_append,
      List.length_singleton] at hlength
    refine ⟨hpage, j, by omega, hdevice, fun i hi hlt hnone => ?_, .inr (by omega)⟩
    exact h.whole i (by omega) (holed_of_hole hnone)

/-! ## 4. What a scan answers -/

/-- The pages besides the header, counted in a word. -/
theorem toNat_besides_header {pages : UInt64} {n : Nat} (h : pages.toNat = n) :
    (max pages 1 - 1).toNat = n - 1 := by
  have hone : (1 : UInt64).toNat = 1 := rfl
  have hmax := toNat_max pages 1
  rw [UInt64.toNat_sub_of_le _ _ (by rw [UInt64.le_iff_toNat_le]; omega)]
  omega

/-- What a scan answers that is complete. -/
structure Answered (f : BlockMap) (limit : UInt64) (table : ExtentTable) (dims : Dimensions) :
    Prop where
  lists : table.Lists (f.pageBlocks limit.toNat)
  pages : dims.pages.toNat = ((f.pageBlocks limit.toNat).drop 1).length
  /-- The span is that of the pages besides the header, ... -/
  span : (f.pageBlocks limit.toNat).drop 1 ≠ [topBlock] →
    dims.span.toNat = spread ((f.pageBlocks limit.toNat).drop 1)
  /-- ... except that of a single page on the last block there is, which has none. -/
  lost : (f.pageBlocks limit.toNat).drop 1 = [topBlock] → dims.span = 0

/-- **What a scan answers**, wherever the blocks of the file lie. -/
theorem scan_ended (hf : f.Sized) (limit : UInt64) :
    match scan f limit with
    | .ok (table, dims) => ¬ f.Overrun limit.toNat ∧ Answered f limit table dims
    | .error (.refused why) =>
      ¬ f.Overrun limit.toNat ∧ why = .hole ∧ ∃ i < f.length, f.device? i = none
    | .error (.fault fault) => f.Overrun limit.toNat ∧ fault = .overflow .add := by
  have hended := scanFrom_ended hf (passed_start f limit)
  generalize hfound : scanFrom f.block? (blocksPerPage f.blockBits)
    (pageBits - f.blockBits).toUInt64 limit (f.size >>> f.blockBits.toUInt64) 0 {} = answer
    at hended
  cases hended with
  | hole h hin hroom hholed =>
    rw [scan_of_error hf.bits hfound]
    obtain ⟨j, hj, hnone, -⟩ := id hholed
    exact ⟨h.not_overrun_of_hole hin hroom hholed, rfl, _, by omega, hnone⟩
  | overflow h hin hroom hgood htop =>
    rw [scan_of_error hf.bits hfound]
    exact ⟨h.overrun_of_next hf.bits hin hroom hgood htop, rfl⟩
  | @complete probe s h hstop =>
    rw [scan_of_ok hf.bits hfound]
    have hblocks : (f.goodBelow probe.toNat).map f.pageBlock = f.pageBlocks limit.toNat := by
      rw [h.toDiscovered.groups hstop]
      rfl
    have hlists := h.lists
    have hpages : s.pages.toNat = (f.pageBlocks limit.toNat).length := by
      rw [← hblocks, List.length_map]
      exact h.count
    have hbesides := (toNat_besides_header hpages).trans (List.length_drop ..).symm
    have hover := h.overrun_iff hf.bits hstop
    have hspan := h.span_cases
    rw [hblocks] at hlists hover hspan
    rcases hspan with ⟨htop, hspan⟩ | ⟨hlow, span, hspan, hspread, hlost⟩
    · rw [hspan]
      exact ⟨hover.mpr htop, rfl⟩
    · rw [hspan]
      exact ⟨fun h => hlow (hover.mp h), hlists, hbesides, hspread, hlost⟩

theorem scan_of_overrun (hf : f.Sized) (h : f.Overrun limit.toNat) :
    scan f limit = .error (.fault (.overflow .add)) := by
  have hended := scan_ended hf limit
  rcases hscan : scan f limit with (why | fault) | ⟨table, dims⟩
  all_goals rw [hscan] at hended
  · exact absurd h hended.1
  · rw [hended.2]
  · exact absurd h hended.1

theorem spread_eq_zero_iff {blocks : List Nat} : spread blocks = 0 ↔ blocks = [] := by
  cases blocks with
  | nil => exact ⟨fun _ => rfl, fun _ => rfl⟩
  | cons b rest =>
    refine ⟨fun h => ?_, nofun⟩
    have hmin : (b :: rest).min? = some (rest.foldl min b) := List.min?_cons'
    have hmax : (b :: rest).max? = some (rest.foldl max b) := List.max?_cons'
    have hlow := (List.min?_eq_some_iff.mp hmin).2 b List.mem_cons_self
    have hhigh := (List.max?_eq_some_iff.mp hmax).2 b List.mem_cons_self
    simp only [spread, hmin, hmax] at h
    omega

end Layout

open Layout in
/-- **A scan faults only at the last block there is.**  The file may lie on any blocks.  The scan
faults exactly if it has to add up behind a page on that block.  Otherwise, if it does not come to a
hole, it maps the pages that it was asked for, and reports the span of those besides the header: it
is 0 if there are none.  The one exception is a single page on the last block there is, which has
no span either. -/
theorem scan_fails_at_the_last_block_only {f : BlockMap} (hbits : f.blockBits ≤ pageBits)
    (hsize : f.size.toNat < 2 ^ 63) (limit : UInt64) :
    let others := (f.pageBlocks limit.toNat).drop 1
    (∀ fault, scan f limit = .error (.fault fault) ↔
      f.Overrun limit.toNat ∧ fault = .overflow .add) ∧
    (∀ why, scan f limit = .error (.refused why) →
      why = .hole ∧ ∃ i < f.length, f.device? i = none) ∧
    ∀ table dims, scan f limit = .ok (table, dims) →
      (∀ o, table.map? o = .ok ((f.pageBlocks limit.toNat)[o.toNat]?.map UInt64.ofNat)) ∧
      dims.pages.toNat = others.length ∧
      (others ≠ [topBlock] →
        dims.span.toNat = spread others ∧ (dims.span = 0 ↔ others = [])) ∧
      (others = [topBlock] → f.blockBits = pageBits ∧ dims.span = 0) := by
  intro others
  have hended := scan_ended ⟨hbits, hsize⟩ limit
  rcases hscan : scan f limit with (why | fault) | ⟨table, dims⟩
  all_goals rw [hscan] at hended
  · refine ⟨fun fault => ⟨nofun, fun h => absurd h.1 hended.1⟩, fun why' h => ?_, nofun⟩
    injection h with h
    injection h with h
    exact h ▸ hended.2
  · refine ⟨fun fault' => ⟨fun h => ?_, fun h => ?_⟩, nofun, nofun⟩
    · injection h with h
      injection h with h
      exact h ▸ hended
    · rw [h.2, hended.2]
  · refine ⟨fun fault => ⟨nofun, fun h => absurd h.1 hended.1⟩, nofun, fun table' dims' h => ?_⟩
    obtain ⟨rfl, rfl⟩ := Prod.mk.inj (Except.ok.inj h)
    obtain ⟨-, hlists, hpages, hspan, hlost⟩ := hended
    refine ⟨hlists.map?_eq fun b hb => ?_, hpages, fun hne => ⟨hspan hne, ?_⟩, fun htop => ?_⟩
    · obtain ⟨g, -, rfl⟩ := List.mem_map.mp hb
      exact f.pageBlock_lt_size g
    · rw [← spread_eq_zero_iff, ← hspan hne]
      exact UInt64.toNat_inj.symm
    · have hmem : topBlock ∈ others := htop ▸ List.mem_singleton_self _
      obtain ⟨g, -, hg⟩ := List.mem_map.mp (List.mem_of_mem_drop hmem)
      exact ⟨f.blockBits_of_top hbits hg, hlost htop⟩

/-- A file of whole pages on these blocks. -/
def pagesOn (blocks : List UInt64) : BlockMap where
  blockBits := 12
  size := UInt64.ofNat (4096 * blocks.length)
  block? i := blocks[i.toNat]?

/-- A file that would be laid out on the last block there is, if one more page were asked for. -/
def deepFile : BlockMap := pagesOn [3, 0xfffffffffffffffe, 7, 0xffffffffffffffff]

theorem span_below_the_last_block : deepFile.blockBits ≤ pageBits ∧ deepFile.size.toNat < 2 ^ 63 ∧
    ∃ table dims, Layout.scan deepFile 3 = .ok (table, dims) ∧
      table.map? 1 = .ok (some 0xfffffffffffffffe) ∧ table.map? 3 = .ok none ∧ dims.pages = 2 ∧
      dims.span = 0xfffffffffffffff8 := by
  have hbits : deepFile.blockBits ≤ pageBits := by decide
  have hsize : deepFile.size.toNat < 2 ^ 63 := by decide
  have hthree : (3 : UInt64).toNat = 3 := rfl
  have hblocks : deepFile.pageBlocks 3 = [3, 0xfffffffffffffffe, 7] := by decide
  obtain ⟨hfault, hrefused, hok⟩ := scan_fails_at_the_last_block_only hbits hsize 3
  refine ⟨hbits, hsize, ?_⟩
  rcases hscan : Layout.scan deepFile 3 with (why | fault) | ⟨table, dims⟩
  · exact absurd (hrefused why hscan).2 (by decide)
  · exact absurd ((hfault fault).mp hscan).1 (by decide)
  · obtain ⟨hmaps, hpages, hspan, -⟩ := hok table dims hscan
    rw [hthree, hblocks] at hmaps hpages hspan
    refine ⟨table, dims, rfl, hmaps 1, hmaps 3, UInt64.toNat_inj.mp hpages, ?_⟩
    exact UInt64.toNat_inj.mp (hspan (by decide)).1

/-- **Sums and a span that the last block costs.**  The span of two pages is one, but if the second
one lies on the last block there is it passes for no page at all.  With a page between the two the
scan comes to one more than the highest block, and with a page behind them to where the extent of
the second one ends. -/
theorem span_lost_on_the_last_block :
    (∃ table dims, Layout.scan (pagesOn [5, 0xffffffffffffffff]) unlimited = .ok (table, dims) ∧
      table.map? 1 = .ok (some 0xffffffffffffffff) ∧ dims.pages = 1 ∧ dims.span = 0 ∧
      Layout.spread [0xffffffffffffffff] = 1) ∧
    Layout.scan (pagesOn [5, 7, 0xffffffffffffffff]) unlimited =
      .error (.fault (.overflow .add)) ∧
    Layout.scan (pagesOn [5, 0xffffffffffffffff, 9]) unlimited =
      .error (.fault (.overflow .add)) := by
  refine ⟨?_, Layout.scan_of_overrun ⟨by decide, by decide⟩ (by decide),
    Layout.scan_of_overrun ⟨by decide, by decide⟩ (by decide)⟩
  have hended := Layout.scan_ended (f := pagesOn [5, 0xffffffffffffffff])
    ⟨by decide, by decide⟩ unlimited
  have hblocks : (pagesOn [5, 0xffffffffffffffff]).pageBlocks unlimited.toNat =
    [5, 0xffffffffffffffff] := by decide
  rcases hscan : Layout.scan (pagesOn [5, 0xffffffffffffffff]) unlimited with
    (why | fault) | ⟨table, dims⟩
  all_goals rw [hscan] at hended
  · exact absurd hended.2.2 (by decide)
  · exact absurd hended.1 (by decide)
  · obtain ⟨-, hlists, hpages, -, hlost⟩ := hended
    have hword : ∀ b ∈ [5, 0xffffffffffffffff], b < UInt64.size := by decide
    rw [hblocks] at hlists hpages hlost
    exact ⟨table, dims, rfl, hlists.map?_eq hword 1, UInt64.toNat_inj.mp hpages, hlost rfl, rfl⟩

end PageSwap
