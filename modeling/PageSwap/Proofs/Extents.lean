/-
# What an extent table maps

An extent table is searched by halving and holds words whose sums may not fit.  This file says
what a table means: `ExtentTable.Maps t o b`, page `o` lies on block `b`, in numbers.

Three things are asked of tables, and they are kept apart because they are needed apart.  That the
extents end inside a word and one before the next (`InOrder`) is all a search looks at.  That their
BLOCKS end inside a word too (`Ordered`) is what a lookup adds up behind the search.  That no extent
goes on where another one ends (`Merged`) no lookup needs; it makes the extents the longest runs
there are, and it is stated of ALL pairs and not of neighbours, which is the same in an ordered
table and is kept by a merge without a look at what lies between.  Only `Fits.blocks` allows
equality: a run may end with the last block there is, and the sum that does not fit then is made by
the next call.

* `find?_eq_some_iff`, `find?_eq_none_iff` -- in an ordered table, the search finds the extent that
  holds a page, and fails exactly if there is none.
* `map?_eq_some_iff`, `map?_eq_none_iff` -- so the table answers what it means.
* `onlySums_map?` -- what can go wrong in a table that is not in order.
* `Ordered.adds` -- what adding a run can do to an ordered table, wherever the run belongs.
* `add_at_end` -- a run added behind all extents is mapped, and nothing else changes.
* `same_extent_iff` -- in a table without extents that could be one, a run of pages lies on a run
  of blocks exactly if one extent holds both of its ends.
-/
import Mathlib.Data.List.Basic
import Mathlib.Data.List.TakeWhile
import Mathlib.Tactic.ByContra
import PageSwap.Extent.Table

namespace PageSwap

/-! ## 1. Sums of words -/

theorem addWord_ok {a b : UInt64} (h : a.toNat + b.toNat < UInt64.size) :
    addWord a b = .ok (a + b) := by
  rw [addWord, if_pos h]

theorem toNat_add_of_lt {a b : UInt64} (h : a.toNat + b.toNat < UInt64.size) :
    (a + b).toNat = a.toNat + b.toNat := by
  rw [UInt64.toNat_add]; exact Nat.mod_eq_of_lt h

/-- A sum of words fits, or it is an overflow. -/
theorem addWord_cases (a b : UInt64) :
    (∃ c, addWord a b = .ok c ∧ c.toNat = a.toNat + b.toNat) ∨
      addWord a b = .error (.overflow .add) := by
  by_cases h : a.toNat + b.toNat < UInt64.size
  · exact Or.inl ⟨a + b, addWord_ok h, toNat_add_of_lt h⟩
  · exact Or.inr (by rw [addWord, if_neg h])

/-- A computation in which nothing but a sum of words can go wrong. -/
def OnlySums {α : Type} (x : Except Fault α) : Prop := ∀ f, x = .error f → f = .overflow .add

theorem onlySums_ok {α : Type} (a : α) : OnlySums (.ok a) := nofun

theorem onlySums_addWord (a b : UInt64) : OnlySums (addWord a b) := by
  intro f hf
  rcases addWord_cases a b with ⟨c, hc, -⟩ | hc
  · rw [hc] at hf; exact absurd hf nofun
  · rw [hc] at hf; injection hf with hf; exact hf.symm

theorem OnlySums.bind {α β : Type} {x : Except Fault α} {k : α → Except Fault β} (hx : OnlySums x)
    (hk : ∀ a, OnlySums (k a)) : OnlySums (x >>= k) := by
  intro f hf
  cases x with
  | ok a => exact hk a f hf
  | error e => injection hf with hf; exact hf ▸ hx e rfl

/-! ## 2. One extent -/

namespace Extent

/-- One past the last page, as a number. -/
def stop (e : Extent) : Nat := e.startPage.toNat + e.nrPages.toNat

/-- One past the last block, as a number. -/
def blockStop (e : Extent) : Nat := e.startBlock.toNat + e.nrPages.toNat

/-- Page `o` is in the run. -/
def Holds (e : Extent) (o : Nat) : Prop := e.startPage.toNat ≤ o ∧ o < e.stop

instance (e : Extent) (o : Nat) : Decidable (e.Holds o) :=
  inferInstanceAs (Decidable (_ ∧ _))

/-- The block of page `o`, if the run holds it. -/
def blockOf (e : Extent) (o : Nat) : Nat := e.startBlock.toNat + (o - e.startPage.toNat)

/-- The run is not empty, its pages end inside a word, and so do its blocks. -/
structure Fits (e : Extent) : Prop where
  pos : 0 < e.nrPages.toNat
  pages : e.stop < UInt64.size
  blocks : e.blockStop ≤ UInt64.size

/-- `e` ends before `e'` starts. -/
def Before (e e' : Extent) : Prop := e.stop ≤ e'.startPage.toNat

instance (e e' : Extent) : Decidable (e.Before e') :=
  inferInstanceAs (Decidable (_ ≤ _))

/-- `e'` goes on where `e` ends, in swap as well as on disk. -/
def Continues (e e' : Extent) : Prop :=
  e.stop = e'.startPage.toNat ∧ e.blockStop = e'.startBlock.toNat

theorem endPage_ok {e : Extent} (h : e.stop < UInt64.size) :
    ∃ c, e.endPage = .ok c ∧ c.toNat = e.stop :=
  ⟨_, addWord_ok h, toNat_add_of_lt h⟩

theorem contains_ok {e : Extent} (h : e.stop < UInt64.size) (o : UInt64) :
    e.contains o = .ok (decide (e.Holds o.toNat)) := by
  obtain ⟨c, hc, hn⟩ := endPage_ok h
  simp only [contains, hc, bind, Except.bind, pure, Except.pure, Except.ok.injEq]
  rw [Bool.eq_iff_iff, Bool.and_eq_true, decide_eq_true_eq, decide_eq_true_eq, decide_eq_true_eq,
    UInt64.le_iff_toNat_le, UInt64.lt_iff_toNat_lt, hn, Holds]

theorem Holds.before {e e' : Extent} {o : Nat} (h : e.Holds o) (hb : e.Before e') :
    ¬ e'.Holds o := by
  intro h'
  have h1 := h.2
  have h2 := h'.1
  unfold Before at hb
  omega

/-- The block of a page fits a word. -/
theorem toNat_blockOf {e : Extent} (h : e.Fits) {o : UInt64} (ho : e.Holds o.toNat) :
    e.startBlock.toNat + (o - e.startPage).toNat < UInt64.size ∧
      (e.startBlock + (o - e.startPage)).toNat = e.blockOf o.toNat := by
  have hsub : (o - e.startPage).toNat = o.toNat - e.startPage.toNat :=
    UInt64.toNat_sub_of_le _ _ (UInt64.le_iff_toNat_le.mpr ho.1)
  have hlt : e.startBlock.toNat + (o - e.startPage).toNat < UInt64.size := by
    have h1 := h.blocks
    have h2 := ho.2
    have h3 := ho.1
    unfold blockStop at h1
    unfold stop at h2
    omega
  refine ⟨hlt, ?_⟩
  rw [toNat_add_of_lt hlt, hsub, blockOf]

section Longer

variable {e e' : Extent} {n : UInt64} (hn : n.toNat = e.nrPages.toNat + e'.nrPages.toNat)

include hn

/-- An extent that takes in the run that continues it ends where the run does, ... -/
theorem Continues.stop_eq (h : e.Continues e') :
    ({ e with nrPages := n } : Extent).stop = e'.stop := by
  have hpage := h.1
  simp only [stop] at hpage ⊢
  omega

/-- ... in swap as well as on disk, ... -/
theorem Continues.blockStop_eq (h : e.Continues e') :
    ({ e with nrPages := n } : Extent).blockStop = e'.blockStop := by
  have hblock := h.2
  simp only [blockStop] at hblock ⊢
  omega

/-- ... holds the pages of both, ... -/
theorem Continues.holds_iff (h : e.Continues e') (o : Nat) :
    ({ e with nrPages := n } : Extent).Holds o ↔ e.Holds o ∨ e'.Holds o := by
  have hpage := h.1
  simp only [Holds, h.stop_eq hn]
  simp only [stop] at hpage ⊢
  omega

omit hn in
/-- ... and leaves each page on its block. -/
theorem Continues.blockOf_eq (h : e.Continues e') {o : Nat} (ho : e'.Holds o) :
    e'.blockOf o = ({ e with nrPages := n } : Extent).blockOf o := by
  have hpage := h.1
  have hblock := h.2
  have hstart := ho.1
  simp only [blockOf, stop, blockStop] at hpage hblock ⊢
  omega

end Longer

end Extent

/-! ## 3. Halving -/

namespace ExtentTable

/-- **Halving finds the end of the prefix that passes.**  What is left to look at are `size`
elements from `base` on; those before them pass and those behind them do not. -/
theorem partitionPoint_spec {test : Extent → Except Fault Bool} {xs : Array Extent}
    {g : Extent → Prop} [DecidablePred g]
    (htest : ∀ i (h : i < xs.size), test xs[i] = .ok (decide (g xs[i])))
    (hlead : ∀ i j (hi : i < xs.size) (hj : j < xs.size), i ≤ j → g xs[j] → g xs[i]) :
    ∀ (size base : Nat), base + size ≤ xs.size → (size = 0 → xs.size = 0) →
      (∀ i (h : i < xs.size), i < base → g xs[i]) →
      (∀ i (h : i < xs.size), base + size ≤ i → ¬ g xs[i]) →
      ∃ k, partitionPoint test xs base size = .ok k ∧ k ≤ xs.size ∧
        ∀ i (h : i < xs.size), g xs[i] ↔ i < k := by
  intro size
  induction size using Nat.strongRecOn with
  | ind size ih =>
    intro base hsize hempty hlow hhigh
    rw [partitionPoint]
    by_cases h1 : 1 < size
    · rw [dif_pos h1]
      have hmid : base + size / 2 < xs.size := by omega
      simp only [Array.getElem?_eq_getElem hmid, htest _ hmid, bind, Except.bind]
      by_cases hg : g xs[base + size / 2]
      · rw [decide_eq_true hg]
        refine ih (size - size / 2) (by omega) (base + size / 2) (by omega) (by omega) ?_ ?_
        · intro i hi hlt
          exact hlead i _ hi hmid (by omega) hg
        · intro i hi hle
          exact hhigh i hi (by omega)
      · rw [decide_eq_false hg]
        refine ih (size - size / 2) (by omega) base (by omega) (by omega) hlow ?_
        intro i hi hle hgi
        exact hg (hlead _ i hmid hi (by omega) hgi)
    · rw [dif_neg h1]
      by_cases h0 : size = 0
      · have hx := hempty h0
        rw [Array.getElem?_eq_none (by omega)]
        exact ⟨base, rfl, by omega, fun i hi => by omega⟩
      · have hbase : base < xs.size := by omega
        simp only [Array.getElem?_eq_getElem hbase, htest _ hbase, bind, Except.bind, pure,
          Except.pure, decide_eq_true_eq]
        refine ⟨_, rfl, by split <;> omega, fun i hi => ?_⟩
        by_cases hg : g xs[base]
        · rw [if_pos hg]
          constructor
          · intro hgi
            by_contra hlt
            exact hhigh i hi (by omega) hgi
          · intro hlt
            exact hlead i base hi hbase (by omega) hg
        · rw [if_neg hg]
          constructor
          · intro hgi
            by_contra hlt
            exact hg (hlead base i hbase hi (by omega) hgi)
          · exact hlow i hi

/-! ## 4. Ordered tables -/

/-- The extents fit, and each ends before the next one starts. -/
structure Ordered (t : ExtentTable) : Prop where
  fits : ∀ e ∈ t.extents, e.Fits
  before : t.extents.Pairwise Extent.Before

/-- No extent continues another one. -/
def Merged (t : ExtentTable) : Prop := t.extents.Pairwise fun e e' => ¬ e.Continues e'

/-- Page `o` lies on block `b`. -/
def Maps (t : ExtentTable) (o b : Nat) : Prop := ∃ e ∈ t.extents, e.Holds o ∧ e.blockOf o = b

theorem ordered_empty : Ordered {} := ⟨nofun, List.Pairwise.nil⟩

theorem merged_empty : Merged {} := List.Pairwise.nil

/-- The pages of all extents end inside a word, and each extent ends before the next one starts.
This is all that a search looks at; where the blocks are does not matter to it. -/
structure InOrder (t : ExtentTable) : Prop where
  pages : ∀ e ∈ t.extents, e.stop < UInt64.size
  before : t.extents.Pairwise Extent.Before

theorem Ordered.inOrder {t : ExtentTable} (h : t.Ordered) : t.InOrder :=
  ⟨fun e he => (h.fits e he).pages, h.before⟩

/-- Two extents of a table in order that hold one page are one extent. -/
theorem InOrder.holds_unique {t : ExtentTable} (h : t.InOrder) {e e' : Extent} {o : Nat}
    (he : e ∈ t.extents) (he' : e' ∈ t.extents) (ho : e.Holds o) (ho' : e'.Holds o) : e = e' := by
  obtain ⟨i, hi, rfl⟩ := List.mem_iff_getElem.mp he
  obtain ⟨j, hj, rfl⟩ := List.mem_iff_getElem.mp he'
  rcases Nat.lt_trichotomy i j with hij | hij | hij
  · exact absurd ho' (ho.before (List.pairwise_iff_getElem.mp h.before i j hi hj hij))
  · subst hij; rfl
  · exact absurd ho (ho'.before (List.pairwise_iff_getElem.mp h.before j i hj hi hij))

theorem Ordered.holds_unique {t : ExtentTable} (h : t.Ordered) {e e' : Extent} {o : Nat}
    (he : e ∈ t.extents) (he' : e' ∈ t.extents) (ho : e.Holds o) (ho' : e'.Holds o) : e = e' :=
  h.inOrder.holds_unique he he' ho ho'

/-- A page lies on one block only. -/
theorem Ordered.maps_unique {t : ExtentTable} (h : t.Ordered) {o b b' : Nat}
    (hb : t.Maps o b) (hb' : t.Maps o b') : b = b' := by
  obtain ⟨e, he, ho, rfl⟩ := hb
  obtain ⟨e', he', ho', rfl⟩ := hb'
  rw [h.holds_unique he he' ho ho']

/-- Pages before which an extent ends form a prefix of a table in order. -/
theorem InOrder.stop_le_of_le {t : ExtentTable} (h : t.InOrder) {o i j : Nat}
    (hi : i < t.extents.length) (hj : j < t.extents.length) (hij : i ≤ j)
    (ho : t.extents[j].stop ≤ o) : t.extents[i].stop ≤ o := by
  rcases Nat.eq_or_lt_of_le hij with rfl | hlt
  · exact ho
  · have hb : t.extents[i].stop ≤ t.extents[j].startPage.toNat :=
      List.pairwise_iff_getElem.mp h.before i j hi hj hlt
    have hs : t.extents[j].startPage.toNat ≤ t.extents[j].stop := Nat.le_add_right _ _
    omega

/-- **The search answers, and its answer is the extent that holds the page.** -/
theorem InOrder.find?_spec {t : ExtentTable} (h : t.InOrder) (o : UInt64) :
    ∃ r, t.find? o = .ok r ∧ ∀ e, r = some e ↔ e ∈ t.extents ∧ e.Holds o.toNat := by
  have htest : ∀ i (hi : i < t.extents.toArray.size),
      (do return decide ((← t.extents.toArray[i].endPage) ≤ o) : Except Fault Bool) =
        .ok (decide (t.extents.toArray[i].stop ≤ o.toNat)) := by
    intro i hi
    have hm : t.extents.toArray[i] ∈ t.extents := by simp
    obtain ⟨c, hc, hn⟩ := Extent.endPage_ok (h.pages _ hm)
    simp only [hc, bind, Except.bind, pure, Except.pure, UInt64.le_iff_toNat_le, hn]
  have hlead : ∀ i j (hi : i < t.extents.toArray.size) (hj : j < t.extents.toArray.size), i ≤ j →
      t.extents.toArray[j].stop ≤ o.toNat → t.extents.toArray[i].stop ≤ o.toNat := by
    intro i j hi hj hij ho
    exact h.stop_le_of_le (by simpa using hi) (by simpa using hj) hij (by simpa using ho)
  -- the extent halving comes to is the first one that does not end before the page
  obtain ⟨k, hk, -, hpoint⟩ := @partitionPoint_spec
    (fun e => return (← e.endPage) ≤ o) _ (fun e => e.stop ≤ o.toNat) _ htest hlead
    t.extents.toArray.size 0 (by omega) (by omega) (fun i _ hi => absurd hi (by omega))
    (fun i hi hle => absurd hi (by omega))
  simp only [find?]
  rw [hk]
  simp only [bind, Except.bind]
  have hpoint' : ∀ i (hi : i < t.extents.length), t.extents[i].stop ≤ o.toNat ↔ i < k := by
    intro i hi
    have hp := hpoint i (by simpa using hi)
    rwa [List.getElem_toArray] at hp
  by_cases hlen : k < t.extents.length
  · have hm : t.extents[k] ∈ t.extents := List.getElem_mem hlen
    have hnot : ¬ t.extents[k].stop ≤ o.toNat :=
      fun hs => absurd ((hpoint' k hlen).mp hs) (by omega)
    rw [List.getElem?_toArray, List.getElem?_eq_getElem hlen]
    simp only [Extent.contains_ok (h.pages _ hm), pure, Except.pure, decide_eq_true_eq]
    by_cases hh : t.extents[k].Holds o.toNat
    · rw [if_pos hh]
      refine ⟨_, rfl, fun e => ⟨?_, ?_⟩⟩
      · rintro ⟨rfl⟩
        exact ⟨hm, hh⟩
      · rintro ⟨he, ho⟩
        rw [h.holds_unique he hm ho hh]
    · rw [if_neg hh]
      refine ⟨_, rfl, fun e => ⟨fun hn => absurd hn.symm (Option.some_ne_none e), ?_⟩⟩
      rintro ⟨he, ho⟩
      exfalso
      obtain ⟨i, hi, rfl⟩ := List.mem_iff_getElem.mp he
      have hik : ¬ i < k := fun hlt => absurd ((hpoint' i hi).mpr hlt) (by have := ho.2; omega)
      rcases Nat.eq_or_lt_of_le (Nat.le_of_not_lt hik) with rfl | hlt
      · exact hh ho
      · -- the extent found starts behind the page, so every later one does
        have hb : t.extents[k].stop ≤ t.extents[i].startPage.toNat :=
          List.pairwise_iff_getElem.mp h.before k i hlen hi hlt
        have hs := ho.1
        omega
  · rw [List.getElem?_toArray, List.getElem?_eq_none (by omega)]
    refine ⟨_, rfl, fun e => ⟨fun hn => absurd hn.symm (Option.some_ne_none e), ?_⟩⟩
    rintro ⟨he, ho⟩
    exfalso
    obtain ⟨i, hi, rfl⟩ := List.mem_iff_getElem.mp he
    have hs := (hpoint' i hi).mpr (by omega)
    have := ho.2
    omega

theorem InOrder.find?_eq_some_iff {t : ExtentTable} (h : t.InOrder) {o : UInt64} {e : Extent} :
    t.find? o = .ok (some e) ↔ e ∈ t.extents ∧ e.Holds o.toNat := by
  obtain ⟨r, hr, hspec⟩ := h.find?_spec o
  rw [hr, Except.ok.injEq]
  exact hspec e

theorem InOrder.find?_eq_none_iff {t : ExtentTable} (h : t.InOrder) {o : UInt64} :
    t.find? o = .ok none ↔ ∀ e ∈ t.extents, ¬ e.Holds o.toNat := by
  obtain ⟨r, hr, hspec⟩ := h.find?_spec o
  rw [hr, Except.ok.injEq]
  constructor
  · rintro rfl e he ho
    exact absurd ((hspec e).mpr ⟨he, ho⟩) nofun
  · intro hno
    cases r with
    | none => rfl
    | some e =>
      obtain ⟨he, ho⟩ := (hspec e).mp rfl
      exact absurd ho (hno e he)

theorem Ordered.find?_eq_some_iff {t : ExtentTable} (h : t.Ordered) {o : UInt64} {e : Extent} :
    t.find? o = .ok (some e) ↔ e ∈ t.extents ∧ e.Holds o.toNat :=
  h.inOrder.find?_eq_some_iff

theorem Ordered.find?_eq_none_iff {t : ExtentTable} (h : t.Ordered) {o : UInt64} :
    t.find? o = .ok none ↔ ∀ e ∈ t.extents, ¬ e.Holds o.toNat :=
  h.inOrder.find?_eq_none_iff

/-- The table answers for every page. -/
theorem Ordered.map?_spec {t : ExtentTable} (h : t.Ordered) (o : UInt64) :
    ∃ r, t.map? o = .ok r ∧ ∀ b : UInt64, r = some b ↔ t.Maps o.toNat b.toNat := by
  obtain ⟨r, hr, hspec⟩ := h.inOrder.find?_spec o
  simp only [map?, hr, bind, Except.bind]
  cases r with
  | none =>
    refine ⟨none, rfl, fun b => ⟨fun hn => absurd hn.symm (Option.some_ne_none b), ?_⟩⟩
    rintro ⟨e, he, ho, -⟩
    exact absurd ((hspec e).mpr ⟨he, ho⟩).symm (Option.some_ne_none e)
  | some e =>
    obtain ⟨he, ho⟩ := (hspec e).mp rfl
    obtain ⟨hlt, hblock⟩ := Extent.toNat_blockOf (h.fits e he) ho
    simp only [addWord_ok hlt, pure, Except.pure]
    refine ⟨_, rfl, fun b => ⟨?_, ?_⟩⟩
    · rintro ⟨rfl⟩
      exact ⟨e, he, ho, hblock.symm⟩
    · intro hb
      have hn : b.toNat = (e.startBlock + (o - e.startPage)).toNat :=
        h.maps_unique hb ⟨e, he, ho, hblock.symm⟩
      rw [UInt64.toNat_inj.mp hn]

theorem Ordered.map?_eq_some_iff {t : ExtentTable} (h : t.Ordered) {o b : UInt64} :
    t.map? o = .ok (some b) ↔ t.Maps o.toNat b.toNat := by
  obtain ⟨r, hr, hspec⟩ := h.map?_spec o
  rw [hr, Except.ok.injEq]
  exact hspec b

theorem Ordered.map?_eq_none_iff {t : ExtentTable} (h : t.Ordered) {o : UInt64} :
    t.map? o = .ok none ↔ ∀ b, ¬ t.Maps o.toNat b := by
  unfold map?
  obtain ⟨r, hr, hspec⟩ := h.inOrder.find?_spec o
  simp only [hr, bind, Except.bind]
  cases r with
  | none =>
    refine ⟨fun _ b hb => ?_, fun _ => rfl⟩
    obtain ⟨e, he, ho, -⟩ := hb
    exact absurd ((hspec e).mpr ⟨he, ho⟩).symm (Option.some_ne_none e)
  | some e =>
    obtain ⟨he, ho⟩ := (hspec e).mp rfl
    refine ⟨fun hn => ?_, fun hno => absurd ⟨e, he, ho, rfl⟩ (hno _)⟩
    rcases addWord_cases e.startBlock (o - e.startPage) with ⟨c, hc, -⟩ | hc
    · simp [hc, pure, Except.pure] at hn
    · simp [hc] at hn

/-! ## 5. Tables in any order -/

theorem onlySums_partitionPoint {test : Extent → Except Fault Bool} {xs : Array Extent}
    (htest : ∀ e, OnlySums (test e)) :
    ∀ size base, OnlySums (partitionPoint test xs base size) := by
  intro size
  induction size using Nat.strongRecOn with
  | ind size ih =>
    intro base
    rw [partitionPoint]
    split
    · dsimp only
      split
      · exact (htest _).bind fun _ => ih _ (by omega) _
      · exact (onlySums_ok _).bind fun _ => ih _ (by omega) _
    · split
      · exact (htest _).bind fun _ => onlySums_ok _
      · exact onlySums_ok _

/-- In any table, only a sum of words can go wrong. -/
theorem onlySums_map? (t : ExtentTable) (o : UInt64) : OnlySums (t.map? o) := by
  have hend : ∀ e : Extent, OnlySums e.endPage := fun e => onlySums_addWord _ _
  have hfind : OnlySums (t.find? o) := by
    refine (onlySums_partitionPoint (fun e => (hend e).bind fun _ => onlySums_ok _) _ _).bind
      fun i => ?_
    split
    · exact ((hend _).bind fun _ => onlySums_ok _).bind fun _ => onlySums_ok _
    · exact onlySums_ok _
  refine hfind.bind fun r => ?_
  cases r with
  | none => exact onlySums_ok _
  | some e => exact (onlySums_addWord _ _).bind fun _ => onlySums_ok _

/-! ## 6. Adding a run -/

/-- The order that every change of a table checks holds in an ordered one. -/
theorem sorted_of_ordered : ∀ {l : List Extent}, (∀ e ∈ l, e.Fits) → l.Pairwise Extent.Before →
    sorted l = .ok true
  | [], _, _ => rfl
  | [_], _, _ => rfl
  | e :: next :: rest, hf, hb => by
    obtain ⟨c, hc, hn⟩ := Extent.endPage_ok (hf e List.mem_cons_self).pages
    have hle : c ≤ next.startPage := by
      rw [UInt64.le_iff_toNat_le, hn]
      exact (List.pairwise_cons.mp hb).1 next List.mem_cons_self
    have ih := sorted_of_ordered (fun x hx => hf x (List.mem_cons_of_mem e hx))
      (List.pairwise_cons.mp hb).2
    simp only [sorted, hc, bind, Except.bind, hle, if_true, ih]

theorem Ordered.ofList_ok {l : List Extent} (h : Ordered ⟨l⟩) : ofList l = .ok ⟨l⟩ := by
  simp only [ofList, sorted_of_ordered h.fits h.before, bind, Except.bind, if_true, pure,
    Except.pure]

/-- The two kinds of errors in `add`, for those of its parts that have only the first. -/
theorem lift_ok {α : Type} (a : α) : (liftM (.ok a : Except Fault α) : Except Stop α) = .ok a := rfl

section Placed

variable {before after : List Extent} {prev new : Extent} {n : UInt64}

/-- A run between the extents before it and those behind it. -/
theorem Ordered.insert (h : Ordered ⟨before ++ after⟩) (hf : new.Fits)
    (hbefore : ∀ e ∈ before, e.Before new) (hafter : ∀ e ∈ after, new.Before e) :
    Ordered ⟨before ++ new :: after⟩ := by
  obtain ⟨hb, ha, hba⟩ := List.pairwise_append.mp h.before
  refine ⟨fun e he => ?_, List.pairwise_append.mpr
    ⟨hb, List.pairwise_cons.mpr ⟨hafter, ha⟩, fun e he e' he' => ?_⟩⟩
  · rcases List.mem_append.mp he with he | he
    · exact h.fits e (List.mem_append_left _ he)
    · rcases List.mem_cons.mp he with rfl | he
      · exact hf
      · exact h.fits e (List.mem_append_right _ he)
  · rcases List.mem_cons.mp he' with rfl | he'
    · exact hbefore e he
    · exact hba e he e' he'

/-- A table with one more run maps the pages of the run besides what it mapped. -/
theorem maps_insert (o b : Nat) : Maps ⟨before ++ new :: after⟩ o b ↔
    Maps ⟨before ++ after⟩ o b ∨ new.Holds o ∧ new.blockOf o = b := by
  simp only [Maps, List.mem_append, List.mem_cons]
  constructor
  · rintro ⟨e, he | rfl | he, ho⟩
    · exact Or.inl ⟨e, Or.inl he, ho⟩
    · exact Or.inr ho
    · exact Or.inl ⟨e, Or.inr he, ho⟩
  · rintro (⟨e, he | he, ho⟩ | ho)
    · exact ⟨e, Or.inl he, ho⟩
    · exact ⟨e, Or.inr (Or.inr he), ho⟩
    · exact ⟨new, Or.inr (Or.inl rfl), ho⟩

variable (hn : n.toNat = prev.nrPages.toNat + new.nrPages.toNat)

include hn

/-- A run merged into the extent it continues. -/
theorem Ordered.merge (h : Ordered ⟨before ++ prev :: after⟩) (hf : new.Fits)
    (hcont : prev.Continues new) (hafter : ∀ e ∈ after, new.Before e) :
    Ordered ⟨before ++ { prev with nrPages := n } :: after⟩ := by
  obtain ⟨hb, hpa, hba⟩ := List.pairwise_append.mp h.before
  have hstop := hcont.stop_eq hn
  have hpos := hf.pos
  refine ⟨fun e he => ?_, List.pairwise_append.mpr ⟨hb, List.pairwise_cons.mpr
    ⟨fun e he => ?_, (List.pairwise_cons.mp hpa).2⟩, fun e he e' he' => ?_⟩⟩
  · rcases List.mem_append.mp he with he | he
    · exact h.fits e (List.mem_append_left _ he)
    · rcases List.mem_cons.mp he with rfl | he
      · refine ⟨?_, hstop ▸ hf.pages, hcont.blockStop_eq hn ▸ hf.blocks⟩
        show 0 < n.toNat
        omega
      · exact h.fits e (List.mem_append_right _ (List.mem_cons_of_mem _ he))
  · rw [Extent.Before, hstop]
    exact hafter e he
  · rcases List.mem_cons.mp he' with rfl | he'
    · exact hba e he prev List.mem_cons_self
    · exact hba e he e' (List.mem_cons_of_mem _ he')

/-- Merging maps what a further extent would. -/
theorem maps_merge (hcont : prev.Continues new) (o b : Nat) :
    Maps ⟨before ++ { prev with nrPages := n } :: after⟩ o b ↔
      Maps ⟨before ++ prev :: after⟩ o b ∨ new.Holds o ∧ new.blockOf o = b := by
  have hmem : ∀ e, e ∈ before ++ prev :: after ↔ e ∈ before ++ after ∨ e = prev := by
    intro e; simp only [List.mem_append, List.mem_cons]; tauto
  rw [maps_insert]
  constructor
  · rintro (⟨e, he, ho⟩ | ⟨ho, hb⟩)
    · exact Or.inl ⟨e, (hmem e).mpr (Or.inl he), ho⟩
    · rcases (hcont.holds_iff hn o).mp ho with ho | ho
      · exact Or.inl ⟨prev, (hmem prev).mpr (Or.inr rfl), ho, hb⟩
      · exact Or.inr ⟨ho, (hcont.blockOf_eq ho).trans hb⟩
  · rintro (⟨e, he, ho, hb⟩ | ⟨ho, hb⟩)
    · rcases (hmem e).mp he with he | rfl
      · exact Or.inl ⟨e, he, ho, hb⟩
      · exact Or.inr ⟨(hcont.holds_iff hn o).mpr (Or.inl ho), hb⟩
    · exact Or.inr ⟨(hcont.holds_iff hn o).mpr (Or.inr ho), (hcont.blockOf_eq ho).symm.trans hb⟩

end Placed

/-- Whether an extent is continued is decided, unless its blocks do not end inside a word. -/
theorem continuesAt_cases {e new : Extent} (h : e.Fits) :
    e.continuesAt new.startPage new.startBlock = .ok true ∧ e.Continues new ∨
      e.continuesAt new.startPage new.startBlock = .ok false ∧ ¬ e.Continues new ∨
        e.continuesAt new.startPage new.startBlock = .error (.overflow .add) ∧
          UInt64.size ≤ e.blockStop := by
  obtain ⟨c, hc, hn⟩ := Extent.endPage_ok h.pages
  simp only [Extent.continuesAt, hc, bind, Except.bind, pure, Except.pure]
  by_cases hpage : c = new.startPage
  · rw [if_pos hpage]
    by_cases hsize : e.startBlock.toNat + e.nrPages.toNat < UInt64.size
    · have hd : addWord e.startBlock e.nrPages = .ok (e.startBlock + e.nrPages) := addWord_ok hsize
      have hdn := toNat_add_of_lt hsize
      simp only [Extent.endBlock, hd]
      by_cases hblock : e.startBlock + e.nrPages = new.startBlock
      · exact Or.inl ⟨by rw [decide_eq_true hblock],
          by rw [← hn, hpage], by rw [Extent.blockStop, ← hdn, hblock]⟩
      · refine Or.inr (Or.inl ⟨by rw [decide_eq_false hblock], fun hcont => hblock ?_⟩)
        exact UInt64.toNat_inj.mp (hdn.trans hcont.2)
    · have hd : addWord e.startBlock e.nrPages = .error (.overflow .add) := if_neg hsize
      exact Or.inr (Or.inr ⟨by simp only [Extent.endBlock, hd], Nat.le_of_not_lt hsize⟩)
  · rw [if_neg hpage]
    refine Or.inr (Or.inl ⟨rfl, fun hcont => hpage ?_⟩)
    exact UInt64.toNat_inj.mp (hn.trans hcont.1)

/-- In an ordered table the extents that start before page `start` are a prefix. -/
theorem Ordered.le_of_mem_dropWhile {start : UInt64} : ∀ {l : List Extent}, Ordered ⟨l⟩ →
    ∀ e ∈ l.dropWhile (·.startPage < start), start ≤ e.startPage
  | [], _, _, he => absurd he List.not_mem_nil
  | first :: rest, h, e, he => by
    rw [List.dropWhile_cons] at he
    have hrest := List.pairwise_cons.mp h.before
    split at he
    · exact le_of_mem_dropWhile ⟨fun x hx => h.fits x (List.mem_cons_of_mem _ hx), hrest.2⟩ e he
    · rename_i hnot
      have hfirst : start ≤ first.startPage := by simpa using hnot
      rcases List.mem_cons.mp he with rfl | he
      · exact hfirst
      · have hb : first.stop ≤ e.startPage.toNat := hrest.1 e he
        rw [UInt64.le_iff_toNat_le] at hfirst ⊢
        simp only [Extent.stop] at hb
        omega

/-- The first of the extents behind a run decides for all of them. -/
theorem fitsBefore_cases {new : Extent} (hf : new.Fits) {after : List Extent}
    (ho : after.Pairwise Extent.Before) :
    fitsBefore new after.head? = .ok true ∧ (∀ e ∈ after, new.Before e) ∨
      fitsBefore new after.head? = .ok false ∧ ∃ e ∈ after, ¬ new.Before e := by
  cases after with
  | nil => exact Or.inl ⟨rfl, nofun⟩
  | cons next rest =>
    obtain ⟨c, hc, hn⟩ := Extent.endPage_ok hf.pages
    have heq : fitsBefore new (some next) = .ok (decide (new.Before next)) := by
      simp only [fitsBefore, hc, bind, Except.bind, pure, Except.pure, Extent.Before, ← hn,
        UInt64.le_iff_toNat_le]
    rw [List.head?_cons, heq]
    by_cases hb : new.Before next
    · refine Or.inl ⟨by rw [decide_eq_true hb], fun e he => ?_⟩
      rcases List.mem_cons.mp he with rfl | he
      · exact hb
      · have hnext : next.stop ≤ e.startPage.toNat := (List.pairwise_cons.mp ho).1 e he
        simp only [Extent.Before, Extent.stop] at hb hnext ⊢
        omega
    · exact Or.inr ⟨by rw [decide_eq_false hb], next, List.mem_cons_self, hb⟩

/-- The last of the extents before a run decides for all of them. -/
theorem fitsAfter_cases {new : Extent} {before : List Extent} (ho : Ordered ⟨before⟩) :
    fitsAfter new.startPage before.getLast? = .ok true ∧ (∀ e ∈ before, e.Before new) ∨
      fitsAfter new.startPage before.getLast? = .ok false ∧ ∃ e ∈ before, ¬ e.Before new := by
  rcases List.eq_nil_or_concat' before with rfl | ⟨init, prev, rfl⟩
  · exact Or.inl ⟨rfl, nofun⟩
  · have hmem : prev ∈ init ++ [prev] := List.mem_append_right _ (List.mem_singleton.mpr rfl)
    obtain ⟨c, hc, hn⟩ := Extent.endPage_ok (ho.fits prev hmem).pages
    have heq : fitsAfter new.startPage (some prev) = .ok (decide (prev.Before new)) := by
      simp only [fitsAfter, hc, bind, Except.bind, pure, Except.pure, Extent.Before, ← hn,
        UInt64.le_iff_toNat_le]
    rw [List.getLast?_concat, heq]
    by_cases hb : prev.Before new
    · refine Or.inl ⟨by rw [decide_eq_true hb], fun e he => ?_⟩
      rcases List.mem_append.mp he with he | he
      · have hprev : e.stop ≤ prev.startPage.toNat :=
          (List.pairwise_append.mp ho.before).2.2 e he prev (List.mem_singleton.mpr rfl)
        simp only [Extent.Before, Extent.stop] at hb hprev ⊢
        omega
      · rw [List.mem_singleton.mp he]; exact hb
    · exact Or.inr ⟨by rw [decide_eq_false hb], prev, hmem, hb⟩

/-- What adding a run that fits can do to an ordered table. -/
inductive Adds (t : ExtentTable) (new : Extent) : Except Stop (Nat × ExtentTable) → Prop
  /-- An extent holds a page of the run. -/
  | refused {e : Extent} (he : e ∈ t.extents) {o : Nat} (ho : e.Holds o) (ho' : new.Holds o) :
    Adds t new (.error (.refused .overlap))
  /-- The run goes on where an extent ends, and is merged into it. -/
  | merged {before after : List Extent} {prev : Extent} (hl : t.extents = before ++ prev :: after)
    (hcont : prev.Continues new) (hafter : ∀ e ∈ after, new.Before e) {n : UInt64}
    (hn : n.toNat = prev.nrPages.toNat + new.nrPages.toNat) :
    Adds t new (.ok (0, ⟨before ++ { prev with nrPages := n } :: after⟩))
  /-- The run becomes an extent of its own. -/
  | inserted {before after : List Extent} (hl : t.extents = before ++ after)
    (hbefore : ∀ e ∈ before, e.Before new) (hafter : ∀ e ∈ after, new.Before e)
    (hcont : ∀ e ∈ t.extents, ¬ e.Continues new) :
    Adds t new (.ok (1, ⟨before ++ new :: after⟩))
  /-- The run starts where an extent ends whose blocks do not end inside a word. -/
  | overflow {e : Extent} (he : e ∈ t.extents) (hsize : UInt64.size ≤ e.blockStop) :
    Adds t new (.error (.fault (.overflow .add)))

/-- **Adding a run**: the two extents that the search finds decide for the whole table. -/
theorem Ordered.adds {t : ExtentTable} (h : t.Ordered) {new : Extent} (hf : new.Fits) :
    Adds t new (t.add new) := by
  obtain ⟨l⟩ := t
  have hne : new.nrPages ≠ 0 := fun h0 => absurd hf.pos (by rw [h0]; simp)
  have hpos := hf.pos
  have hlow : ∀ e ∈ l.takeWhile (·.startPage < new.startPage), e.startPage < new.startPage :=
    fun e he => by simpa using List.mem_takeWhile_imp he
  have hhigh := @Ordered.le_of_mem_dropWhile new.startPage l h
  have hl : l.takeWhile (·.startPage < new.startPage) ++
    l.dropWhile (·.startPage < new.startPage) = l := List.takeWhile_append_dropWhile
  unfold add
  simp only [hne, if_false]
  -- from here on all that matters is that the table is `before ++ after`
  generalize l.takeWhile (·.startPage < new.startPage) = before at hlow hl ⊢
  generalize l.dropWhile (·.startPage < new.startPage) = after at hhigh hl ⊢
  subst hl
  obtain ⟨hb, ha, -⟩ := List.pairwise_append.mp h.before
  have hbo : Ordered ⟨before⟩ := ⟨fun e he => h.fits e (List.mem_append_left _ he), hb⟩
  rcases fitsBefore_cases hf ha with ⟨hfit, hafter⟩ | ⟨hfit, e, he, hmeet⟩
  · rcases @fitsAfter_cases new before hbo with ⟨hfit', hbefore⟩ | ⟨hfit', e, he, hmeet⟩
    · have hinsert := h.insert hf hbefore hafter
      -- an extent behind the run does not end where the run starts
      have hbehind : ∀ e ∈ after, ¬ e.Continues new := by
        intro e he hcont
        have h1 := hafter e he
        have h2 := hcont.1
        simp only [Extent.Before, Extent.stop] at h1 h2
        omega
      simp only [hfit, hfit', lift_ok]
      rcases List.eq_nil_or_concat' before with rfl | ⟨init, prev, rfl⟩
      · have hadd := Adds.inserted (t := ⟨[] ++ after⟩) rfl hbefore hafter hbehind
        simp only [List.getLast?_nil, hinsert.ofList_ok]
        exact hadd
      · have hmem : prev ∈ init ++ [prev] := List.mem_append_right _ (List.mem_singleton.mpr rfl)
        have hprev := hbo.fits prev hmem
        simp only [List.getLast?_concat, List.dropLast_concat]
        rcases @continuesAt_cases prev new hprev with
          ⟨hc, hcont⟩ | ⟨hc, hcont⟩ | ⟨hc, hsize⟩
        · have hsum : prev.nrPages.toNat + new.nrPages.toNat < UInt64.size := by
            have h1 := hcont.1
            have h2 := hf.pages
            simp only [Extent.stop] at h1 h2
            omega
          have hassoc : init ++ [prev] ++ after = init ++ prev :: after := List.append_assoc ..
          have hmerge := (hassoc ▸ h).merge (toNat_add_of_lt hsum) hf hcont hafter
          simp only [hc, addWord_ok hsum, lift_ok, bind, Except.bind, if_true, hmerge.ofList_ok]
          exact .merged hassoc hcont hafter (toNat_add_of_lt hsum)
        · have hadd := Adds.inserted (t := ⟨init ++ [prev] ++ after⟩) rfl hbefore hafter
            fun e he hcont' => ?_
          · simp only [hc, hinsert.ofList_ok]
            exact hadd
          · rcases List.mem_append.mp he with he | he
            · rcases List.mem_append.mp he with he | he
              · -- the last extent before the run lies between `e` and the run
                have h1 : e.stop ≤ prev.startPage.toNat :=
                  (List.pairwise_append.mp hb).2.2 e he prev (List.mem_singleton.mpr rfl)
                have h2 := hbefore prev hmem
                have h3 := hprev.pos
                have h4 := hcont'.1
                simp only [Extent.Before, Extent.stop] at h1 h2 h4
                omega
              · rw [List.mem_singleton.mp he] at hcont'
                exact hcont hcont'
            · exact hbehind e he hcont'
        · simp only [hc]
          exact .overflow (List.mem_append_left _ hmem) hsize
    · have hstart := UInt64.lt_iff_toNat_lt.mp (hlow e he)
      have hstop := Nat.lt_of_not_le hmeet
      simp only [hfit, hfit', lift_ok]
      refine .refused (o := new.startPage.toNat) (List.mem_append_left _ he)
        ⟨hstart.le, hstop⟩ ⟨le_rfl, ?_⟩
      simp only [Extent.stop]
      omega
  · have hstart := UInt64.le_iff_toNat_le.mp (hhigh e he)
    have hstop := Nat.lt_of_not_le hmeet
    have hepos := (h.fits e (List.mem_append_right _ he)).pos
    simp only [hfit, lift_ok]
    refine .refused (o := e.startPage.toNat) (List.mem_append_right _ he) ⟨le_rfl, ?_⟩
      ⟨hstart, hstop⟩
    simp only [Extent.stop]
    omega

/-! ## 7. A run behind all extents -/

/-- What adding a run leaves: it is mapped, and nothing else has changed. -/
structure AddedAtEnd (t : ExtentTable) (new : Extent) (n : Nat) (t' : ExtentTable) : Prop where
  ordered : t'.Ordered
  merged : t'.Merged
  stop : ∀ e ∈ t'.extents, e.stop ≤ new.stop
  maps : ∀ o b, t'.Maps o b ↔ t.Maps o b ∨ new.Holds o ∧ new.blockOf o = b
  length : t'.length = t.length + n

/-- A run that the last extent does not meet becomes an extent of its own. -/
theorem addedAtEnd_append {t : ExtentTable} (h : t.Ordered) (hm : t.Merged) {new : Extent}
    (hf : new.Fits) (hstop : ∀ e ∈ t.extents, e.Before new)
    (hlast : ∀ e ∈ t.extents, ¬ e.Continues new) :
    AddedAtEnd t new 1 ⟨t.extents ++ [new]⟩ where
  ordered := by
    have h' : Ordered ⟨t.extents ++ []⟩ := by rwa [List.append_nil]
    exact h'.insert hf hstop nofun
  merged := by
    refine List.pairwise_append.mpr ⟨hm, List.pairwise_singleton _ _, fun e he e' he' => ?_⟩
    rw [List.mem_singleton.mp he']; exact hlast e he
  stop := by
    intro e he
    rcases List.mem_append.mp he with he | he
    · exact Nat.le_trans (hstop e he) (Nat.le_add_right _ _)
    · rw [List.mem_singleton.mp he]
  maps := by
    intro o b
    rw [maps_insert, List.append_nil]
  length := by simp [length]

/-- A run that goes on where the last extent ends is merged into it. -/
theorem addedAtEnd_merge {l : List Extent} {prev new : Extent}
    (h : Ordered ⟨l ++ [prev]⟩) (hm : Merged ⟨l ++ [prev]⟩) (hf : new.Fits)
    (hcont : prev.Continues new) {n : UInt64}
    (hn : n.toNat = prev.nrPages.toNat + new.nrPages.toNat) :
    AddedAtEnd ⟨l ++ [prev]⟩ new 0 ⟨l ++ [{ prev with nrPages := n }]⟩ where
  ordered := h.merge hn hf hcont nofun
  merged := by
    obtain ⟨hml, -, hmp⟩ := List.pairwise_append.mp hm
    refine List.pairwise_append.mpr ⟨hml, List.pairwise_singleton _ _, fun e he e' he' => ?_⟩
    rw [List.mem_singleton.mp he']
    exact hmp e he prev (List.mem_singleton.mpr rfl)
  stop := by
    intro e he
    rcases List.mem_append.mp he with he | he
    · have h1 : e.stop ≤ prev.startPage.toNat :=
        (List.pairwise_append.mp h.before).2.2 e he prev (List.mem_singleton.mpr rfl)
      have hpage := hcont.1
      simp only [Extent.stop] at hpage h1 ⊢
      omega
    · rw [List.mem_singleton.mp he, hcont.stop_eq hn]
  maps := maps_merge hn hcont
  length := by simp [length]

/-- **A run behind all extents** is mapped as it is, merged into the last extent if it continues
it.  The only thing that can go wrong is that the blocks of the last extent do not end inside a
word. -/
theorem add_at_end {t : ExtentTable} (h : t.Ordered) (hm : t.Merged) {new : Extent} (hf : new.Fits)
    (hstop : ∀ e ∈ t.extents, e.Before new) :
    (∃ n t', t.add new = .ok (n, t') ∧ AddedAtEnd t new n t') ∨
      t.add new = .error (.fault (.overflow .add)) ∧
        ∃ e ∈ t.extents, UInt64.size ≤ e.blockStop := by
  obtain ⟨l⟩ := t
  -- no extent lies behind the run
  have hnone : ∀ {before after : List Extent}, l = before ++ after →
      (∀ e ∈ after, new.Before e) → after = [] := by
    intro before after hl hafter
    refine List.eq_nil_iff_forall_not_mem.mpr fun e he => ?_
    have h1 := hafter e he
    have h2 := hstop e (hl ▸ List.mem_append_right _ he)
    have h3 := hf.pos
    simp only [Extent.Before, Extent.stop] at h1 h2
    omega
  have hadds := h.adds hf
  generalize add ⟨l⟩ new = r at hadds ⊢
  cases hadds with
  | refused he ho ho' => exact absurd ho' (ho.before (hstop _ he))
  | @merged before after prev hl hcont hafter n hn =>
    have hl : l = before ++ ([prev] ++ after) := hl
    rw [← List.append_assoc] at hl
    obtain rfl := hnone hl hafter
    rw [List.append_nil] at hl
    subst hl
    exact Or.inl ⟨0, _, rfl, addedAtEnd_merge h hm hf hcont hn⟩
  | @inserted before after hl hbefore hafter hcont =>
    have hl : l = before ++ after := hl
    obtain rfl := hnone hl hafter
    rw [List.append_nil] at hl
    subst hl
    exact Or.inl ⟨1, _, rfl, addedAtEnd_append h hm hf hbefore hcont⟩
  | overflow he hsize => exact Or.inr ⟨rfl, _, he, hsize⟩

/-! ## 8. Extents that could be one -/

/-- **A run of pages lies on a run of blocks exactly if one extent holds both of its ends.**  Where
no extent continues another one, there is nothing in between that hides the seam. -/
theorem Ordered.same_extent_iff {t : ExtentTable} (h : t.Ordered) (hm : t.Merged) {e : Extent}
    (he : e ∈ t.extents) {o : Nat} (ho : e.Holds o) (n : Nat) :
    (∀ k ≤ n, t.Maps (o + k) (e.blockOf o + k)) ↔ e.Holds (o + n) := by
  constructor
  · intro hall
    by_contra hout
    -- the last page of the extent and the first one behind it
    obtain ⟨k, hk⟩ : ∃ k, o + k = e.stop := ⟨e.stop - o, by have := ho.2; omega⟩
    have hkn : k ≤ n := by
      have h1 := ho.1
      have : ¬ (o + n < e.stop) := fun hlt => hout ⟨by omega, hlt⟩
      omega
    obtain ⟨e', he', ho', hb'⟩ := hall k hkn
    obtain ⟨i, hi, rfl⟩ := List.mem_iff_getElem.mp he
    obtain ⟨j, hj, rfl⟩ := List.mem_iff_getElem.mp he'
    have hstart := ho'.1
    rcases Nat.lt_trichotomy i j with hij | hij | hij
    · have hbef : t.extents[i].stop ≤ t.extents[j].startPage.toNat :=
        List.pairwise_iff_getElem.mp h.before i j hi hj hij
      refine List.pairwise_iff_getElem.mp hm i j hi hj hij ⟨by omega, ?_⟩
      have h1 := ho.1
      simp only [Extent.blockOf, Extent.stop, Extent.blockStop] at hb' hk hbef ⊢
      omega
    · subst hij
      have := ho'.2
      omega
    · have hbef : t.extents[j].stop ≤ t.extents[i].startPage.toNat :=
        List.pairwise_iff_getElem.mp h.before j i hj hi hij
      have h1 := ho'.2
      have h2 := ho.1
      omega
  · intro hlast k hk
    have h1 := ho.1
    have h2 := hlast.2
    refine ⟨e, he, ⟨by omega, by omega⟩, ?_⟩
    simp only [Extent.blockOf]
    omega

end ExtentTable

end PageSwap
