/-
# Runs that end past the last word

A table takes runs whose pages or blocks do not end inside a word, if nothing makes it add up where
they end: a run behind all others is never compared with one that follows it, and its blocks matter
only to a run that starts where it ends.  What it takes it may not be able to answer for: every
search adds up the ends of the extents it comes by.

* `ExtentTable.Filled` -- the tables that calls lead to, with the runs that were taken.
* `Filled.laid` -- such a table lays the pages of these runs on their blocks, and no other page.
* `partitionPoint_last` -- a search behind all extents comes by the last one.
* `served_iff_inside` -- which of these tables answer.
* `good_run_lost` -- a run that was taken and answered for is not, after another one has been taken.
-/
import PageSwap.Proofs.PartialMap

namespace PageSwap

namespace ExtentTable

/-! ## 1. Tables filled with any runs -/

/-- The tables that calls lead to from the empty one, none of which has faulted, and the runs that
were taken.  The runs may be any. -/
inductive Filled : List Extent → ExtentTable → Prop
  | empty : Filled [] {}
  | taken {runs : List Extent} {t t' : ExtentTable} {new : Extent} {n : Nat} (ht : Filled runs t)
    (h : t.call new = .ok (.ok n, t')) : Filled (new :: runs) t'
  | refused {runs : List Extent} {t t' : ExtentTable} {new : Extent} {why : Errno}
    (ht : Filled runs t) (h : t.call new = .ok (.error why, t')) : Filled runs t'

/-- Extents whose order has been checked. -/
theorem pairwise_of_sorted : ∀ {l : List Extent}, sorted l = .ok true → l.Pairwise Extent.Before
  | [], _ => List.Pairwise.nil
  | [_], _ => List.pairwise_singleton _ _
  | e :: next :: rest, h => by
    obtain ⟨c, hc, h⟩ := exists_of_bind_ok h
    obtain ⟨-, hn⟩ := addWord_eq_ok_iff.mp hc
    by_cases hle : c ≤ next.startPage
    · rw [if_pos hle] at h
      have hnext : e.stop ≤ next.startPage.toNat := hn.symm.trans_le (UInt64.le_iff_toNat_le.mp hle)
      have hrest := pairwise_of_sorted h
      refine List.pairwise_cons.mpr ⟨fun e' he' => ?_, hrest⟩
      rcases List.mem_cons.mp he' with rfl | he'
      · exact hnext
      · have hb : next.stop ≤ e'.startPage.toNat := (List.pairwise_cons.mp hrest).1 e' he'
        simp only [Extent.Before, Extent.stop] at hb hnext ⊢
        omega
    · rw [if_neg hle] at h
      cases h

theorem ofList_eq_ok {l : List Extent} {t : ExtentTable} (h : ofList l = .ok t) :
    t = ⟨l⟩ ∧ l.Pairwise Extent.Before := by
  obtain ⟨b, hsorted, h⟩ := exists_of_bind_ok h
  cases b with
  | false => exact absurd h nofun
  | true => exact ⟨(Except.ok.inj h).symm, pairwise_of_sorted hsorted⟩

/-- An extent that says it is continued is. -/
theorem continues_of_continuesAt {e new : Extent}
    (h : e.continuesAt new.startPage new.startBlock = .ok true) : e.Continues new := by
  obtain ⟨c, hc, h⟩ := exists_of_bind_ok h
  by_cases hpage : c = new.startPage
  · rw [if_pos hpage] at h
    obtain ⟨d, hd, h⟩ := exists_of_bind_ok h
    have hblock : d = new.startBlock := of_decide_eq_true (Except.ok.inj h)
    exact ⟨by rw [← hpage, (addWord_eq_ok_iff.mp hc).2, Extent.stop],
      by rw [← hblock, (addWord_eq_ok_iff.mp hd).2, Extent.blockStop]⟩
  · rw [if_neg hpage] at h
    cases h

/-- What a call leaves that has taken a run, whatever the run is. -/
inductive Lays (t : ExtentTable) (new : Extent) : ExtentTable → Prop
  /-- The run is merged into the extent it continues. -/
  | merged {before after : List Extent} {prev : Extent} {n : UInt64}
    (hl : t.extents = before ++ prev :: after) (hcont : prev.Continues new)
    (hn : n.toNat = prev.nrPages.toNat + new.nrPages.toNat) :
    Lays t new ⟨before ++ { prev with nrPages := n } :: after⟩
  /-- The run becomes an extent of its own. -/
  | inserted {before after : List Extent} (hl : t.extents = before ++ after) :
    Lays t new ⟨before ++ new :: after⟩

theorem lift_eq_ok {α : Type} {x : Except Fault α} {a : α}
    (h : (liftM x : Except Stop α) = .ok a) : x = .ok a := by
  cases x with
  | ok b => exact congrArg Except.ok (Except.ok.inj h)
  | error f => exact absurd h nofun

/-- A table that is made of these extents. -/
theorem of_lift_ofList {l : List Extent} {t' : ExtentTable} {k n : Nat}
    (h : (liftM (ofList l) >>= fun t => pure (k, t) : Except Stop (Nat × ExtentTable)) =
      .ok (n, t')) : t' = ⟨l⟩ ∧ l.Pairwise Extent.Before := by
  obtain ⟨t, ht, h⟩ := exists_of_bind_ok h
  obtain ⟨-, rfl⟩ := Prod.mk.inj (Except.ok.inj h)
  exact ofList_eq_ok (lift_eq_ok ht)

/-- **Taking any run**: it has pages, the table lays it, and the order of the table is kept. -/
theorem add_eq_ok {t t' : ExtentTable} {new : Extent} {n : Nat} (h : t.add new = .ok (n, t')) :
    0 < new.nrPages.toNat ∧ t'.extents.Pairwise Extent.Before ∧ Lays t new t' := by
  unfold add at h
  by_cases hne : new.nrPages = 0
  · simp only [hne, if_true] at h
    cases h
  have hpos : 0 < new.nrPages.toNat :=
    Nat.pos_of_ne_zero fun h0 => hne (UInt64.toNat_inj.mp h0)
  have hl : t.extents = t.extents.takeWhile (·.startPage < new.startPage) ++
    t.extents.dropWhile (·.startPage < new.startPage) := List.takeWhile_append_dropWhile.symm
  simp only [hne, if_false] at h
  generalize t.extents.takeWhile (·.startPage < new.startPage) = before at h hl
  generalize t.extents.dropWhile (·.startPage < new.startPage) = after at h hl
  refine ⟨hpos, ?_⟩
  obtain ⟨fits, -, h⟩ := exists_of_bind_ok h
  cases fits with
  | false => cases h
  | true =>
    obtain ⟨fits, -, h⟩ := exists_of_bind_ok h
    cases fits with
    | false => cases h
    | true =>
      rcases List.eq_nil_or_concat' before with rfl | ⟨init, prev, rfl⟩
      · obtain ⟨rfl, hsorted⟩ := of_lift_ofList h
        exact ⟨hsorted, .inserted hl⟩
      · simp only [List.getLast?_concat, List.dropLast_concat, if_true] at h
        obtain ⟨continued, hcont, h⟩ := exists_of_bind_ok h
        cases continued with
        | false =>
          obtain ⟨rfl, hsorted⟩ := of_lift_ofList h
          exact ⟨hsorted, .inserted hl⟩
        | true =>
          obtain ⟨m, hm, h⟩ := exists_of_bind_ok h
          obtain ⟨rfl, hsorted⟩ := of_lift_ofList h
          rw [List.append_assoc] at hl
          exact ⟨hsorted, .merged hl (continues_of_continuesAt (lift_eq_ok hcont))
            (addWord_eq_ok_iff.mp (lift_eq_ok hm)).2⟩

/-- What a table has to do with the runs that were taken. -/
structure Laid (runs : List Extent) (t : ExtentTable) : Prop where
  pos : ∀ e ∈ t.extents, 0 < e.nrPages.toNat
  runs_pos : ∀ run ∈ runs, 0 < run.nrPages.toNat
  before : t.extents.Pairwise Extent.Before
  /-- It lays the pages of the runs on their blocks, and no other page. -/
  maps : ∀ o b, t.Maps o b ↔ Maps ⟨runs⟩ o b
  total : (t.extents.map (·.nrPages.toNat)).sum = (runs.map (·.nrPages.toNat)).sum

/-- **One more run is laid.** -/
theorem Laid.lays {runs : List Extent} {t t' : ExtentTable} {new : Extent} (h : Laid runs t)
    (hpos : 0 < new.nrPages.toNat) (hbefore : t'.extents.Pairwise Extent.Before)
    (hlays : Lays t new t') : Laid (new :: runs) t' := by
  have hruns : ∀ o b, Maps ⟨new :: runs⟩ o b ↔
      t.Maps o b ∨ new.Holds o ∧ new.blockOf o = b := fun o b => by
    rw [h.maps]
    exact @maps_insert [] _ _ o b
  have hruns_pos : ∀ run ∈ new :: runs, 0 < run.nrPages.toNat :=
    List.forall_mem_cons.mpr ⟨hpos, h.runs_pos⟩
  have htotal := h.total
  obtain ⟨l⟩ := t
  cases hlays with
  | @merged before after prev n hl hcont hn =>
    obtain rfl : l = _ := hl
    have hn_pos : 0 < n.toNat := by omega
    obtain ⟨hpos_before, hpos_rest⟩ := List.forall_mem_append.mp h.pos
    have hpos_after := (List.forall_mem_cons.mp hpos_rest).2
    refine ⟨?_, hruns_pos, hbefore, fun o b => ?_, ?_⟩
    · exact List.forall_mem_append.mpr
        ⟨hpos_before, List.forall_mem_cons.mpr ⟨hn_pos, hpos_after⟩⟩
    · rw [maps_merge hn hcont, hruns]
    · simp only [List.map_append, List.map_cons, List.sum_append, List.sum_cons, hn] at htotal ⊢
      omega
  | @inserted before after hl =>
    obtain rfl : l = _ := hl
    obtain ⟨hpos_before, hpos_after⟩ := List.forall_mem_append.mp h.pos
    refine ⟨?_, hruns_pos, hbefore, fun o b => ?_, ?_⟩
    · exact List.forall_mem_append.mpr
        ⟨hpos_before, List.forall_mem_cons.mpr ⟨hpos, hpos_after⟩⟩
    · rw [maps_insert, hruns]
    · simp only [List.map_append, List.map_cons, List.sum_append, List.sum_cons] at htotal ⊢
      omega

/-- A call that has been answered, taken or refused. -/
theorem call_eq_ok {t t' : ExtentTable} {new : Extent} {answer : Except Errno Nat}
    (h : t.call new = .ok (answer, t')) :
    (∃ n, answer = .ok n ∧ t.add new = .ok (n, t')) ∨ (∃ why, answer = .error why ∧ t' = t) := by
  unfold call at h
  split at h
  · rename_i n t₁ hadd
    obtain ⟨rfl, rfl⟩ := Prod.mk.inj (Except.ok.inj h)
    exact Or.inl ⟨n, rfl, hadd⟩
  · obtain ⟨rfl, rfl⟩ := Prod.mk.inj (Except.ok.inj h)
    exact Or.inr ⟨_, rfl, rfl⟩
  · exact absurd h nofun

/-- **A table lays the runs that were taken**, whatever they were. -/
theorem Filled.laid {runs : List Extent} {t : ExtentTable} (h : Filled runs t) : Laid runs t := by
  induction h with
  | empty => exact ⟨nofun, nofun, List.Pairwise.nil, fun _ _ => Iff.rfl, rfl⟩
  | taken _ hcall ih =>
    rcases call_eq_ok hcall with ⟨n, -, hadd⟩ | ⟨why, hwhy, -⟩
    · obtain ⟨hpos, hbefore, hlays⟩ := add_eq_ok hadd
      exact ih.lays hpos hbefore hlays
    · exact absurd hwhy nofun
  | refused _ hcall ih =>
    rcases call_eq_ok hcall with ⟨n, hn, -⟩ | ⟨why, -, rfl⟩
    · exact absurd hn nofun
    · exact ih

/-! ## 2. Where the runs end -/

/-- An extent ends no further than one of the extents that lay its pages on the same blocks. -/
theorem exists_stop_le {A B : List Extent} (h : ∀ o b, Maps ⟨A⟩ o b → Maps ⟨B⟩ o b) {e : Extent}
    (he : e ∈ A) (hpos : 0 < e.nrPages.toNat) :
    ∃ run ∈ B, e.stop ≤ run.stop ∧ e.blockStop ≤ run.blockStop := by
  have hlast : e.Holds (e.stop - 1) := by
    unfold Extent.Holds Extent.stop
    omega
  obtain ⟨run, hrun, hholds, hblock⟩ := h _ _ ⟨e, he, hlast, rfl⟩
  refine ⟨run, hrun, ?_⟩
  simp only [Extent.Holds, Extent.blockOf, Extent.stop, Extent.blockStop] at *
  omega

theorem Laid.inOrder_iff {runs : List Extent} {t : ExtentTable} (h : Laid runs t) :
    t.InOrder ↔ ∀ run ∈ runs, run.stop < UInt64.size := by
  constructor
  · intro hin run hrun
    obtain ⟨e, he, hle, -⟩ :=
      exists_stop_le (fun o b => (h.maps o b).mpr) hrun (h.runs_pos run hrun)
    exact Nat.lt_of_le_of_lt hle (hin.pages e he)
  · intro hruns
    refine ⟨fun e he => ?_, h.before⟩
    obtain ⟨run, hrun, hle, -⟩ := exists_stop_le (fun o b => (h.maps o b).mp) he (h.pos e he)
    exact Nat.lt_of_le_of_lt hle (hruns run hrun)

/-! ## 3. Tables that answer -/

theorem addWord_congr {a b c d : UInt64} (h : a.toNat + b.toNat = c.toNat + d.toNat) :
    addWord a b = addWord c d := by
  have hsum : a + b = c + d := UInt64.toNat_inj.mp (by rw [UInt64.toNat_add, UInt64.toNat_add, h])
  rw [addWord, addWord, h, hsum]

/-- A page of an extent lies on its block, if that is a word. -/
theorem InOrder.map?_eq {t : ExtentTable} (h : t.InOrder) {e : Extent} {o : UInt64}
    (he : e ∈ t.extents) (ho : e.Holds o.toNat) :
    t.map? o = (addWord e.startBlock (o - e.startPage)).map some := by
  have hfind := h.find?_eq_some_iff.mpr ⟨he, ho⟩
  simp only [map?, hfind, bind, Except.bind]
  cases addWord e.startBlock (o - e.startPage) with
  | error _ => rfl
  | ok _ => rfl

/-- **A page of a run that was taken** lies on its block, if that is a word and all runs end inside
one. -/
theorem Laid.map?_eq {runs : List Extent} {t : ExtentTable} (h : Laid runs t)
    (hin : ∀ run ∈ runs, run.stop < UInt64.size) {run : Extent} (hrun : run ∈ runs) {o : UInt64}
    (ho : run.Holds o.toNat) :
    t.map? o = (addWord run.startBlock (o - run.startPage)).map some := by
  obtain ⟨e, he, hholds, hblock⟩ := (h.maps _ _).mpr ⟨run, hrun, ho, rfl⟩
  rw [(h.inOrder_iff.mpr hin).map?_eq he hholds]
  have hsub : ∀ {e : Extent}, e.Holds o.toNat →
      (o - e.startPage).toNat = o.toNat - e.startPage.toNat :=
    fun he => UInt64.toNat_sub_of_le _ _ (UInt64.le_iff_toNat_le.mpr he.1)
  refine congrArg (Except.map some) (addWord_congr ?_)
  rw [hsub hholds, hsub ho]
  exact hblock

/-! ## 4. Searches that come by the last extent -/

/-- **A search behind all extents comes by the last one**, and faults if that faults. -/
theorem partitionPoint_last {test : Extent → Except Fault Bool} {xs : Array Extent} {f : Fault}
    (hpass : ∀ i (h : i < xs.size), i + 1 < xs.size → test xs[i] = .ok true)
    (hlast : ∀ i (h : i < xs.size), i + 1 = xs.size → test xs[i] = .error f) :
    ∀ size base, base + size = xs.size → 0 < size →
      partitionPoint test xs base size = .error f := by
  intro size
  -- what is left to search always ends with the last extent
  induction size using Nat.strongRecOn with
  | ind size ih =>
    intro base hsize hpos
    rw [partitionPoint]
    by_cases h1 : 1 < size
    · have hmid : base + size / 2 < xs.size := by omega
      rw [dif_pos h1]
      simp only [Array.getElem?_eq_getElem hmid]
      by_cases hend : base + size / 2 + 1 = xs.size
      · rw [hlast _ hmid hend]
        rfl
      · rw [hpass _ hmid (by omega)]
        exact ih (size - size / 2) (by omega) (base + size / 2) (by omega) (by omega)
    · have hbase : base < xs.size := by omega
      rw [dif_neg h1]
      simp only [Array.getElem?_eq_getElem hbase]
      rw [hlast _ hbase (by omega)]
      rfl

/-- If a run ends behind the last word, the search for the last page faults. -/
theorem find?_last {t : ExtentTable} (hb : t.extents.Pairwise Extent.Before) {e : Extent}
    (he : e ∈ t.extents) (hstop : UInt64.size ≤ e.stop) :
    t.find? (UInt64.ofNat (UInt64.size - 1)) = .error (.overflow .add) := by
  obtain ⟨l⟩ := t
  rcases List.eq_nil_or_concat' l with rfl | ⟨init, last, rfl⟩
  · exact absurd he List.not_mem_nil
  -- the others end where the last one starts, at the latest, and so inside a word
  have hbefore : ∀ e' ∈ init, e'.stop ≤ last.startPage.toNat := fun e' he' =>
    (List.pairwise_append.mp hb).2.2 e' he' last List.mem_cons_self
  have hlast : UInt64.size ≤ last.stop := by
    rcases List.mem_append.mp he with he | he
    · have hword : last.startPage.toNat < UInt64.size := last.startPage.toNat_lt
      exact absurd (hbefore e he) (Nat.not_le_of_lt (Nat.lt_of_lt_of_le hword hstop))
    · exact List.mem_singleton.mp he ▸ hstop
  have hfault : last.endPage = .error (.overflow .add) := if_neg (Nat.not_lt_of_le hlast)
  have hsearch : partitionPoint
      (fun e => return (← e.endPage) ≤ UInt64.ofNat (UInt64.size - 1)) (init ++ [last]).toArray 0
      (init ++ [last]).toArray.size = .error (.overflow .add) := by
    refine partitionPoint_last (fun i hi hlt => ?_) (fun i hi heq => ?_) _ 0 (Nat.zero_add _)
      (by simp)
    · have hi' : i < init.length := by simpa using hlt
      have hle := hbefore init[i] (List.getElem_mem hi')
      have hword := last.startPage.toNat_lt
      obtain ⟨c, hc, hn⟩ := Extent.endPage_ok (Nat.lt_of_le_of_lt hle hword)
      have hpass : c ≤ UInt64.ofNat (UInt64.size - 1) := by
        rw [UInt64.le_iff_toNat_le, hn]
        exact Nat.le_sub_one_of_lt (Nat.lt_of_le_of_lt hle hword)
      rw [List.getElem_toArray, List.getElem_append_left hi', hc]
      exact congrArg Except.ok (decide_eq_true hpass)
    · have hi' : i = init.length := by simpa using heq
      subst hi'
      simp only [List.getElem_toArray, List.getElem_concat_length, hfault]
      rfl
  simp only [find?]
  rw [hsearch]
  rfl

/-! ## 5. Which tables answer -/

/-- Which lookups of a table answer, and what, in terms of the runs that it has taken. -/
structure Serves (runs : List Extent) (t : ExtentTable) : Prop where
  /-- All searches answer if all runs end inside a word, and not otherwise. -/
  find : (∀ o, ∃ r, t.find? o = .ok r) ↔ ∀ run ∈ runs, run.stop < UInt64.size
  /-- All pages are looked up if besides the last block of each run is a word. -/
  map : (∀ o, ∃ r, t.map? o = .ok r) ↔
    ∀ run ∈ runs, run.stop < UInt64.size ∧ run.blockStop ≤ UInt64.size
  /-- The pages are added up if their number is a word. -/
  nrPages : (∃ total, t.nrPages = .ok total) ↔
    (runs.map (·.nrPages.toNat)).sum < UInt64.size
  /-- It is if all runs end inside a word. -/
  total : (∀ run ∈ runs, run.stop < UInt64.size) → (runs.map (·.nrPages.toNat)).sum < UInt64.size
  /-- Then each page of each run lies on the block that it was laid on, if that is a word. -/
  pages : (∀ run ∈ runs, run.stop < UInt64.size) → ∀ run ∈ runs, ∀ o : UInt64,
    run.Holds o.toNat → t.map? o = (addWord run.startBlock (o - run.startPage)).map some

/-- A search that faults leaves nothing to look up. -/
theorem find?_ok_of_map?_ok {t : ExtentTable} {o : UInt64} (h : ∃ r, t.map? o = .ok r) :
    ∃ r, t.find? o = .ok r := by
  obtain ⟨r, h⟩ := h
  obtain ⟨found, hfind, -⟩ := exists_of_bind_ok h
  exact ⟨found, hfind⟩

variable {runs : List Extent} {t : ExtentTable}

theorem Laid.find?_iff (h : Laid runs t) :
    (∀ o, ∃ r, t.find? o = .ok r) ↔ ∀ run ∈ runs, run.stop < UInt64.size := by
  rw [← h.inOrder_iff]
  constructor
  · intro hfind
    refine ⟨fun e he => ?_, h.before⟩
    by_contra hstop
    obtain ⟨r, hr⟩ := hfind (UInt64.ofNat (UInt64.size - 1))
    rw [find?_last h.before he (Nat.le_of_not_lt hstop)] at hr
    exact absurd hr nofun
  · intro hin o
    obtain ⟨r, hr, -⟩ := hin.find?_spec o
    exact ⟨r, hr⟩

/-- The last page of a run lies on its last block, which has to be a word. -/
theorem Laid.blockStop_le (h : Laid runs t) (hin : ∀ run ∈ runs, run.stop < UInt64.size)
    {run : Extent} (hrun : run ∈ runs) (hmap : ∀ o, ∃ r, t.map? o = .ok r) :
    run.blockStop ≤ UInt64.size := by
  have hpos := h.runs_pos run hrun
  have hstop := hin run hrun
  have hto : (UInt64.ofNat (run.stop - 1)).toNat = run.stop - 1 :=
    UInt64.toNat_ofNat_of_lt' (Nat.lt_of_le_of_lt (Nat.sub_le ..) hstop)
  have hholds : run.Holds (UInt64.ofNat (run.stop - 1)).toNat := by
    rw [hto]
    simp only [Extent.Holds, Extent.stop]
    omega
  obtain ⟨r, hr⟩ := hmap (UInt64.ofNat (run.stop - 1))
  rw [h.map?_eq hin hrun hholds] at hr
  rcases addWord_cases run.startBlock (UInt64.ofNat (run.stop - 1) - run.startPage) with
    ⟨c, -, hc⟩ | hfault
  · have hsub := UInt64.toNat_sub_of_le _ _ (UInt64.le_iff_toNat_le.mpr hholds.1)
    have hword : c.toNat < UInt64.size := c.toNat_lt
    rw [hsub, hto] at hc
    simp only [Extent.stop, Extent.blockStop] at hc ⊢
    omega
  · rw [hfault] at hr
    cases hr

theorem Laid.map?_iff (h : Laid runs t) : (∀ o, ∃ r, t.map? o = .ok r) ↔
    ∀ run ∈ runs, run.stop < UInt64.size ∧ run.blockStop ≤ UInt64.size := by
  constructor
  · intro hmap
    have hin := h.find?_iff.mp fun o => find?_ok_of_map?_ok (hmap o)
    exact fun run hrun => ⟨hin run hrun, h.blockStop_le hin hrun hmap⟩
  · intro hfits o
    have hin : ∀ run ∈ runs, run.stop < UInt64.size := fun run hrun => (hfits run hrun).1
    have horder := h.inOrder_iff.mpr hin
    obtain ⟨r, hr, hspec⟩ := horder.find?_spec o
    cases r with
    | none =>
      refine ⟨none, ?_⟩
      simp only [map?, hr, bind, Except.bind]
      rfl
    | some e =>
      obtain ⟨he, ho⟩ := (hspec e).mp rfl
      obtain ⟨run, hrun, -, hle⟩ := exists_stop_le (fun o b => (h.maps o b).mp) he (h.pos e he)
      have hf : e.Fits := ⟨h.pos e he, horder.pages e he, hle.trans (hfits run hrun).2⟩
      rw [horder.map?_eq he ho, addWord_ok (Extent.toNat_blockOf hf ho).1]
      exact ⟨_, rfl⟩

theorem Laid.nrPages_iff (h : Laid runs t) : (∃ total, t.nrPages = .ok total) ↔
    (runs.map (·.nrPages.toNat)).sum < UInt64.size := by
  rw [← h.total]
  exact ⟨fun ⟨_, htotal⟩ => (nrPages_eq_ok_iff.mp htotal).1,
    fun hlt => ⟨_, nrPages_eq_ok_iff.mpr ⟨hlt, UInt64.toNat_ofNat_of_lt' hlt⟩⟩⟩

theorem Laid.total_lt (h : Laid runs t) (hin : ∀ run ∈ runs, run.stop < UInt64.size) :
    (runs.map (·.nrPages.toNat)).sum < UInt64.size := by
  obtain ⟨total, htotal, -⟩ := (h.inOrder_iff.mpr hin).nrPages_ok
  exact h.nrPages_iff.mp ⟨total, htotal⟩

end ExtentTable

open ExtentTable

/-- **A table answers exactly if the runs that it has taken end inside a word.**  Whatever runs it
was given, in whatever order, as long as no call faulted. -/
theorem ExtentTable.served_iff_inside {runs : List Extent} {t : ExtentTable}
    (h : Filled runs t) : Serves runs t where
  find := h.laid.find?_iff
  map := h.laid.map?_iff
  nrPages := h.laid.nrPages_iff
  total := h.laid.total_lt
  pages := fun hin _ hrun _ ho => h.laid.map?_eq hin hrun ho

/-- A table with a run whose blocks end with the last word. -/
def lastBlock : ExtentTable := ⟨[⟨0, 3, 0xfffffffffffffffd⟩, ⟨5, 1, 100⟩]⟩

theorem lastBlock_served :
    Filled [⟨5, 1, 100⟩, ⟨0, 3, 0xfffffffffffffffd⟩] lastBlock ∧
      (∀ o, ∃ r, lastBlock.map? o = .ok r) ∧ (∃ total, lastBlock.nrPages = .ok total) ∧
      lastBlock.map? 2 = .ok (some 0xffffffffffffffff) := by
  have hfirst : Filled [⟨0, 3, 0xfffffffffffffffd⟩] ⟨[⟨0, 3, 0xfffffffffffffffd⟩]⟩ :=
    @Filled.taken [] {} _ _ 1 .empty (by decide)
  have h : Filled [⟨5, 1, 100⟩, ⟨0, 3, 0xfffffffffffffffd⟩] lastBlock :=
    @Filled.taken _ _ _ _ 1 hfirst (by decide)
  have hserves := ExtentTable.served_iff_inside h
  have hstop : ∀ run ∈ ([⟨5, 1, 100⟩, ⟨0, 3, 0xfffffffffffffffd⟩] : List Extent),
      run.stop < UInt64.size ∧ run.blockStop ≤ UInt64.size := by decide
  have hin := fun run hrun => (hstop run hrun).1
  refine ⟨h, hserves.map.mpr hstop, hserves.nrPages.mpr (hserves.total hin), ?_⟩
  exact hserves.pages hin _ (List.mem_cons_of_mem _ List.mem_cons_self) 2 (by decide)

/-- **A run that was answered for is not any more.**  Page 5 is found; then a run behind it is taken
that goes on past the last word, and the search for page 5 comes by its end. -/
theorem good_run_lost : ∃ t t' : ExtentTable,
    Filled [⟨5, 1, 100⟩] t ∧ t.map? 5 = .ok (some 100) ∧
      t.call ⟨0xffffffffffffffff, 2, 0⟩ = .ok (.ok 1, t') ∧
      t'.map? 5 = .error (.overflow .add) := by
  refine ⟨⟨[⟨5, 1, 100⟩]⟩, ⟨[⟨5, 1, 100⟩, ⟨0xffffffffffffffff, 2, 0⟩]⟩, ?_, ?_, by decide, ?_⟩
  · exact @Filled.taken [] {} _ _ 1 .empty (by decide)
  · decide +kernel
  · decide +kernel

end PageSwap
