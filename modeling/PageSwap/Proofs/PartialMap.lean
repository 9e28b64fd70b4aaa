/-
# An extent table is a partial map

A table is filled by calls that each lay a run of pages on a run of blocks.  The calls may come in
any order, a run may be refused, and a run that continues an extent changes that extent in the
place of adding one.  A call looks at two extents only, those that one halving finds before and
behind the run, and a lookup halves by the ends of the extents and not by their starts.  This file
says that all of it is one partial map from pages to blocks, to which a call adds a whole run of
new pages or nothing.

* `ExtentTable.call` -- a call as its caller sees it: a refusal leaves the table.
* `ExtentTable.Grown` -- the tables that calls lead to.
* `Ordered.partitionPoint_start` -- halving by the starts finds the place of the run.
* `Sound.call` -- what one call does.
* `table_is_partial_map` -- what every table that calls lead to is, and what the next call does.
-/
import PageSwap.Proofs.WellFormed

namespace PageSwap

/-! ## 1. Calls -/

/-- The pages of the run end inside a word, and so do its blocks. -/
structure Extent.Inside (e : Extent) : Prop where
  pages : e.stop < UInt64.size
  blocks : e.blockStop < UInt64.size

theorem Extent.Inside.fits {e : Extent} (h : e.Inside) (hne : e.nrPages ≠ 0) : e.Fits where
  pos := Nat.pos_of_ne_zero fun h0 => hne (UInt64.toNat_inj.mp h0)
  pages := h.pages
  blocks := h.blocks.le

namespace ExtentTable

/-- Lay the run `new` into the table.  A call that is refused hands no table back, so its caller
keeps the one there was. -/
def call (t : ExtentTable) (new : Extent) : Except Fault (Except Errno Nat × ExtentTable) :=
  match t.add new with
  | .ok (n, t') => .ok (.ok n, t')
  | .error (.refused why) => .ok (.error why.errno, t)
  | .error (.fault f) => .error f

/-- The tables that calls lead to from the empty one, in any order, be they taken or refused. -/
inductive Grown : ExtentTable → Prop
  | empty : Grown {}
  | call {t t' : ExtentTable} {new : Extent} {answer : Except Errno Nat} (ht : Grown t)
    (hin : new.Inside) (h : t.call new = .ok (answer, t')) : Grown t'

/-- A table in which nothing can go wrong: it is in order, and all blocks end inside a word. -/
structure Sound (t : ExtentTable) : Prop where
  ordered : t.Ordered
  blocks : ∀ e ∈ t.extents, e.blockStop < UInt64.size

theorem sound_empty : Sound {} := ⟨ordered_empty, nofun⟩

/-! ## 2. The place of a run -/

/-- A prefix that passes is what is taken from the front. -/
theorem length_takeWhile {p : Extent → Bool} : ∀ {l : List Extent} {k : Nat}, k ≤ l.length →
    (∀ i (h : i < l.length), p l[i] = true ↔ i < k) → (l.takeWhile p).length = k
  | [], k, hk, _ => by simpa using (Nat.le_zero.mp hk).symm
  | e :: rest, 0, _, hp => by
    have he : ¬ p e = true := fun h => absurd ((hp 0 (Nat.zero_lt_succ _)).mp h) (Nat.lt_irrefl 0)
    rw [List.takeWhile_cons_of_neg he, List.length_nil]
  | e :: rest, k + 1, hk, hp => by
    have he : p e = true := (hp 0 (Nat.zero_lt_succ _)).mpr (Nat.zero_lt_succ k)
    have ih := length_takeWhile (Nat.le_of_succ_le_succ hk) fun i h =>
      (hp (i + 1) (Nat.succ_lt_succ h)).trans Nat.succ_lt_succ_iff
    rw [List.takeWhile_cons_of_pos he, List.length_cons, ih]

/-- **Halving by the starts finds the place of a run**: as many extents lie before it as are
taken from the front while they start before it. -/
theorem Ordered.partitionPoint_start {t : ExtentTable} (h : t.Ordered) (start : UInt64) :
    partitionPoint (fun e => .ok (e.startPage < start)) t.extents.toArray 0 t.extents.length =
      .ok (t.extents.takeWhile (·.startPage < start)).length := by
  have hstarts : ∀ i j (hi : i < t.extents.length) (hj : j < t.extents.length), i ≤ j →
      t.extents[j].startPage < start → t.extents[i].startPage < start := by
    intro i j hi hj hij hlt
    rcases Nat.eq_or_lt_of_le hij with rfl | hij
    · exact hlt
    · have hb : t.extents[i].stop ≤ t.extents[j].startPage.toNat :=
        List.pairwise_iff_getElem.mp h.before i j hi hj hij
      rw [UInt64.lt_iff_toNat_lt] at hlt ⊢
      simp only [Extent.stop] at hb
      omega
  obtain ⟨k, hk, hle, hpoint⟩ := @partitionPoint_spec
    (fun e => .ok (e.startPage < start)) t.extents.toArray (fun e => e.startPage < start) _
    (fun i hi => rfl)
    (fun i j hi hj hij => by simpa using hstarts i j (by simpa using hi) (by simpa using hj) hij)
    t.extents.length 0 (by simp) (by simp) (fun i _ hi => absurd hi (by omega))
    (fun i hi hle => absurd hle (by simp at hi ⊢; omega))
  rw [hk, Except.ok.injEq, length_takeWhile (by simpa using hle)]
  intro i hi
  have hp := hpoint i (by simpa using hi)
  rw [List.getElem_toArray] at hp
  simpa using hp

/-! ## 3. Adding up the pages -/

/-- Extents one behind the other have no more pages than there are between their bounds. -/
theorem length_runs_le {l : List Extent} (hb : l.Pairwise Extent.Before) : ∀ low high : Nat,
    low ≤ high → (∀ e ∈ l, low ≤ e.startPage.toNat ∧ e.stop ≤ high) →
    low + (l.map Extent.run).flatten.length ≤ high := by
  induction hb with
  | nil =>
    intro low high hle _
    exact hle
  | @cons e rest hnext _ ih =>
    intro low high _ hin
    obtain ⟨hstart, hstop⟩ := hin e List.mem_cons_self
    have hrest := ih e.stop high hstop fun e' he' =>
      ⟨hnext e' he', (hin e' (List.mem_cons_of_mem _ he')).2⟩
    rw [List.map_cons, List.flatten_cons, List.length_append, length_run]
    simp only [Extent.stop] at hrest
    omega

/-- The pages of a table in order are added up without a fault. -/
theorem InOrder.nrPages_ok {t : ExtentTable} (h : t.InOrder) : ∃ total, t.nrPages = .ok total ∧
    total.toNat = (t.extents.map Extent.run).flatten.length := by
  have hle := length_runs_le h.before 0 (UInt64.size - 1) (Nat.zero_le _)
    fun e he => ⟨Nat.zero_le _, Nat.le_sub_one_of_lt (h.pages e he)⟩
  rw [Nat.zero_add] at hle
  have hlt : (t.extents.map (·.nrPages.toNat)).sum < UInt64.size := by
    rw [← length_flatten_run]
    exact Nat.lt_of_le_of_lt hle (by decide)
  have hto := UInt64.toNat_ofNat_of_lt' hlt
  exact ⟨_, nrPages_eq_ok_iff.mpr ⟨hlt, hto⟩, hto.trans (length_flatten_run _).symm⟩

/-! ## 4. One call -/

/-- What a call leaves that is taken and answers `r`. -/
structure Taken (t : ExtentTable) (new : Extent) (r : Nat) (t' : ExtentTable) : Prop where
  /-- The run is merged into the extent that ends where it starts, or becomes one itself. -/
  answer : r = 0 ∧ (∃ e ∈ t.extents, e.endPage = .ok new.startPage ∧
      e.endBlock = .ok new.startBlock) ∨
    r = 1 ∧ ¬ ∃ e ∈ t.extents, e.endPage = .ok new.startPage ∧ e.endBlock = .ok new.startBlock
  length : t'.length = t.length + r
  nrPages : ∃ p p', t.nrPages = .ok p ∧ t'.nrPages = .ok p' ∧
    p'.toNat = p.toNat + new.nrPages.toNat
  map : ∀ o, t'.map? o =
    if new.Holds o.toNat then .ok (some (new.startBlock + (o - new.startPage))) else t.map? o

/-- The run has no page, or one that is mapped. -/
def Blocked (t : ExtentTable) (new : Extent) : Prop :=
  new.nrPages = 0 ∨ ∃ o b, new.Holds o.toNat ∧ t.map? o = .ok (some b)

/-- A call and what it leaves: it is refused as a whole or taken as a whole. -/
structure Called (t : ExtentTable) (new : Extent) (answer : Except Errno Nat) (t' : ExtentTable) :
    Prop where
  refused : answer = .error Errno.invalid ↔ t.Blocked new
  kept : ∀ {why}, answer = .error why → why = Errno.invalid ∧ t' = t
  taken : ∀ {r}, answer = .ok r → Taken t new r t'

/-- A page is mapped exactly if an extent holds it. -/
theorem Ordered.mapped_iff {t : ExtentTable} (h : t.Ordered) (o : UInt64) :
    (∃ b, t.map? o = .ok (some b)) ↔ ∃ e ∈ t.extents, e.Holds o.toNat := by
  constructor
  · rintro ⟨b, hb⟩
    obtain ⟨e, he, ho, -⟩ := h.map?_eq_some_iff.mp hb
    exact ⟨e, he, ho⟩
  · rintro ⟨e, he, ho⟩
    exact ⟨e.startBlock + (o - e.startPage),
      h.map?_eq_some_iff.mpr ⟨e, he, ho, (Extent.toNat_blockOf (h.fits e he) ho).2.symm⟩⟩

/-- A table that means what another one does and a run besides answers so. -/
theorem Ordered.map?_eq_ite {t t' : ExtentTable} {new : Extent} (h : t.Ordered) (h' : t'.Ordered)
    (hf : new.Fits)
    (hmaps : ∀ o b, t'.Maps o b ↔ t.Maps o b ∨ new.Holds o ∧ new.blockOf o = b) (o : UInt64) :
    t'.map? o = if new.Holds o.toNat then .ok (some (new.startBlock + (o - new.startPage)))
      else t.map? o := by
  by_cases ho : new.Holds o.toNat
  · rw [if_pos ho, h'.map?_eq_some_iff, hmaps]
    exact Or.inr ⟨ho, (Extent.toNat_blockOf hf ho).2.symm⟩
  · rw [if_neg ho]
    obtain ⟨r, hr, hspec⟩ := h.map?_spec o
    obtain ⟨r', hr', hspec'⟩ := h'.map?_spec o
    rw [hr, hr', Except.ok.injEq]
    refine Option.ext fun b => ?_
    rw [hspec, hspec', hmaps]
    exact ⟨fun hor => hor.resolve_right fun hnew => ho hnew.1, Or.inl⟩

/-- Where an extent ends is what it computes, if its ends fit a word. -/
theorem continues_iff {e new : Extent} (hf : e.Fits) (hb : e.blockStop < UInt64.size) :
    e.Continues new ↔ e.endPage = .ok new.startPage ∧ e.endBlock = .ok new.startBlock := by
  simp only [Extent.endPage, Extent.endBlock, addWord_eq_ok_iff, Extent.Continues, Extent.stop,
    Extent.blockStop]
  have hp := hf.pages
  simp only [Extent.stop, Extent.blockStop] at hp hb
  constructor
  · rintro ⟨h1, h2⟩
    exact ⟨⟨hp, h1.symm⟩, hb, h2.symm⟩
  · rintro ⟨⟨-, h1⟩, -, h2⟩
    exact ⟨h1.symm, h2.symm⟩

/-- A run apart from every extent has no page that is mapped. -/
theorem Sound.not_blocked {t : ExtentTable} (h : t.Sound) {new : Extent} (hne : new.nrPages ≠ 0)
    (hapart : ∀ e ∈ t.extents, e.Before new ∨ new.Before e) : ¬ t.Blocked new := by
  rintro (h0 | ⟨o, b, ho, hb⟩)
  · exact hne h0
  · obtain ⟨e, he, ho'⟩ := (h.ordered.mapped_iff o).mp ⟨b, hb⟩
    rcases hapart e he with hbefore | hafter
    · exact ho'.before hbefore ho
    · exact ho.before hafter ho'

/-- A call that is refused. -/
theorem called_of_blocked {t : ExtentTable} {new : Extent} (h : t.Blocked new) :
    Called t new (.error Errno.invalid) t where
  refused := ⟨fun _ => h, fun _ => rfl⟩
  kept := by
    rintro why ⟨⟩
    exact ⟨rfl, rfl⟩
  taken := nofun

/-- A call that is taken. -/
theorem called_of_taken {t t' : ExtentTable} {new : Extent} {r : Nat} (h : ¬ t.Blocked new)
    (htaken : Taken t new r t') : Called t new (.ok r) t' where
  refused := ⟨nofun, fun hb => absurd hb h⟩
  kept := nofun
  taken := by
    rintro r ⟨⟩
    exact htaken

/-- The run as an extent of its own. -/
theorem Sound.inserted {before after : List Extent} {new : Extent}
    (h : Sound ⟨before ++ after⟩) (hin : new.Inside) (hne : new.nrPages ≠ 0)
    (hbefore : ∀ e ∈ before, e.Before new) (hafter : ∀ e ∈ after, new.Before e)
    (hcont : ∀ e ∈ before ++ after, ¬ e.Continues new) :
    Sound ⟨before ++ new :: after⟩ ∧
      Called ⟨before ++ after⟩ new (.ok 1) ⟨before ++ new :: after⟩ := by
  have hf := hin.fits hne
  have ho := h.ordered.insert hf hbefore hafter
  refine ⟨⟨ho, fun e he => ?_⟩, called_of_taken (h.not_blocked hne fun e he => ?_) ?_⟩
  · rcases List.mem_append.mp he with he | he
    · exact h.blocks e (List.mem_append_left _ he)
    · rcases List.mem_cons.mp he with rfl | he
      · exact hin.blocks
      · exact h.blocks e (List.mem_append_right _ he)
  · exact (List.mem_append.mp he).imp (hbefore e) (hafter e)
  · obtain ⟨p, hp, hsum⟩ := h.ordered.inOrder.nrPages_ok
    obtain ⟨p', hp', hsum'⟩ := ho.inOrder.nrPages_ok
    refine ⟨Or.inr ⟨rfl, ?_⟩, ?_, ⟨p, p', hp, hp', ?_⟩,
      h.ordered.map?_eq_ite ho hf maps_insert⟩
    · rintro ⟨e, he, hends⟩
      exact hcont e he ((continues_iff (h.ordered.fits e he) (h.blocks e he)).mpr hends)
    · simp only [length, List.length_append, List.length_cons]
      omega
    · rw [hsum, hsum']
      simp only [List.map_append, List.map_cons, List.flatten_append, List.flatten_cons,
        List.length_append, length_run]
      omega

/-- The run merged into the extent it continues. -/
theorem Sound.merged {before after : List Extent} {prev new : Extent}
    (h : Sound ⟨before ++ prev :: after⟩) (hin : new.Inside) (hne : new.nrPages ≠ 0)
    (hcont : prev.Continues new) (hafter : ∀ e ∈ after, new.Before e) {n : UInt64}
    (hn : n.toNat = prev.nrPages.toNat + new.nrPages.toNat) :
    Sound ⟨before ++ { prev with nrPages := n } :: after⟩ ∧
      Called ⟨before ++ prev :: after⟩ new (.ok 0)
        ⟨before ++ { prev with nrPages := n } :: after⟩ := by
  have hf := hin.fits hne
  have ho := h.ordered.merge hn hf hcont hafter
  have hprev : prev ∈ before ++ prev :: after :=
    List.mem_append_right _ List.mem_cons_self
  refine ⟨⟨ho, fun e he => ?_⟩, called_of_taken (h.not_blocked hne fun e he => ?_) ?_⟩
  · rcases List.mem_append.mp he with he | he
    · exact h.blocks e (List.mem_append_left _ he)
    · rcases List.mem_cons.mp he with rfl | he
      · exact hcont.blockStop_eq hn ▸ hin.blocks
      · exact h.blocks e (List.mem_append_right _ (List.mem_cons_of_mem _ he))
  · rcases List.mem_append.mp he with he | he
    · have hb : e.stop ≤ prev.startPage.toNat :=
        (List.pairwise_append.mp h.ordered.before).2.2 e he prev List.mem_cons_self
      have hpage := hcont.1
      simp only [Extent.Before, Extent.stop] at hb hpage ⊢
      omega
    · rcases List.mem_cons.mp he with rfl | he
      · exact Or.inl hcont.1.le
      · exact Or.inr (hafter e he)
  · obtain ⟨p, hp, hsum⟩ := h.ordered.inOrder.nrPages_ok
    obtain ⟨p', hp', hsum'⟩ := ho.inOrder.nrPages_ok
    refine ⟨Or.inl ⟨rfl, prev, hprev, ?_⟩, ?_, ⟨p, p', hp, hp', ?_⟩,
      h.ordered.map?_eq_ite ho hf (maps_merge hn hcont)⟩
    · exact (continues_iff (h.ordered.fits prev hprev) (h.blocks prev hprev)).mp hcont
    · simp only [length, List.length_append, List.length_cons, Nat.add_zero]
    · rw [hsum, hsum']
      simp only [List.map_append, List.map_cons, List.flatten_append, List.flatten_cons,
        List.length_append, length_run, hn]
      omega

/-- **One call**: a table in which nothing can go wrong takes the run as a whole or refuses it as
a whole, and is left one in which nothing can go wrong. -/
theorem Sound.call {t : ExtentTable} (h : t.Sound) {new : Extent} (hin : new.Inside) :
    ∃ answer t', t.call new = .ok (answer, t') ∧ t'.Sound ∧ Called t new answer t' := by
  by_cases hne : new.nrPages = 0
  · have hadd : t.add new = .error (.refused .emptyRun) := by
      unfold add
      simp only [hne, if_true]
      rfl
    have hcall : t.call new = .ok (.error Errno.invalid, t) := by
      simp only [ExtentTable.call, hadd, Refusal.errno]
    exact ⟨_, _, hcall, h, called_of_blocked (Or.inl hne)⟩
  have hadds := h.ordered.adds (hin.fits hne)
  unfold ExtentTable.call
  generalize t.add new = r at hadds ⊢
  cases hadds with
  | @refused e he o ho ho' =>
    have hlt : o < UInt64.size := Nat.lt_trans ho'.2 hin.pages
    have hto : (UInt64.ofNat o).toNat = o := UInt64.toNat_ofNat_of_lt' hlt
    obtain ⟨b, hb⟩ := (h.ordered.mapped_iff (UInt64.ofNat o)).mpr ⟨e, he, hto.symm ▸ ho⟩
    exact ⟨_, _, rfl, h, called_of_blocked (Or.inr ⟨_, b, hto.symm ▸ ho', hb⟩)⟩
  | merged hl hcont hafter hn =>
    obtain ⟨l⟩ := t
    obtain rfl : l = _ := hl
    exact ⟨_, _, rfl, h.merged hin hne hcont hafter hn⟩
  | inserted hl hbefore hafter hcont =>
    obtain ⟨l⟩ := t
    obtain rfl : l = _ := hl
    exact ⟨_, _, rfl, h.inserted hin hne hbefore hafter hcont⟩
  | overflow he hsize => exact absurd (h.blocks _ he) (Nat.not_lt_of_le hsize)

/-! ## 5. All calls -/

/-- **Calls lead only to tables in which nothing can go wrong.** -/
theorem Grown.sound {t : ExtentTable} (h : t.Grown) : t.Sound := by
  induction h with
  | empty => exact sound_empty
  | call ht hin hcall ih =>
    obtain ⟨answer, t', hcall', hsound, -⟩ := ih.call hin
    obtain ⟨-, rfl⟩ := Prod.mk.inj (Except.ok.inj (hcall.symm.trans hcall'))
    exact hsound

/-- What a lookup answers: the one extent that holds the page and the block in it, or nothing if
no extent does. -/
inductive Found (t : ExtentTable) (o : UInt64) : Prop
  | here (e : Extent) (hfind : t.find? o = .ok (some e)) (he : e ∈ t.extents)
    (ho : e.contains o = .ok true) (hone : ∀ e' ∈ t.extents, e'.contains o = .ok true → e' = e)
    (hmap : t.map? o = .ok (some (e.startBlock + (o - e.startPage))))
  | nowhere (hfind : t.find? o = .ok none) (hno : ∀ e ∈ t.extents, e.contains o = .ok false)
    (hmap : t.map? o = .ok none)

/-- A lookup in an ordered table. -/
theorem Ordered.found {t : ExtentTable} (h : t.Ordered) (o : UInt64) : t.Found o := by
  have hcontains : ∀ {e} {b : Bool}, e ∈ t.extents →
      (e.contains o = .ok b ↔ decide (e.Holds o.toNat) = b) := by
    intro e b he
    rw [Extent.contains_ok (h.fits e he).pages, Except.ok.injEq]
  by_cases hex : ∃ e ∈ t.extents, e.Holds o.toNat
  · obtain ⟨e, he, ho⟩ := hex
    refine .here e (h.find?_eq_some_iff.mpr ⟨he, ho⟩) he
      ((hcontains he).mpr (decide_eq_true ho)) (fun e' he' ho' => ?_) ?_
    · exact h.holds_unique he' he (of_decide_eq_true ((hcontains he').mp ho')) ho
    · exact h.map?_eq_some_iff.mpr
        ⟨e, he, ho, (Extent.toNat_blockOf (h.fits e he) ho).2.symm⟩
  · have hno : ∀ e ∈ t.extents, ¬ e.Holds o.toNat := fun e he ho => hex ⟨e, he, ho⟩
    refine .nowhere (h.find?_eq_none_iff.mpr hno)
      (fun e he => (hcontains he).mpr (decide_eq_false (hno e he)))
      (h.map?_eq_none_iff.mpr ?_)
    rintro b ⟨e, he, ho, -⟩
    exact hno e he ho

/-- **An extent table is a partial map.**  Whatever calls were made before, in whatever order:
the extents are not empty, in order and disjoint; each page is found in the one extent that holds
it; and the next call does not fault.  It is refused, and leaves the table, exactly if the run has
no page or one that is mapped, and else maps the pages of the run and no other. -/
theorem table_is_partial_map {t : ExtentTable} (ht : t.Grown) :
    (∀ e ∈ t.extents, e.nrPages ≠ 0) ∧ t.extents.Pairwise Extent.Before ∧ (∀ o, t.Found o) ∧
      ∀ new : Extent, new.Inside →
        ∃ answer t', t.call new = .ok (answer, t') ∧ Called t new answer t' := by
  have h := ht.sound
  refine ⟨fun e he h0 => ?_, h.ordered.before, h.ordered.found, fun new hin => ?_⟩
  · have hpos := (h.ordered.fits e he).pos
    rw [h0] at hpos
    exact absurd hpos (Nat.lt_irrefl 0)
  · obtain ⟨answer, t', hcall, -, hcalled⟩ := h.call hin
    exact ⟨answer, t', hcall, hcalled⟩

/-- The table after a run at page 5 and one at page 0. -/
def twoRuns : ExtentTable := ⟨[⟨0, 3, 10⟩, ⟨5, 2, 100⟩]⟩

theorem twoRuns_grown : twoRuns.Grown := by
  have hlast : Grown ⟨[⟨5, 2, 100⟩]⟩ :=
    @Grown.call {} _ ⟨5, 2, 100⟩ (.ok 1) .empty ⟨by decide, by decide⟩ (by decide)
  exact @Grown.call _ _ ⟨0, 3, 10⟩ (.ok 1) hlast ⟨by decide, by decide⟩ (by decide)

/-- The gap between two runs is filled from both blocks on; a run too long for it is refused. -/
theorem gap_is_filled : (∃ t', twoRuns.call ⟨3, 2, 13⟩ = .ok (.ok 0, t') ∧
      Taken twoRuns ⟨3, 2, 13⟩ 0 t') ∧
    twoRuns.Blocked ⟨3, 3, 13⟩ ∧ twoRuns.Found 6 := by
  obtain ⟨-, -, hfound, hcall⟩ := table_is_partial_map twoRuns_grown
  refine ⟨?_, ?_, hfound 6⟩
  · obtain ⟨answer, t', hcall, hcalled⟩ := hcall ⟨3, 2, 13⟩ ⟨by decide, by decide⟩
    have heq : twoRuns.call ⟨3, 2, 13⟩ = .ok (.ok 0, ⟨[⟨0, 5, 10⟩, ⟨5, 2, 100⟩]⟩) := by decide
    obtain ⟨rfl, rfl⟩ := Prod.mk.inj (Except.ok.inj (hcall.symm.trans heq))
    exact ⟨_, heq, hcalled.taken rfl⟩
  · obtain ⟨answer, t', hcall, hcalled⟩ := hcall ⟨3, 3, 13⟩ ⟨by decide, by decide⟩
    have heq : twoRuns.call ⟨3, 3, 13⟩ = .ok (.error Errno.invalid, twoRuns) := by decide
    obtain ⟨rfl, -⟩ := Prod.mk.inj (Except.ok.inj (hcall.symm.trans heq))
    exact hcalled.refused.mp rfl

end ExtentTable

end PageSwap
