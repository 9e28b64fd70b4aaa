/-
# No data is lost

Pages are filled, written out and read back over a whole device.  Any transfer may fail, and a
slot that has been read by its one user may be lost on the device.  Still the data last given to a
slot is never lost: it is on the device, or in the page of the slot, and that page will be
written.

One would say that such a page is dirty or is being written, and that is what the theorem says.  It
is no invariant: a write takes the dirty flag first, then asks for the slot and for a request, and
in between the page is neither, while a failure would have to make it dirty again.  So what a page
OWES may also be in the hands of the write that is under way (`Page.Owes`), there is one such write
at most (`taken`), and the write has to give back what it took before its call is over.
Completions, which may come in the middle of a call, then need no case of their own: none of them
touches `taken`.

The other fields of `Kept` are there for reads.  A page that is read owes nothing, so the data of
its slot is on the device, and only then may the device lose the slot, because the page is made
dirty in the same step.

* `Page.Owes`, `Kept` -- pages that hold what has to be written yet, and what is kept of the data.
* `Kept.same`, `Kept.written`, `Kept.read` -- the three things a transfer can do to it.
* `Use` -- what callers, calls and completions do, one step at a time.
* `no_data_lost` -- after any run, the data of every slot is there.
-/
import PageSwap.Proofs.Agreement
import PageSwap.Proofs.Service

namespace PageSwap

variable {σ : Type}

/-! ## 1. What is kept -/

/-- The page holds what has to be written yet: it is dirty, it is being written, or a write has
`taken` its dirty flag and not ended. -/
def Page.Owes (page : Page) (taken : Prop) : Prop :=
  page.flags.dirty = true ∨ page.transfer = .writing ∨ taken

/-- A clean page without a transfer owes nothing. -/
theorem owes_nothing {page : Page} {p : PageId} (hclean : page.flags.dirty = false)
    (hidle : page.transfer = .idle) : ¬ page.Owes (none = some p) := by
  rintro (hd | hr | hn)
  · exact absurd (hclean.symm.trans hd) nofun
  · exact absurd (hidle.symm.trans hr) nofun
  · exact absurd hn nofun

/-- **What is kept** of the data `given` to the slots, by pages and by the `content` of the device.
`taken` is the page whose dirty flag a write has taken. -/
structure Kept (area : Area) (taken : Option PageId) (given : Nat → Bytes) (pages : Table Page)
    (content : Nat → Bytes) : Prop where
  /-- Slots are in the area, and their pages are base pages. -/
  home : ∀ {p sl}, (pages.get p).slot = some sl →
    sl.area = area.number ∧ (pages.get p).bytes.size = 4096
  /-- A slot has one page at most. -/
  unique : ∀ {p p' o}, area.IsAt (pages.get p).slot o → area.IsAt (pages.get p').slot o → p = p'
  /-- What has to be written is the data of the slot. -/
  owes : ∀ {p o}, area.IsAt (pages.get p).slot o → (pages.get p).Owes (taken = some p) →
    (pages.get p).bytes = given o
  /-- A page that is being read holds nothing. -/
  reading : ∀ {p}, (pages.get p).transfer = .reading → ¬ (pages.get p).Owes (taken = some p)
  /-- The data of a slot is on the device, or has to be written yet. -/
  kept : ∀ o, content o = given o ∨
    ∃ p, area.IsAt (pages.get p).slot o ∧ (pages.get p).Owes (taken = some p)

namespace Kept

variable {area : Area} {taken taken' : Option PageId} {given given' content content' : Nat → Bytes}
  {pages : Table Page} {p : PageId} {page : Page}

/-- One page changes, and with it at most the data and the content of its own slot.  All that
follows is this lemma with the two questions answered for the slot of the page: whether what the
page owes is its data, and where the data is if the page does not owe it. -/
theorem update (h : Kept area taken given pages content)
    (hslot : page.slot = (pages.get p).slot)
    (hsize : page.bytes.size = (pages.get p).bytes.size)
    (htaken : ∀ p', p' ≠ p → (taken' = some p' ↔ taken = some p'))
    (hreading : page.transfer = .reading → ¬ page.Owes (taken' = some p))
    (hgiven : ∀ o, ¬ area.IsAt page.slot o → given' o = given o)
    (hcontent : ∀ o, ¬ area.IsAt page.slot o → content' o = content o)
    (howes : ∀ o, area.IsAt page.slot o → page.Owes (taken' = some p) → page.bytes = given' o)
    (hkept : ∀ o, area.IsAt page.slot o → content' o = given' o ∨ page.Owes (taken' = some p)) :
    Kept area taken' given' (pages.set p page) content' := by
  have hslots : ∀ p', ((pages.set p page).get p').slot = (pages.get p').slot := by
    intro p'
    rw [Table.get_set]
    split
    · rename_i hp
      rw [hslot, hp]
    · rfl
  -- what the other pages hold, they held before
  have hother : ∀ p', p' ≠ p → (((pages.set p page).get p').Owes (taken' = some p') ↔
      (pages.get p').Owes (taken = some p')) := by
    intro p' hp'
    unfold Page.Owes
    rw [Table.get_set_ne _ _ hp', htaken p' hp']
  constructor
  case home =>
    intro p' sl hsl
    rw [hslots] at hsl
    refine ⟨(h.home hsl).1, ?_⟩
    rw [Table.get_set]
    split
    · rename_i hp
      rw [hsize, ← hp]
      exact (h.home hsl).2
    · exact (h.home hsl).2
  case unique =>
    intro p₁ p₂ o h₁ h₂
    rw [hslots] at h₁ h₂
    exact h.unique h₁ h₂
  case owes =>
    intro p' o hat ho
    by_cases hp : p' = p
    · subst hp
      rw [Table.get_set_self] at hat ho ⊢
      exact howes o hat ho
    · have hnot : ¬ area.IsAt page.slot o := by
        intro hat'
        rw [hslots] at hat
        exact hp (h.unique hat (hslot ▸ hat'))
      rw [hgiven o hnot]
      rw [hother p' hp] at ho
      rw [Table.get_set_ne _ _ hp] at hat ⊢
      exact h.owes hat ho
  case reading =>
    intro p' hr ho
    by_cases hp : p' = p
    · subst hp
      rw [Table.get_set_self] at hr ho
      exact hreading hr ho
    · rw [hother p' hp] at ho
      rw [Table.get_set_ne _ _ hp] at hr
      exact h.reading hr ho
  case kept =>
    intro o
    by_cases hat : area.IsAt page.slot o
    · refine (hkept o hat).imp_right fun ho => ⟨p, ?_⟩
      rw [Table.get_set_self]
      exact ⟨hat, ho⟩
    · rw [hcontent o hat, hgiven o hat]
      refine (h.kept o).imp_right ?_
      rintro ⟨p', hat', ho⟩
      have hp : p' ≠ p := by
        rintro rfl
        exact hat (hslot ▸ hat')
      exact ⟨p', by rw [hslots]; exact hat', (hother p' hp).mpr ho⟩

/-- **The page holds what it held**, and the device has not changed. -/
theorem same (h : Kept area taken given pages content)
    (hslot : page.slot = (pages.get p).slot) (hbytes : page.bytes = (pages.get p).bytes)
    (htaken : ∀ p', p' ≠ p → (taken' = some p' ↔ taken = some p'))
    (howes : page.Owes (taken' = some p) ↔ (pages.get p).Owes (taken = some p))
    (hreading : page.transfer = .reading → ¬ (pages.get p).Owes (taken = some p))
    (hcontent : ∀ o, content' o = content o) :
    Kept area taken' given (pages.set p page) content' := by
  refine h.update hslot (by rw [hbytes]) htaken (fun hr ho => hreading hr (howes.mp ho))
    (fun _ _ => rfl) (fun o _ => hcontent o) (fun o hat ho => ?_) fun o hat => ?_
  · rw [hbytes]
    exact h.owes (hslot ▸ hat) (howes.mp ho)
  · rw [hcontent o]
    refine (h.kept o).imp_right ?_
    rintro ⟨p', hat', ho⟩
    have hp := h.unique hat' (hslot ▸ hat)
    subst hp
    exact howes.mpr ho

/-- **The page has been written**, whether it is dirty after that or not. -/
theorem written (h : Kept area taken given pages content)
    (hslot : page.slot = (pages.get p).slot) (hbytes : page.bytes = (pages.get p).bytes)
    (htaken : ∀ p', p' ≠ p → (taken' = some p' ↔ taken = some p'))
    (howes : (pages.get p).Owes (taken = some p)) (hidle : page.transfer = .idle) {o : Nat}
    (hat : area.IsAt page.slot o)
    (hcontent : ∀ o', content' o' = if o' = o then page.bytes else content o') :
    Kept area taken' given (pages.set p page) content' := by
  have hgiven : page.bytes = given o := hbytes.trans (h.owes (hslot ▸ hat) howes)
  refine h.update hslot (by rw [hbytes]) htaken (fun hr => absurd (hidle.symm.trans hr) nofun)
    (fun _ _ => rfl) (fun o' hnot => ?_) (fun o' hat' _ => ?_) fun o' hat' => ?_
  · rw [hcontent, if_neg]
    rintro rfl
    exact hnot hat
  · rw [hat'.unique hat]
    exact hgiven
  · rw [hat'.unique hat, hcontent, if_pos rfl]
    exact Or.inl hgiven

/-- **The page has been read.**  The content of its slot may be gone if the page is dirty. -/
theorem read (h : Kept area taken given pages content)
    (hslot : page.slot = (pages.get p).slot) (hsize : (pages.get p).bytes.size = 4096)
    (htaken : ∀ p', p' ≠ p → (taken' = some p' ↔ taken = some p'))
    (howes : ¬ (pages.get p).Owes (taken = some p)) (hidle : page.transfer = .idle) {o : Nat}
    (hat : area.IsAt page.slot o) (hbytes : page.bytes = content o) (hread : page.bytes.size = 4096)
    (hcontent : ∀ o', o' ≠ o → content' o' = content o')
    (hlost : content' o = content o ∨ page.Owes (taken' = some p)) :
    Kept area taken' given (pages.set p page) content' := by
  -- no other page has this slot, and this one owes nothing, so the data is on the device
  have hgiven : content o = given o := by
    refine (h.kept o).resolve_right ?_
    rintro ⟨p', hat', ho⟩
    have hp := h.unique hat' (hslot ▸ hat)
    subst hp
    exact howes ho
  refine h.update hslot (by rw [hread, hsize]) htaken (fun hr => absurd (hidle.symm.trans hr) nofun)
    (fun _ _ => rfl) (fun o' hnot => hcontent o' ?_) (fun o' hat' _ => ?_) fun o' hat' => ?_
  · rintro rfl
    exact hnot hat
  · rw [hat'.unique hat, hbytes]
    exact hgiven
  · rw [hat'.unique hat]
    exact hlost.imp_left fun he => he.trans hgiven

/-- A write takes the dirty flag of a page; nothing else has changed yet. -/
theorem claim (h : Kept area none given pages content)
    (hdirty : (pages.get p).flags.dirty = true) : Kept area (some p) given pages content := by
  have hsame : ∀ p', (pages.get p').Owes (some p = some p') ↔
      (pages.get p').Owes (none = some p') := by
    intro p'
    refine ⟨?_, Or.imp_right (Or.imp_right nofun)⟩
    rintro (hd | hr | hp)
    · exact Or.inl hd
    · exact Or.inr (Or.inl hr)
    · rw [← Option.some.inj hp]
      exact Or.inl hdirty
  exact
    { home := h.home
      unique := h.unique
      owes := fun hat ho => h.owes hat ((hsame _).mp ho)
      reading := fun hr ho => h.reading hr ((hsame _).mp ho)
      kept := fun o => (h.kept o).imp_right fun ⟨p', hat, ho⟩ => ⟨p', hat, (hsame p').mpr ho⟩ }

/-- **A page that owes nothing** gives its slot up or gets one that no other page has. -/
theorem move (h : Kept area taken given pages content)
    (hold : ∀ o, area.IsAt (pages.get p).slot o → ¬ (pages.get p).Owes (taken = some p))
    (hnew : ¬ page.Owes (taken = some p))
    (hslot : ∀ sl, page.slot = some sl → sl.area = area.number ∧ page.bytes.size = 4096 ∧
      ∀ p' ≠ p, ¬ area.IsAt (pages.get p').slot sl.offset.toNat) :
    Kept area taken given (pages.set p page) content := by
  have hunused : ∀ {p' o}, area.IsAt page.slot o → area.IsAt (pages.get p').slot o → p' = p := by
    rintro p' o ⟨sl, hsl, -, rfl⟩ hat
    by_contra hp
    exact (hslot sl hsl).2.2 p' hp hat
  constructor
  case home =>
    intro p' sl hsl
    rw [Table.get_set] at hsl ⊢
    split at hsl
    · rename_i hp
      rw [if_pos hp]
      exact ⟨(hslot sl hsl).1, (hslot sl hsl).2.1⟩
    · rename_i hp
      rw [if_neg hp]
      exact h.home hsl
  case unique =>
    intro p₁ p₂ o h₁ h₂
    rw [Table.get_set] at h₁ h₂
    split at h₁
    · rename_i hp₁
      split at h₂
      · rename_i hp₂
        exact hp₁.trans hp₂.symm
      · exact hp₁.trans (hunused h₁ h₂).symm
    · split at h₂
      · rename_i hp₂
        exact (hunused h₂ h₁).trans hp₂.symm
      · exact h.unique h₁ h₂
  case owes =>
    intro p' o hat ho
    by_cases hp : p' = p
    · subst hp
      rw [Table.get_set_self] at ho
      exact absurd ho hnew
    · rw [Table.get_set_ne _ _ hp] at hat ho ⊢
      exact h.owes hat ho
  case reading =>
    intro p' hr ho
    by_cases hp : p' = p
    · subst hp
      rw [Table.get_set_self] at ho
      exact hnew ho
    · rw [Table.get_set_ne _ _ hp] at hr ho
      exact h.reading hr ho
  case kept =>
    intro o
    refine (h.kept o).imp_right ?_
    rintro ⟨p', hat, ho⟩
    have hp : p' ≠ p := by
      rintro rfl
      exact hold o hat ho
    exact ⟨p', by rw [Table.get_set_ne _ _ hp]; exact ⟨hat, ho⟩⟩

end Kept

/-! ## 2. Transfers lose nothing -/

/-- **What is asked of collaborators**: the driver of a disk may lose a slot it is told is free and
nothing else; the slot map never drops a slot; and there is no front store. -/
structure Backend.Plain (b : Backend σ) (queue : QueueId) (disk : σ → Storage) : Prop where
  drives : b.Drives queue disk
  slotFreed : ∀ {offset w o}, o ≠ offset.toNat →
    (disk (b.queues.slotFreed queue offset w)).page o = (disk w).page o
  tryFree : ∀ {m p page w answer page' w'}, b.slotMaps.tryFree m p page w = ((answer, page'), w') →
    answer = false ∧ page' = page ∧ disk w' = disk w
  front : b.front = none

/-- The area is a whole device: slot `o` is page `o` of the device. -/
structure Area.Whole (area : Area) (d : DeviceId) : Prop where
  backing : area.backing = .device d
  sector : ∀ {slot sector}, area.sector slot = .ok sector →
    ∃ o, area.IsAt slot o ∧ sector.toNat * 512 = o * 4096

theorem Area.Whole.eq_of_device? {area : Area} {d d' : DeviceId} (h : area.Whole d)
    (hd : area.backing.device? = some d') : d' = d := by
  rw [h.backing] at hd
  injection hd with hd
  exact hd.symm

/-- The area is in use, and the data given to its slots is kept. -/
structure Safe (area : Area) (queue : QueueId) (disk : σ → Storage) (taken : Option PageId)
    (given : Nat → Bytes) (s : System σ) : Prop where
  serves : Serves area queue s
  kept : Kept area taken given s.pages fun o => (disk s.world).page o

section

variable {b : Backend σ} {area : Area} {d : DeviceId} {queue : QueueId} {disk : σ → Storage}
  {taken : Option PageId} {given : Nat → Bytes} {s s' : System σ} {p : PageId} {status : Status}

/-- The page that a write had taken is no longer taken. -/
theorem taken_cleared (p' : PageId) (hp : p' ≠ p) : none = some p' ↔ some p = some p' :=
  ⟨nofun, fun h => absurd (Option.some.inj h).symm hp⟩

/-- A page with a sector has a slot of the area, and the size of a base page. -/
theorem Safe.at_of_sector (h : Safe area queue disk taken given s) (hw : area.Whole d)
    {sector : UInt64} (hsector : area.sector (s.pages.get p).slot = .ok sector) :
    ∃ o, area.IsAt (s.pages.get p).slot o ∧ sector.toNat * 512 = o * 4096 ∧
      (s.pages.get p).bytes.size = 4096 := by
  obtain ⟨o, hat, hs⟩ := hw.sector hsector
  have hat' := hat
  obtain ⟨sl, hsl, -⟩ := hat'
  exact ⟨o, hat, hs, (h.kept.home hsl).2⟩

/-- **A write to the device loses nothing**, and gives back the dirty flag it has taken. -/
theorem DeviceWrite.safe {w : Writeback} (hb : b.Plain queue disk) (hw : area.Whole d)
    (hstep : DeviceWrite b area d p w .write s status s')
    (h : Safe area queue disk (some p) given s) (hidle : (s.pages.get p).transfer = .idle) :
    Safe area queue disk none given s' := by
  have hqueue : (s.devices.get d).queue = queue := h.serves.queue (by rw [hw.backing]; rfl)
  have howes : (s.pages.get p).Owes (some p = some p) := Or.inr (Or.inr rfl)
  -- given up, the page is dirty again; issued, it is being written; else it is on the disk
  cases hstep with
  | lost hsector =>
    refine ⟨h.serves.edit_idle s.world hidle hidle, ?_⟩
    exact h.kept.same rfl rfl taken_cleared ⟨fun _ => howes, fun _ => Or.inl rfl⟩
      (fun hr => absurd (hidle.symm.trans hr) nofun) fun _ => rfl
  | direct hsector htransfer hchores =>
    obtain ⟨o, hat, hs, hsize⟩ := h.at_of_sector hw hsector
    rw [hqueue] at htransfer
    obtain ⟨rfl, hdisk⟩ := (hb.drives.transfer htransfer).write_page hs hsize
    refine ⟨h.serves.edit_idle _ hidle rfl, ?_⟩
    refine h.kept.written rfl rfl taken_cleared howes rfl hat fun o' => ?_
    rw [hb.drives.chores hchores]
    exact hdisk o'
  | crowded hsector htransfer hwhy =>
    rw [hqueue] at htransfer
    obtain ⟨rfl, hdisk⟩ := (hb.drives.transfer htransfer).failed
    refine ⟨h.serves.edit_idle _ hidle rfl, ?_⟩
    refine h.kept.same rfl rfl taken_cleared ⟨fun _ => howes, fun _ => Or.inl rfl⟩ nofun fun o => ?_
    rw [hdisk]
  | issued hsector htransfer hroom htag hchores =>
    rw [hqueue] at htransfer
    obtain ⟨rfl, hdisk⟩ := (hb.drives.transfer htransfer).failed
    refine ⟨h.serves.issue _ rfl rfl rfl (by rw [hw.backing]; rfl) hidle htag hsector rfl rfl nofun
      rfl, ?_⟩
    refine h.kept.same rfl rfl taken_cleared ⟨fun _ => howes, fun _ => Or.inr (Or.inl rfl)⟩ nofun
      fun o => ?_
    rw [hb.drives.chores hchores, hdisk]

/-- **A read that succeeds loses nothing**, also if the slot is given up. -/
theorem Safe.ended_read (hb : b.Plain queue disk) (hw : area.Whole d)
    (h : Safe area queue disk none given s) (howes : ¬ (s.pages.get p).Owes (none = some p))
    {o : Nat} (hat : area.IsAt (s.pages.get p).slot o) {bytes : Bytes} {w w' : σ}
    (hbytes : bytes = (disk s.world).page o) (hdisk : disk w = disk s.world)
    (hchores : Chores b (noticed b area s.devices (s.pages.get p).slot w).2 w') :
    Kept area none given
      (s.pages.set p ((s.pages.get p).ended .read (.ok ()) bytes
        (noticed b area s.devices (s.pages.get p).slot w).1))
      fun o => (disk w').page o := by
  have hqueue : (s.devices.get d).queue = queue := h.serves.queue (by rw [hw.backing]; rfl)
  have hat' := hat
  obtain ⟨sl, hsl, -, ho⟩ := hat'
  have hsize := (h.kept.home hsl).2
  have hread : bytes.size = 4096 := by rw [hbytes]; exact Storage.size_read _ _ _
  rw [hsl] at hchores ⊢
  -- the slot is kept, or it is given up and the page that was read is dirty
  rcases noticed_cases b hw.backing s.devices sl w with ⟨w₁, hw₁, hn⟩ | ⟨w₁, hw₁, hn⟩
  · rw [hn] at hchores ⊢
    have hsame : disk w' = disk s.world := by
      rw [hb.drives.chores hchores, hb.drives.chores hw₁, hdisk]
    exact h.kept.read rfl hsize (fun _ _ => Iff.rfl) howes rfl hat hbytes hread
      (fun o' _ => by rw [hsame]) (Or.inl (by rw [hsame]))
  · rw [hn, hqueue] at hchores
    rw [hn]
    have hothers : ∀ o', o' ≠ o → (disk w').page o' = (disk s.world).page o' := by
      intro o' hne
      rw [hb.drives.chores hchores, hb.slotFreed (by rw [ho]; exact hne), hb.drives.chores hw₁,
        hdisk]
    exact h.kept.read rfl hsize (fun _ _ => Iff.rfl) howes rfl hat hbytes hread hothers
      (Or.inr (Or.inl (Bool.or_true _)))

/-- **A read from the device loses nothing.** -/
theorem DeviceRead.safe (hb : b.Plain queue disk) (hw : area.Whole d)
    (hstep : DeviceRead b area d p s status s') (h : Safe area queue disk none given s)
    (hheld : (s.pages.get p).Held) (hclean : (s.pages.get p).flags.dirty = false) :
    Safe area queue disk none given s' := by
  have hqueue : (s.devices.get d).queue = queue := h.serves.queue (by rw [hw.backing]; rfl)
  have howes : ¬ (s.pages.get p).Owes (none = some p) := owes_nothing hclean hheld.2
  -- a page that stays clean owes nothing
  have hstays : ∀ {page : Page}, page.flags.dirty = (s.pages.get p).flags.dirty →
      page.transfer ≠ .writing →
        (page.Owes (none = some p) ↔ (s.pages.get p).Owes (none = some p)) := by
    intro page hd hr
    refine ⟨fun ho => ?_, fun ho => absurd ho howes⟩
    rcases ho with ho | ho | ho
    · exact Or.inl (hd ▸ ho)
    · exact absurd ho hr
    · exact absurd ho nofun
  cases hstep with
  | lost hsector =>
    refine ⟨h.serves.edit_idle s.world hheld.2 rfl, ?_⟩
    exact h.kept.same rfl rfl (fun _ _ => Iff.rfl) (hstays rfl nofun) nofun fun _ => rfl
  | direct hsector htransfer hchores =>
    obtain ⟨o, hat, hs, hsize⟩ := h.at_of_sector hw hsector
    rw [hqueue] at htransfer
    obtain ⟨hbytes, hdisk⟩ := (hb.drives.transfer htransfer).read_page hs hsize
    exact ⟨h.serves.edit_idle _ hheld.2 rfl, h.ended_read hb hw howes hat hbytes hdisk hchores⟩
  | crowded hsector htransfer hwhy =>
    rw [hqueue] at htransfer
    obtain ⟨rfl, hdisk⟩ := (hb.drives.transfer htransfer).failed
    refine ⟨h.serves.edit_idle _ hheld.2 rfl, ?_⟩
    refine h.kept.same rfl rfl (fun _ _ => Iff.rfl) (hstays rfl nofun) nofun fun o => ?_
    rw [hdisk]
  | issued hsector htransfer hroom htag hq hchores =>
    rw [hqueue] at htransfer
    obtain ⟨rfl, hdisk⟩ := (hb.drives.transfer htransfer).failed
    refine ⟨?_, h.kept.same rfl rfl (fun _ _ => Iff.rfl) (hstays rfl nofun) (fun _ => howes)
      fun o => by rw [hb.drives.chores hchores, hdisk]⟩
    rcases hq with rfl | ⟨i, rfl⟩
    · exact h.serves.issue _ rfl rfl rfl (by rw [hw.backing]; rfl) hheld.2 htag hsector rfl rfl
        (fun _ => hheld.1) rfl
    · exact h.serves.issue _ rfl rfl rfl (by rw [hw.backing]; rfl) hheld.2 htag hsector rfl rfl
        (fun _ => hheld.1) rfl

/-- **A completion loses nothing**, whatever it ends with. -/
theorem lasting_safe (hb : b.Plain queue disk) (hw : area.Whole d) (given : Nat → Bytes) :
    Lasting b (fun _ => True) (Safe area queue disk none given) where
  tolerant := tolerant_any
  blind := fun _ _ _ h => ⟨⟨h.serves.coherent, h.serves.registered, h.serves.queue,
    h.serves.request⟩, h.kept⟩
  aside := fun h haside => ⟨⟨h.serves.coherent, h.serves.registered, h.serves.queue,
    h.serves.request⟩, by rw [show _ = _ from hb.drives.chore haside.chore]; exact h.kept⟩
  ready := fun h hq => h.serves.coherent.ready hq
  finished := by
    intro s f q status bytes w h hq hsettle
    refine ⟨h.serves.finish b hq status bytes w, ?_⟩
    obtain ⟨-, hdevice, hsector⟩ := h.serves.request hq
    rw [h.serves.queue hdevice] at hsettle
    obtain ⟨o, hat, hs, hsize⟩ := h.at_of_sector hw hsector
    have hmoved := hb.drives.settle hsettle
    have htransfer := h.serves.coherent.transfer hq
    unfold System.finished noticedBy
    cases hdir : q.direction with
    | write =>
      rw [hdir] at hmoved htransfer
      have howes : (s.pages.get q.page).Owes (none = some q.page) := Or.inr (Or.inl htransfer)
      cases status with
      | ok u =>
        obtain ⟨rfl, hdisk⟩ := hmoved.write_page hs hsize
        exact h.kept.written rfl rfl (fun _ _ => Iff.rfl) howes rfl hat hdisk
      | error e =>
        obtain ⟨rfl, hdisk⟩ := hmoved.failed
        refine h.kept.same rfl rfl (fun _ _ => Iff.rfl) ⟨fun _ => howes, fun _ => Or.inl rfl⟩ nofun
          fun o => ?_
        dsimp only
        rw [hdisk]
    | read =>
      rw [hdir] at hmoved htransfer
      have howes := h.kept.reading htransfer
      cases status with
      | ok u =>
        obtain ⟨hbytes, hdisk⟩ := hmoved.read_page hs hsize
        rw [(h.serves.request hq).1]
        exact h.ended_read hb hw howes hat hbytes hdisk .refl
      | error e =>
        obtain ⟨rfl, hdisk⟩ := hmoved.failed
        refine h.kept.same rfl rfl (fun _ _ => Iff.rfl) ⟨?_, fun ho => absurd ho howes⟩ nofun
          fun o => ?_
        · rintro (hd | hr | hn)
          · exact Or.inl hd
          · exact absurd hr nofun
          · exact absurd hn nofun
        · dsimp only
          rw [hdisk]

end

/-! ## 3. Calls lose nothing -/

/-- A page is written out locked, idle and dirty, and read in locked, idle, clean and holding no
valid content. -/
def Call.Fair (s : System σ) : Call → Prop
  | .pageOut p _ => (s.pages.get p).Held ∧ (s.pages.get p).flags.dirty = true
  | .pageOutPast p _ => (s.pages.get p).Held ∧ (s.pages.get p).flags.dirty = true
  | .pageIn p _ => (s.pages.get p).Held ∧ (s.pages.get p).flags.dirty = false ∧
      (s.pages.get p).flags.uptodate = false
  | .finish _ => True
  | _ => False

/-- **One step** of the use of an area: what callers do to their pages, calls, and completions.
With it goes the data `given` to the slots. -/
inductive Use (b : Backend σ) (area : Area) (disk : σ → Storage) :
    System σ × (Nat → Bytes) → System σ × (Nat → Bytes) → Prop
  /-- A base page, clean and idle, gets a slot that no page has. -/
  | take {s : System σ} {given : Nat → Bytes} {p : PageId} {page : Page} {sl : Slot}
      (hfree : (s.pages.get p).slot = none) (hbusy : (s.pages.get p).transfer = .idle)
      (hslot : page.slot = some sl) (harea : sl.area = area.number)
      (hunused : ∀ p', ¬ area.IsAt (s.pages.get p').slot sl.offset.toNat)
      (hsize : page.order = 0 ∧ page.bytes.size = 4096) (hidle : page.transfer = .idle)
      (hclean : page.flags.dirty = false) :
      Use b area disk (s, given) ({ s with pages := s.pages.set p page }, given)
  /-- A page that is clean, idle and unlocked is dropped. -/
  | drop {s : System σ} {given : Nat → Bytes} {p : PageId}
      (hclean : (s.pages.get p).flags.dirty = false) (hidle : (s.pages.get p).transfer = .idle)
      (hunlocked : (s.pages.get p).flags.locked = false) :
      Use b area disk (s, given)
        ({ s with pages := s.pages.set p (s.pages.get p).dropSlot }, given)
  /-- Flags of a page change, the lock among them.  It is not unlocked while it is read, and neither
  its data nor its dirty flag changes. -/
  | edit {s : System σ} {given : Nat → Bytes} {p : PageId} {page : Page}
      (hslot : page.slot = (s.pages.get p).slot) (hbytes : page.bytes = (s.pages.get p).bytes)
      (hdirty : page.flags.dirty = (s.pages.get p).flags.dirty)
      (htransfer : page.transfer = (s.pages.get p).transfer)
      (hlocked : (s.pages.get p).transfer = .reading → (s.pages.get p).flags.locked = true →
        page.flags.locked = true) :
      Use b area disk (s, given) ({ s with pages := s.pages.set p page }, given)
  /-- A page is filled and made dirty, locked and idle. -/
  | fill {s : System σ} {given : Nat → Bytes} {p : PageId} {o : Nat} {bytes : Bytes}
      (hheld : (s.pages.get p).Held) (hat : area.IsAt (s.pages.get p).slot o)
      (hsize : bytes.size = 4096) :
      Use b area disk (s, given)
        ({ s with pages := s.pages.set p { s.pages.get p with bytes, flags.dirty := true } },
          Function.update given o bytes)
  /-- A page is written out or read in, or a request is finished. -/
  | call {s s' : System σ} {given : Nat → Bytes} {c : Call} {status : Status} (hfair : c.Fair s)
      (hrun : c.run b s = .ok (status, s')) : Use b area disk (s, given) (s', given)
  /-- Collaborators go on by themselves; the disk keeps what it has. -/
  | elsewhere {s : System σ} {given : Nat → Bytes} {w : σ} (hdisk : disk w = disk s.world) :
      Use b area disk (s, given) ({ s with world := w }, given)

section

variable {b : Backend σ} {area : Area} {d : DeviceId} {queue : QueueId} {disk : σ → Storage}
  {given : Nat → Bytes} {s s' : System σ} {p : PageId} {status : Status}

/-- The area of a page with a slot is the one in use. -/
theorem Safe.areaAt {taken : Option PageId} (h : Safe area queue disk taken given s) {a : Area}
    (ha : s.areaAt p = some a) : a = area := by
  unfold System.areaAt at ha
  cases hsl : (s.pages.get p).slot with
  | none =>
    rw [hsl] at ha
    exact absurd ha nofun
  | some sl =>
    rw [hsl, Option.bind_some, (h.kept.home hsl).1, h.serves.registered] at ha
    exact (Option.some.inj ha).symm

/-- The dirty flag of a page moves into the hands of a write. -/
theorem Safe.take (h : Safe area queue disk none given s) {w : σ}
    (hidle : (s.pages.get p).transfer = .idle) (hdirty : (s.pages.get p).flags.dirty = true)
    (hdisk : disk w = disk s.world) :
    Safe area queue disk (some p) given
      { s with pages := s.pages.set p (s.pages.get p).clearDirty, world := w } := by
  refine ⟨h.serves.edit_idle w hidle hidle, ?_⟩
  refine (h.kept.claim hdirty).same rfl rfl (fun _ _ => Iff.rfl)
    ⟨fun _ => Or.inl hdirty, fun _ => Or.inr (Or.inr rfl)⟩
    (fun hr => absurd (hidle.symm.trans hr) nofun) fun o => ?_
  rw [show disk _ = _ from hdisk]

/-- A write that is given up makes the page dirty again. -/
theorem Safe.spilled (h : Safe area queue disk none given s)
    (hidle : (s.pages.get p).transfer = .idle) (hdirty : (s.pages.get p).flags.dirty = true) :
    Safe area queue disk none given { s with pages := s.pages.set p (s.pages.get p).spilled } :=
  ⟨h.serves.edit_idle s.world hidle hidle,
    h.kept.same rfl rfl (fun _ _ => Iff.rfl) ⟨fun _ => Or.inl hdirty, fun _ => Or.inl rfl⟩
      (fun hr => absurd (hidle.symm.trans hr) nofun) fun _ => rfl⟩

theorem SlotWrite.safe {w : Writeback} (hb : b.Plain queue disk) (hw : area.Whole d)
    (hstep : SlotWrite b area p w .write s status s') (h : Safe area queue disk (some p) given s)
    (hidle : (s.pages.get p).transfer = .idle) : Safe area queue disk none given s' := by
  cases hstep with
  | file hbacking hstep => exact absurd (hw.backing.symm.trans hbacking) nofun
  | device hbacking hstep =>
    rw [hw.eq_of_device? hbacking] at hstep
    exact hstep.safe hb hw h hidle

theorem PageWrite.safe {w : Writeback} (hb : b.Plain queue disk) (hw : area.Whole d)
    (hstep : PageWrite b p w s status s') (h : Safe area queue disk none given s)
    (hheld : (s.pages.get p).Held) (hdirty : (s.pages.get p).flags.dirty = true) :
    Safe area queue disk none given s' := by
  cases hstep with
  | lost => exact h.spilled hheld.2 hdirty
  | freed harea hfree => exact absurd (hb.tryFree hfree).1 nofun
  | stored harea hfree hchores hfront => exact absurd (hb.front.symm.trans hfront) nofun
  | slot harea hfree hchores hfront hstep =>
    obtain ⟨-, rfl, hdisk⟩ := hb.tryFree hfree
    rw [h.areaAt harea] at hstep
    cases hfront with
    | declined hfront => exact absurd (hb.front.symm.trans hfront) nofun
    | absent =>
      refine hstep.safe hb hw (h.take hheld.2 hdirty ?_) ?_
      · rw [hb.drives.chores hchores, hdisk]
      · rw [Table.get_set_self]
        exact hheld.2

theorem PageRead.safe {pace : Pace} (hb : b.Plain queue disk) (hw : area.Whole d)
    (hstep : PageRead b p pace s status s') (h : Safe area queue disk none given s)
    (hheld : (s.pages.get p).Held) (hclean : (s.pages.get p).flags.dirty = false) :
    Safe area queue disk none given s' := by
  cases hstep with
  | lost =>
    refine ⟨h.serves.edit_idle s.world hheld.2 rfl, ?_⟩
    exact h.kept.same rfl rfl (fun _ _ => Iff.rfl)
      ⟨fun ho => absurd ho (owes_nothing hclean rfl),
        fun ho => absurd ho (owes_nothing hclean hheld.2)⟩ nofun fun _ => rfl
  | loaded harea hfront => exact absurd (hb.front.symm.trans hfront) nofun
  | slot harea hfront _ hstep hstall =>
    subst hstall
    rw [h.areaAt harea] at hstep
    cases hfront with
    | declined hfront => exact absurd (hb.front.symm.trans hfront) nofun
    | absent =>
      have h' := (lasting_safe hb hw given).aside h (.enter _)
      cases hstep with
      | file hbacking hstep => exact absurd (hw.backing.symm.trans hbacking) nofun
      | device hbacking hstep =>
        rw [hw.eq_of_device? hbacking] at hstep
        exact hstep.safe hb hw h' hheld hclean

/-- **A call loses nothing.** -/
theorem Call.run_safe (hb : b.Plain queue disk) (hw : area.Whole d)
    (h : Safe area queue disk none given s) {c : Call} (hfair : c.Fair s) :
    (c.run b).wp (fun _ s' => Safe area queue disk none given s') (fun _ => True) s := by
  have hI : ∀ _ : Status, Lasting b (fun _ => True) (Safe area queue disk none given) :=
    fun _ => lasting_safe hb hw given
  have hfile : ∀ {p a f}, s.areaAt p = some a → a.backing = .file f → False := by
    intro p a f ha hback
    rw [h.areaAt ha] at hback
    exact absurd (hw.backing.symm.trans hback) nofun
  cases c with
  | pageOut p w =>
    have hminds : b.Minds := by
      refine ⟨fun hfree hheld => ?_, fun hfront => absurd (hb.front.symm.trans hfront) nofun⟩
      rw [(hb.tryFree hfree).2.1]
      exact hheld
    exact pageOut_wp hI hminds (fun _ _ => .of_stop trivial) hfair.1
      (fun _ _ _ ha hback => (hfile ha hback).elim)
      fun status s' hstep => hstep.safe hb hw h hfair.1 hfair.2
  | pageOutPast p w =>
    refine pageOutPast_wp hI (fun _ _ => .of_stop trivial) hfair.1
      (fun _ _ ha hback => (hfile ha hback).elim)
      (fun _ => h.spilled hfair.1.2 hfair.2) fun a status s' ha hstep => ?_
    rw [h.areaAt ha] at hstep
    exact hstep.safe hb hw ⟨h.serves, h.kept.claim hfair.2⟩ hfair.1.2
  | pageIn p pace =>
    exact pageIn_wp hI (fun hfront => absurd (hb.front.symm.trans hfront) nofun)
      (fun _ _ => .of_stop trivial) (fun _ => trivial) hfair.1 hfair.2.2
      fun status s' hstep => hstep.safe hb hw h hfair.1 hfair.2.1
  | finish f =>
    unfold Call.run
    rw [Run.wp_bind]
    exact Run.wp_mono ((hI (.ok ())).finish f h) (fun _ _ h' => h'.1) fun _ hf => hf
  | _ => exact hfair.elim

/-- **A step loses nothing.** -/
theorem Use.safe (hb : b.Plain queue disk) (hw : area.Whole d) {x y : System σ × (Nat → Bytes)}
    (hstep : Use b area disk x y) (h : Safe area queue disk none x.2 x.1) :
    Safe area queue disk none y.2 y.1 := by
  cases hstep with
  | @take s given p page sl hfree hbusy hslot harea hunused hsize hidle hclean =>
    refine ⟨h.serves.edit_idle s.world hbusy hidle, h.kept.move ?_ (owes_nothing hclean hidle) ?_⟩
    · rintro o ⟨sl', hsl', -⟩
      exact absurd (hfree.symm.trans hsl') nofun
    · intro sl' hsl'
      obtain rfl := Option.some.inj (hslot.symm.trans hsl')
      exact ⟨harea, hsize.2, fun p' _ => hunused p'⟩
  | @drop s given p hclean hidle hunlocked =>
    refine ⟨h.serves.edit_idle s.world hidle hidle,
      h.kept.move (fun _ _ => owes_nothing hclean hidle) (owes_nothing hclean hidle) nofun⟩
  | @edit s given p page hslot hbytes hdirty htransfer hlocked =>
    refine ⟨h.serves.edit s.world htransfer hslot hlocked, ?_⟩
    have howes : page.Owes (none = some p) ↔ (s.pages.get p).Owes (none = some p) := by
      unfold Page.Owes
      rw [hdirty, htransfer]
    exact h.kept.same hslot hbytes (fun _ _ => Iff.rfl) howes
      (fun hr => h.kept.reading (htransfer ▸ hr)) fun _ => rfl
  | @fill s given p o bytes hheld hat hsize =>
    refine ⟨h.serves.edit_idle s.world hheld.2 hheld.2, ?_⟩
    have hold : (s.pages.get p).bytes.size = 4096 := by
      obtain ⟨sl, hsl, -⟩ := hat
      exact (h.kept.home hsl).2
    refine h.kept.update rfl (hsize.trans hold.symm) (fun _ _ => Iff.rfl)
      (fun hr => absurd (hheld.2.symm.trans hr) nofun) (fun o' hnot => ?_) (fun _ _ => rfl)
      (fun o' hat' _ => ?_) fun _ _ => Or.inr (Or.inl rfl)
    · refine Function.update_of_ne ?_ _ _
      rintro rfl
      exact hnot hat
    · rw [hat'.unique hat]
      exact (Function.update_self o bytes given).symm
  | call hfair hrun => exact (Call.run_safe hb hw h hfair).of_ok hrun
  | @elsewhere s given w hdisk =>
    refine ⟨⟨h.serves.coherent, h.serves.registered, h.serves.queue, h.serves.request⟩, ?_⟩
    rw [show disk _ = _ from hdisk]
    exact h.kept

end

/-! ## 4. A whole run -/

/-- A whole device that was brought up. -/
theorem whole_of_swapOn {b : Backend σ} {spec : AreaSpec} {limit : UInt64} {s s₀ : System σ}
    {area : Area} {d : DeviceId} (hspec : spec.backing = .device d)
    (hup : (swapOn b spec limit) s = .ok (.ok area, s₀)) : area.Whole d := by
  obtain ⟨blocks, -, -, hbrought, -⟩ := swapOn_ok hup
  have hsound : spec.Sound b s := fun f d' hf => absurd (hspec.symm.trans hf) nofun
  obtain ⟨-, hlt, hrange, -⟩ := hbrought.apart hsound
  refine ⟨hbrought.backing.trans hspec, fun hsector => ?_⟩
  obtain ⟨o, block, hat, hblock, hs⟩ := hbrought.sector_ok hlt hsector
  rw [hrange d hspec] at hblock
  rw [← (ExtentTable.getElem?_range_iff.mp hblock).2] at hs
  exact ⟨o, hat, hs⟩

/-- **No data is lost.**  A whole device is brought up while nothing is going on, and used for any
number of steps in any order.  Then the data last given to a slot -- by filling its page, or what
was on the device at first -- is the content of the slot on the device, or it is in the page of the
slot, which is dirty or being written. -/
theorem no_data_lost {b : Backend σ} {queue : QueueId} {disk : σ → Storage}
    (hb : b.Plain queue disk) {spec : AreaSpec} {limit : UInt64} {s s₀ s' : System σ} {area : Area}
    {d : DeviceId} {given : Nat → Bytes} (hspec : spec.backing = .device d)
    (hqueue : (s.devices.get d).queue = queue) (hquiet : s.Quiet)
    (hfree : ∀ p, (s.pages.get p).slot = none)
    (hup : (swapOn b spec limit) s = .ok (.ok area, s₀))
    (hrun : Relation.ReflTransGen (Use b area disk) (s₀, (disk s₀.world).page) (s', given))
    (o : Nat) :
    given o = (disk s'.world).page o ∨
      ∃ p, area.IsAt (s'.pages.get p).slot o ∧ (s'.pages.get p).bytes = given o ∧
        ((s'.pages.get p).flags.dirty = true ∨ (s'.pages.get p).transfer = .writing) := by
  have hw := whole_of_swapOn hspec hup
  obtain ⟨blocks, registry, console, -, rfl, hregistered⟩ := swapOn_ok hup
  have hstart : Safe area queue disk none (disk s.world).page { s with registry, console } := by
    refine ⟨⟨hquiet.coherent, hregistered, fun hd => ?_, fun hq => ?_⟩, ?_, ?_, ?_, ?_,
      fun _ => Or.inl rfl⟩
    · rw [hw.eq_of_device? hd]
      exact hqueue
    · exact absurd ((hquiet.requests _).symm.trans hq) nofun
    · exact fun hsl => absurd ((hfree _).symm.trans hsl) nofun
    · rintro p _ _ ⟨sl, hsl, -⟩
      exact absurd ((hfree p).symm.trans hsl) nofun
    · rintro p _ ⟨sl, hsl, -⟩
      exact absurd ((hfree p).symm.trans hsl) nofun
    · exact fun hr => absurd ((hquiet.pages _).symm.trans hr) nofun
  have hsafe : ∀ y, Relation.ReflTransGen (Use b area disk)
      ({ s with registry, console }, (disk s.world).page) y →
        Safe area queue disk none y.2 y.1 := by
    intro y hy
    induction hy with
    | refl => exact hstart
    | tail _ hstep ih => exact hstep.safe hb hw ih
  have hkept := (hsafe _ hrun).kept
  rcases hkept.kept o with hdisk | ⟨p, hat, howes⟩
  · exact Or.inl hdisk.symm
  · exact Or.inr ⟨p, hat, hkept.owes hat howes, howes.imp_right (·.resolve_right nofun)⟩

/-! ## 5. A disk that loses freed slots -/

theorem ramDisk_plain (queue : QueueId) : (ramDisk false).Plain queue (·.disk queue) where
  drives := ramDisk_drives false queue
  slotFreed := by
    intro offset w o ho
    exact (congrArg (·.page o) (w.disk_write queue _ _)).trans
      (((w.disk queue).page_write (Bytes.size_fill _ _) _ _).trans (if_neg ho))
  tryFree := by
    intro m p page w answer page' w' h
    injection h with h hw
    injection h with hanswer hpage
    subst hanswer hpage hw
    exact ⟨rfl, rfl, rfl⟩
  front := rfl

/-- The filled page is written out, and locked again. -/
def ramWritten : System RamDisk :=
  let s := (Call.finish { request := 0 }).after (ramDisk false)
    ((Call.pageOut 0 {}).after (ramDisk false) (ramFilled false (.device 0)))
  { s with pages := s.pages.set 0 { s.pages.get 0 with flags.locked := true } }

/-- It is read back. -/
def ramReadBack : System RamDisk :=
  (Call.finish { request := 1 }).after (ramDisk false)
    ((Call.pageIn 0 .start).after (ramDisk false) ramWritten)

theorem Use.after {b : Backend σ} {area : Area} {disk : σ → Storage} {s : System σ}
    {given : Nat → Bytes} {c : Call} (hfair : c.Fair s) (hok : c.accepted b s = true) :
    Use b area disk (s, given) (c.after b s, given) :=
  .call hfair (Call.run_after hok)

/-- **A slot that has been read back is lost on the disk**, and its data is in the page. -/
theorem no_data_lost_readback :
    ∃ given, Relation.ReflTransGen (Use (ramDisk false) ramArea (·.disk 0))
        (ramUp false (.device 0), ((ramUp false (.device 0)).world.disk 0).page)
        (ramReadBack, given) ∧
      given 1 = Bytes.fill 4096 7 ∧ (ramReadBack.world.disk 0).page 1 = Bytes.fill 4096 0 ∧
      (given 1 = (ramReadBack.world.disk 0).page 1 ∨
        ∃ p, ramArea.IsAt (ramReadBack.pages.get p).slot 1 ∧
          (ramReadBack.pages.get p).bytes = given 1 ∧
          ((ramReadBack.pages.get p).flags.dirty = true ∨
            (ramReadBack.pages.get p).transfer = .writing)) := by
  have hquiet : ramStart.Quiet :=
    ⟨fun _ => rfl, fun _ => rfl, fun d => by rcases d with _ | d <;> rfl⟩
  have hfilled : Relation.ReflTransGen (Use (ramDisk false) ramArea (·.disk 0))
      (ramUp false (.device 0), ((ramUp false (.device 0)).world.disk 0).page)
      (ramFilled false (.device 0), Function.update ((ramUp false (.device 0)).world.disk 0).page 1
        (Bytes.fill 4096 7)) := by
    refine .tail (.single (.take rfl rfl rfl rfl ?_ ⟨rfl, rfl⟩ rfl rfl))
      (.fill (s := ramTaken false (.device 0)) ⟨rfl, rfl⟩ ⟨_, rfl, rfl, rfl⟩ rfl)
    rintro p ⟨sl, hsl, -⟩
    exact absurd hsl nofun
  have hout := hfilled.tail (.after (c := .pageOut 0 {}) ⟨⟨rfl, rfl⟩, rfl⟩ (by decide +kernel))
  have hdone := hout.tail (.after (c := .finish { request := 0 }) trivial (by decide +kernel))
  have hwritten := hdone.tail (c := (ramWritten, _)) (.edit (p := 0) rfl rfl rfl rfl fun _ _ => rfl)
  have hin := hwritten.tail (.after (c := .pageIn 0 .start)
    ⟨⟨by decide +kernel, by decide +kernel⟩, by decide +kernel, by decide +kernel⟩
      (by decide +kernel))
  have hread := hin.tail (.after (c := .finish { request := 1 }) trivial (by decide +kernel))
  refine ⟨_, hread, rfl, by decide +kernel, ?_⟩
  exact no_data_lost (ramDisk_plain 0) rfl rfl hquiet (fun _ => rfl) (swapOn_ramDisk false) hread 1

end PageSwap
